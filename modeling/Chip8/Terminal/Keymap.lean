/-! # The keyboard layout

The left side of a keyboard stands for the sixteen keys of the keypad:

```text
1 2 3 4        1 2 3 C
q w e r   for  4 5 6 D
a s d f        7 8 9 E
z x c v        A 0 B F
```
-/

namespace Chip8.Terminal

/-- The character for each key, from key zero on. -/
def layout : List Char :=
  ['x', '1', '2', '3', 'q', 'w', 'e', 'a', 's', 'd', 'z', 'c', '4', 'r', 'f', 'v']

/-- The key that a character stands for. Letters count in lower case only. -/
def keyOf? (c : Char) : Option UInt8 := (layout.idxOf? c).map UInt8.ofNat

end Chip8.Terminal
