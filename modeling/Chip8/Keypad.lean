import Chip8.Error

/-! # Keypads without a keyboard

What a machine can ask for keys when there is nobody to press any. -/

namespace Chip8

inductive Keypad
  /-- Hands out keys in order; an empty entry is a query that finds no key, and after the last entry
  the keypad asks to quit. -/
  | scripted (keys : List (Option UInt8))
  /-- Refuses to be used. -/
  | null
  /-- Gives answers of any kind in order, and after the last one finds no key. -/
  | replies (answers : List (Except KeypadError UInt8))

namespace Keypad

def query : Keypad → Except KeypadError UInt8 × Keypad
  | scripted [] => (.error .quit, scripted [])
  | scripted (some key :: rest) => (.ok key, scripted rest)
  | scripted (none :: rest) => (.error .noKey, scripted rest)
  | null => (.error .unavailable, null)
  | replies [] => (.error .noKey, replies [])
  | replies (answer :: rest) => (answer, replies rest)

end Keypad

end Chip8
