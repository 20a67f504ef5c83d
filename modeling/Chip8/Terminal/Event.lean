import Chip8.Error

/-! # Terminal events

What reading from a terminal brings: keys, changes of its size, and failures to read. -/

namespace Chip8.Terminal

structure Modifiers where
  ctrl : Bool := false
  shift : Bool := false
  alt : Bool := false
deriving DecidableEq, Repr

/-- Keys that are no characters. -/
inductive NamedKey
  | escape
  | enter
  | backspace
  | tab
  | up
  | function (n : Nat)
deriving DecidableEq, Repr

inductive Event
  | char (c : Char) (mods : Modifiers)
  | key (k : NamedKey)
  | resize
  /-- Reading failed. -/
  | failure (e : DeviceError)
deriving DecidableEq, Repr

namespace Event

/-- The event of a byte that a keyboard sends; bytes that are no key of ours bring none. -/
def ofByte? (b : UInt8) : Option Event :=
  if b = 3 then some (.char 'c' { ctrl := true })
  else if b = 27 then some (.key .escape)
  else if b = 10 ∨ b = 13 then some (.key .enter)
  else if b = 9 then some (.key .tab)
  else if b = 8 ∨ b = 127 then some (.key .backspace)
  else if 32 ≤ b ∧ b < 127 then some (.char (Char.ofNat b.toNat) {})
  else none

end Event

end Chip8.Terminal
