import Chip8.Machine.Basic

/-! # The state line

One line of text that shows the registers of a machine and the word at its program counter. -/

namespace Chip8.Machine

open Numeral

/-- The general registers, two digits each, with blanks between them. -/
def registerText (m : Machine) : String :=
  " ".intercalate (m.v.toList.map fun b ↦ hex 2 b.toNat)

/-- Addresses have at least three digits, the word four, and the rest is decimal. -/
def dump (m : Machine) : String :=
  "pc=" ++ marked 3 m.pc.toNat ++ " op=" ++ marked 4 m.fetch.toNat ++
    " i=" ++ marked 3 m.i.toNat ++ " sp=" ++ decimal m.sp.toNat ++
    " dt=" ++ decimal m.delay.toNat ++ " st=" ++ decimal m.sound.toNat ++
    " v=[" ++ m.registerText ++ "]"

end Chip8.Machine
