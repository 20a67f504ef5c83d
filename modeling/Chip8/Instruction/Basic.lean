import Chip8.Instruction.Fields
import Chip8.Numeral

/-! # Instructions

The instruction set: what each decoded word asks for, with its operands. Each constructor is
listed with its pattern, in which `X` and `Y` are registers, `N`, `NN` and `NNN` numbers and
`_` anything. -/

namespace Chip8

/-- The index of a general register. -/
abbrev Register := Fin 16

/-- Registers can be written as numerals. The zero is the one that numerals look for, so that they
mean the same whatever else is imported. -/
instance instNeZeroRegisters : @NeZero Nat Zero.ofOfNat0 16 := ⟨by decide⟩

inductive Instruction
  /-- The pattern `00E0`. -/
  | clearScreen
  /-- The pattern `00EE`. -/
  | ret
  /-- The pattern `1NNN`. -/
  | jump (addr : UInt16)
  /-- The pattern `2NNN`. -/
  | call (addr : UInt16)
  /-- The pattern `3XNN`. -/
  | skipEqImm (x : Register) (nn : UInt8)
  /-- The pattern `4XNN`. -/
  | skipNeImm (x : Register) (nn : UInt8)
  /-- The pattern `5XY_`. -/
  | skipEqReg (x y : Register)
  /-- The pattern `6XNN`. -/
  | setImm (x : Register) (nn : UInt8)
  /-- The pattern `7XNN`. -/
  | addImm (x : Register) (nn : UInt8)
  /-- The pattern `8XY0`. -/
  | copy (x y : Register)
  /-- The pattern `8XY1`. -/
  | or (x y : Register)
  /-- The pattern `8XY2`. -/
  | and (x y : Register)
  /-- The pattern `8XY3`. -/
  | xor (x y : Register)
  /-- The pattern `8XY4`. -/
  | add (x y : Register)
  /-- The pattern `8XY5`. -/
  | sub (x y : Register)
  /-- The pattern `8X_6`. -/
  | shiftRight (x : Register)
  /-- The pattern `8XY7`. -/
  | subN (x y : Register)
  /-- The pattern `8X_E`. -/
  | shiftLeft (x : Register)
  /-- The pattern `9XY0`. -/
  | skipNeReg (x y : Register)
  /-- The pattern `ANNN`. -/
  | setIndex (addr : UInt16)
  /-- The pattern `BNNN`. -/
  | jumpOffset (addr : UInt16)
  /-- The pattern `CXNN`. -/
  | random (x : Register) (nn : UInt8)
  /-- The pattern `DXYN`. -/
  | draw (x y : Register) (rows : Fin 16)
  /-- The pattern `EX9E`. -/
  | skipPressed (x : Register)
  /-- The pattern `EXA1`. -/
  | skipNotPressed (x : Register)
  /-- The pattern `FX07`. -/
  | getDelay (x : Register)
  /-- The pattern `FX0A`. -/
  | waitKey (x : Register)
  /-- The pattern `FX15`. -/
  | setDelay (x : Register)
  /-- The pattern `FX18`. -/
  | setSound (x : Register)
  /-- The pattern `FX1E`. -/
  | addIndex (x : Register)
  /-- The pattern `FX29`. -/
  | fontChar (x : Register)
  /-- The pattern `FX33`. -/
  | bcd (x : Register)
  /-- The pattern `FX55`. -/
  | store (x : Register)
  /-- The pattern `FX65`. -/
  | load (x : Register)
deriving DecidableEq, Repr

namespace Instruction

open Numeral

/-! ## Text

The name of an instruction, with its operands in decimal between round brackets. -/

/-- A name with its operands. -/
def application (name : String) (operands : List Nat) : String :=
  name ++ "(" ++ ", ".intercalate (operands.map decimal) ++ ")"

def text : Instruction → String
  | clearScreen => "ClearScreen"
  | ret => "Return"
  | jump addr => application "Jump" [addr.toNat]
  | call addr => application "Call" [addr.toNat]
  | skipEqImm x nn => application "SkipEqImm" [x, nn.toNat]
  | skipNeImm x nn => application "SkipNeImm" [x, nn.toNat]
  | skipEqReg x y => application "SkipEqReg" [x, y]
  | setImm x nn => application "SetImm" [x, nn.toNat]
  | addImm x nn => application "AddImm" [x, nn.toNat]
  | copy x y => application "Copy" [x, y]
  | or x y => application "Or" [x, y]
  | and x y => application "And" [x, y]
  | xor x y => application "Xor" [x, y]
  | add x y => application "Add" [x, y]
  | sub x y => application "Sub" [x, y]
  | shiftRight x => application "ShiftRight" [x]
  | subN x y => application "SubN" [x, y]
  | shiftLeft x => application "ShiftLeft" [x]
  | skipNeReg x y => application "SkipNeReg" [x, y]
  | setIndex addr => application "SetIndex" [addr.toNat]
  | jumpOffset addr => application "JumpOffset" [addr.toNat]
  | random x nn => application "Random" [x, nn.toNat]
  | draw x y rows => application "Draw" [x, y, rows]
  | skipPressed x => application "SkipPressed" [x]
  | skipNotPressed x => application "SkipNotPressed" [x]
  | getDelay x => application "GetDelay" [x]
  | waitKey x => application "WaitKey" [x]
  | setDelay x => application "SetDelay" [x]
  | setSound x => application "SetSound" [x]
  | addIndex x => application "AddIndex" [x]
  | fontChar x => application "FontChar" [x]
  | bcd x => application "Bcd" [x]
  | store x => application "Store" [x]
  | load x => application "Load" [x]

end Instruction

end Chip8
