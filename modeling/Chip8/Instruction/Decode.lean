import Chip8.Error
import Chip8.Instruction.Basic

/-! # Decoding

The instruction that a word stands for. The class nibble decides, and within the classes `0`, `8`,
`9`, `E` and `F` the last one to three nibbles. -/

namespace Chip8.Instruction

open Fields

/-- Class `8`, by the last nibble. -/
def arithmetic? (x y : Register) : Nat → Option Instruction
  | 0x0 => some (.copy x y)
  | 0x1 => some (.or x y)
  | 0x2 => some (.and x y)
  | 0x3 => some (.xor x y)
  | 0x4 => some (.add x y)
  | 0x5 => some (.sub x y)
  | 0x6 => some (.shiftRight x)
  | 0x7 => some (.subN x y)
  | 0xE => some (.shiftLeft x)
  | _ => none

/-- Class `E`, by the last byte. -/
def keyCheck? (x : Register) : Nat → Option Instruction
  | 0x9E => some (.skipPressed x)
  | 0xA1 => some (.skipNotPressed x)
  | _ => none

/-- Class `F`, by the last byte. -/
def transfer? (x : Register) : Nat → Option Instruction
  | 0x07 => some (.getDelay x)
  | 0x0A => some (.waitKey x)
  | 0x15 => some (.setDelay x)
  | 0x18 => some (.setSound x)
  | 0x1E => some (.addIndex x)
  | 0x29 => some (.fontChar x)
  | 0x33 => some (.bcd x)
  | 0x55 => some (.store x)
  | 0x65 => some (.load x)
  | _ => none

/-- Class `0`, by the last three nibbles. -/
def system? : Nat → Option Instruction
  | 0x0E0 => some .clearScreen
  | 0x0EE => some .ret
  | _ => none

def decode? (w : UInt16) : Option Instruction :=
  match (kind w).val with
  | 0x0 => system? (nnn w).toNat
  | 0x1 => some (.jump (nnn w))
  | 0x2 => some (.call (nnn w))
  | 0x3 => some (.skipEqImm (x w) (nn w))
  | 0x4 => some (.skipNeImm (x w) (nn w))
  | 0x5 => some (.skipEqReg (x w) (y w))
  | 0x6 => some (.setImm (x w) (nn w))
  | 0x7 => some (.addImm (x w) (nn w))
  | 0x8 => arithmetic? (x w) (y w) (n w)
  | 0x9 => if n w = 0 then some (.skipNeReg (x w) (y w)) else none
  | 0xA => some (.setIndex (nnn w))
  | 0xB => some (.jumpOffset (nnn w))
  | 0xC => some (.random (x w) (nn w))
  | 0xD => some (.draw (x w) (y w) (n w))
  | 0xE => keyCheck? (x w) (nn w).toNat
  | _ => transfer? (x w) (nn w).toNat

/-- The instruction, or an error that carries the word. -/
def decode (w : UInt16) : Except Error Instruction :=
  match decode? w with
  | some i => .ok i
  | none => .error (.unknownOpcode w)

/-! ## Success and failure -/

theorem decode_eq_ok_iff {w : UInt16} {i : Instruction} :
    decode w = .ok i ↔ decode? w = some i := by
  cases h : decode? w <;> simp [decode, h]

theorem decode_eq_error_iff {w : UInt16} {e : Error} :
    decode w = .error e ↔ decode? w = none ∧ e = .unknownOpcode w := by
  cases h : decode? w <;> simp [decode, h, eq_comm]

end Chip8.Instruction
