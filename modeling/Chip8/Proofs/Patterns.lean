import Chip8.Instruction.Decode
import Chip8.Instruction.Pattern

/-! # Instructions and their patterns

A word is decoded to an instruction if and only if the pattern of the instruction covers the word
and its operands are the fields that the pattern names. What is said of the words of a pattern is
thereby said of an instruction, and the other way round. -/

namespace Chip8

/-- The value of a hexadecimal digit in upper case. -/
def Numeral.value (c : Char) : Nat := if c.toNat < 58 then c.toNat - 48 else c.toNat - 55

theorem Numeral.eq_digit_iff {c : Char} (hv : value c < 16) (hc : c = digit (value c))
    (d : Fin 16) : c = digit d ↔ d.val = value c := by
  have hinj : ∀ d e : Fin 16, digit d = digit e → d = e := by decide
  constructor
  · intro h
    exact congrArg Fin.val (hinj d ⟨value c, hv⟩ (h.symm.trans hc))
  · intro h
    rw [h]
    exact hc

namespace Instruction

open Fields Pattern

/-- The documented pattern of an instruction. -/
def pattern : Instruction → String
  | clearScreen => "00E0"
  | ret => "00EE"
  | jump _ => "1NNN"
  | call _ => "2NNN"
  | skipEqImm .. => "3XNN"
  | skipNeImm .. => "4XNN"
  | skipEqReg .. => "5XY_"
  | setImm .. => "6XNN"
  | addImm .. => "7XNN"
  | copy .. => "8XY0"
  | or .. => "8XY1"
  | and .. => "8XY2"
  | xor .. => "8XY3"
  | add .. => "8XY4"
  | sub .. => "8XY5"
  | shiftRight _ => "8XY6"
  | subN .. => "8XY7"
  | shiftLeft _ => "8XYE"
  | skipNeReg .. => "9XY0"
  | setIndex _ => "ANNN"
  | jumpOffset _ => "BNNN"
  | random .. => "CXNN"
  | draw .. => "DXYN"
  | skipPressed _ => "EX9E"
  | skipNotPressed _ => "EXA1"
  | getDelay _ => "FX07"
  | waitKey _ => "FX0A"
  | setDelay _ => "FX15"
  | setSound _ => "FX18"
  | addIndex _ => "FX1E"
  | fontChar _ => "FX29"
  | bcd _ => "FX33"
  | store _ => "FX55"
  | load _ => "FX65"

/-- The operands are the fields of the word. -/
def ReadsFrom (w : UInt16) : Instruction → Prop
  | clearScreen | ret => True
  | jump addr | call addr | setIndex addr | jumpOffset addr => addr = nnn w
  | skipEqImm x nn | skipNeImm x nn | setImm x nn | addImm x nn | random x nn =>
    x = Fields.x w ∧ nn = Fields.nn w
  | skipEqReg x y | skipNeReg x y | copy x y | or x y | and x y | xor x y | add x y | sub x y
  | subN x y => x = Fields.x w ∧ y = Fields.y w
  | draw x y rows => x = Fields.x w ∧ y = Fields.y w ∧ rows = n w
  | shiftRight x | shiftLeft x | skipPressed x | skipNotPressed x | getDelay x | waitKey x
  | setDelay x | setSound x | addIndex x | fontChar x | bcd x | store x | load x => x = Fields.x w

variable {w : UInt16} {i : Instruction}

theorem nn_toNat_eq_nibbles (w : UInt16) : (nn w).toNat = 16 * (y w).val + (n w).val := by
  rw [nn_toNat, y_val, n_val]
  omega

theorem nnn_toNat_eq_nibbles (w : UInt16) :
    (nnn w).toNat = 256 * (x w).val + 16 * (y w).val + (n w).val := by
  rw [nnn_toNat, x_val, y_val, n_val]
  omega

/-- A decoded word has the form of its instruction. -/
theorem covers_of_decode? (h : decode? w = some i) : covers i.pattern w = true ∧ i.ReadsFrom w := by
  have hkind := (kind w).isLt
  have hx := (x w).isLt
  have hn := (n w).isLt
  have hnn := nn_toNat_eq_nibbles w
  have hnnn := nnn_toNat_eq_nibbles w
  simp only [decode?, system?, arithmetic?, keyCheck?, transfer?] at h
  -- One case for each row of the tables that decoding looks into.
  split at h <;> (try split at h) <;> cases h
  all_goals
    refine ⟨?_, by simp only [ReadsFrom, and_self]⟩
    simp (disch := decide) [-Fin.val_eq_zero_iff, covers, nibbles, pattern, admits,
      Numeral.eq_digit_iff, Numeral.value]
    grind

/-- A word in the form of an instruction is decoded to it. -/
theorem decode?_of_covers (hc : covers i.pattern w = true) (hr : i.ReadsFrom w) :
    decode? w = some i := by
  have hnn := nn_toNat_eq_nibbles w
  have hnnn := nnn_toNat_eq_nibbles w
  cases i
  all_goals
    simp (disch := decide) [covers, nibbles, pattern, admits, Numeral.eq_digit_iff,
      Numeral.value] at hc
    simp only [ReadsFrom] at hr
    simp [decode?, system?, arithmetic?, keyCheck?, transfer?, hc, hnn, hnnn, hr]

theorem decode?_eq_some_iff : decode? w = some i ↔ covers i.pattern w = true ∧ i.ReadsFrom w :=
  ⟨covers_of_decode?, fun h ↦ decode?_of_covers h.1 h.2⟩

end Instruction

end Chip8
