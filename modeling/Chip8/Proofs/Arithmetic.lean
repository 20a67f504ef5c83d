import Chip8.Bench
import Chip8.Proofs.Decoding
import Chip8.Proofs.Step

/-! # Arithmetic and the flag

Five operations of class `8` set the flag besides their register. All of them read their operands
first and write the flag before the register, so that an operand in the flag register counts with
its old value, and a result that is put there hides the flag. -/

namespace Chip8

/-- The operations of class `8` that set the flag. -/
inductive Arithmetic
  | add
  | sub
  | shiftRight
  | subN
  | shiftLeft
deriving DecidableEq, Repr

namespace Arithmetic

/-- The last nibble of the words of an operation. -/
def nibble : Arithmetic → Nat
  | add => 0x4
  | sub => 0x5
  | shiftRight => 0x6
  | subN => 0x7
  | shiftLeft => 0xE

/-- The word of an operation. Shifts have a second register in their words, too. -/
def word (op : Arithmetic) (x y : Register) : UInt16 :=
  Instruction.wordOfNibbles 0x8 x y op.nibble

def instruction (x y : Register) : Arithmetic → Instruction
  | add => .add x y
  | sub => .sub x y
  | shiftRight => .shiftRight x
  | subN => .subN x y
  | shiftLeft => .shiftLeft x

theorem decode_word (op : Arithmetic) (x y : Register) :
    Instruction.decode (op.word x y) = .ok (op.instruction x y) := by
  have hlt : op.nibble < 16 := by cases op <;> decide
  rw [Instruction.decode_eq_ok_iff, word, Instruction.decode?_arithmetic hlt]
  cases op <;> rfl

/-! ## Numbers

What an operation makes of two numbers, the values of its operands. -/

/-- The remainder is that of division downwards, so it is never negative. -/
def result (a b : Int) : Arithmetic → Int
  | add => (a + b) % 256
  | sub => (a - b) % 256
  | shiftRight => a / 2
  | subN => (b - a) % 256
  | shiftLeft => 2 * a % 256

def Flags (a b : Nat) : Arithmetic → Prop
  | add => 255 < a + b
  | sub => b < a
  | shiftRight => a % 2 = 1
  | subN => a < b
  | shiftLeft => 128 ≤ a

instance decidableFlags (a b : Nat) : (op : Arithmetic) → Decidable (op.Flags a b)
  | add => inferInstanceAs (Decidable (255 < a + b))
  | sub => inferInstanceAs (Decidable (b < a))
  | shiftRight => inferInstanceAs (Decidable (a % 2 = 1))
  | subN => inferInstanceAs (Decidable (a < b))
  | shiftLeft => inferInstanceAs (Decidable (128 ≤ a))

/-! ## Bytes -/

/-- The byte that an operation puts into its register. -/
def byte (a b : UInt8) : Arithmetic → UInt8
  | add => a + b
  | sub => a - b
  | shiftRight => a >>> 1
  | subN => b - a
  | shiftLeft => a <<< 1

/-- The flag that it sets before. -/
def flag (a b : UInt8) : Arithmetic → Bool
  | add => 256 ≤ a.toNat + b.toNat
  | sub => b < a
  | shiftRight => a % 2 == 1
  | subN => a < b
  | shiftLeft => 128 ≤ a

theorem toNat_byte (op : Arithmetic) (a b : UInt8) :
    ((op.byte a b).toNat : Int) = op.result a.toNat b.toNat := by
  have ha := a.toNat_lt
  have hb := b.toNat_lt
  cases op with
  | add =>
    rw [byte, result, UInt8.toNat_add]
    omega
  | sub =>
    rw [byte, result, UInt8.toNat_sub]
    omega
  | shiftRight =>
    rw [byte, result, UInt8.toNat_shiftRight]
    simp [Nat.shiftRight_eq_div_pow]
  | subN =>
    rw [byte, result, UInt8.toNat_sub]
    omega
  | shiftLeft =>
    rw [byte, result, UInt8.toNat_shiftLeft]
    simp [Nat.shiftLeft_eq, Nat.mul_comm]

theorem flag_iff (op : Arithmetic) (a b : UInt8) :
    op.flag a b = true ↔ op.Flags a.toNat b.toNat := by
  cases op with
  | add => exact decide_eq_true_iff
  | sub => simp [flag, Flags, UInt8.lt_iff_toNat_lt]
  | shiftRight => simp [flag, Flags, ← UInt8.toNat_inj]
  | subN => simp [flag, Flags, UInt8.lt_iff_toNat_lt]
  | shiftLeft => simp [flag, Flags, UInt8.le_iff_toNat_le]

/-! ## Execution -/

theorem execute_instruction (op : Arithmetic) (x y : Register) (m : Machine) :
    m.execute (op.instruction x y) = .done (m.assignFlagged x (op.byte (m.reg x) (m.reg y))
      (op.flag (m.reg x) (m.reg y))) := by
  cases op <;> rfl

/-- What an operation on `x` and `y` makes of the machine `m`: the operands are those of `m`. -/
structure Computes (op : Arithmetic) (x y : Register) (m m' : Machine) : Prop where
  result : ((m'.reg x).toNat : Int) = op.result (m.reg x).toNat (m.reg y).toNat
  /-- The flag is there unless the result hides it. -/
  flag : x ≠ Machine.flagRegister → m'.reg Machine.flagRegister =
    if op.Flags (m.reg x).toNat (m.reg y).toNat then 1 else 0
  others : ∀ r, r ≠ x → r ≠ Machine.flagRegister → m'.reg r = m.reg r
  pc : m'.pc = m.pc + 2
  rest : m' = { m with v := m'.v, pc := m'.pc }

theorem computes_assignFlagged (op : Arithmetic) (x y : Register) (m : Machine) :
    op.Computes x y m (m.assignFlagged x (op.byte (m.reg x) (m.reg y))
      (op.flag (m.reg x) (m.reg y))) where
  result := by rw [Machine.reg_assignFlagged, if_pos rfl, toNat_byte]
  flag hx := by
    rw [Machine.reg_assignFlagged, if_neg hx, if_pos rfl]
    simp only [← flag_iff]
    cases op.flag (m.reg x) (m.reg y) <;> rfl
  others r hx hf := by
    rw [Machine.reg_assignFlagged, if_neg hx.symm, if_neg hf.symm]
  pc := rfl
  rest := rfl

end Arithmetic

namespace Computer

/-- An operation at the program counter succeeds without the devices, whatever its registers are:
the flag register may be one of them or both. -/
theorem step_computes {ε : Type} (host : Host ε) (c : Computer ε) (op : Arithmetic) (x y : Register)
    (h : c.machine.fetch = op.word x y) :
    ∃ m', c.step host = (.ok (), { c with machine := m' }) ∧ op.Computes x y c.machine m' := by
  refine ⟨_, ?_, op.computes_assignFlagged x y c.machine⟩
  rw [step_of_decode (h ▸ op.decode_word x y), op.execute_instruction]
  rfl

/-- The word `83F4` before registers that are all 200. -/
def addingFlag : Computer Bench :=
  let c := ((onBench .null).load (.ofBytes [0x83, 0xF4])).2
  { c with machine := { c.machine with v := Vector.replicate 16 200 } }

/-- The flag register counts with its 200 and is set afterwards. -/
theorem step_computes_addingFlag : ∃ m',
    addingFlag.step Bench.host = (.ok (), { addingFlag with machine := m' }) ∧
      Arithmetic.add.Computes 3 15 addingFlag.machine m' ∧
      m'.reg 3 = 144 ∧ m'.reg 15 = 1 := by
  have hword : addingFlag.machine.fetch = Arithmetic.add.word 3 15 := by decide +kernel
  obtain ⟨m', hs, hm⟩ := step_computes Bench.host addingFlag .add 3 15 hword
  have hresult : ((m'.reg 3).toNat : Int) = 144 := hm.result.trans (by decide +kernel)
  have hflag : m'.reg 15 = 1 := (hm.flag (by decide)).trans (by decide +kernel)
  exact ⟨m', hs, hm, UInt8.toNat_inj.1 (Int.ofNat_inj.1 hresult), hflag⟩

end Computer

end Chip8
