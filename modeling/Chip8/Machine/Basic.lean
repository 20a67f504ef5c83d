import Chip8.Grid
import Chip8.Instruction.Basic
import Chip8.Memory
import Chip8.Options
import Chip8.RandomStream

/-! # The machine

All that a running program can change, apart from the devices around the machine. -/

namespace Chip8

inductive RunState
  | running
  | stopped
deriving DecidableEq, Repr

structure Machine where
  memory : Memory
  /-- The general registers; the last one also holds flags. -/
  v : Vector UInt8 16
  /-- The index register. -/
  i : UInt16
  pc : UInt16
  /-- The call sites that are still open. Slot zero is never used. -/
  stack : Vector UInt16 16
  /-- The slot of the latest open call, zero if there is none. -/
  sp : UInt8
  delay : UInt8
  sound : UInt8
  grid : Grid
  random : RandomStream
  /-- Where programs are loaded. -/
  loadOffset : UInt16
  runState : RunState
deriving DecidableEq

namespace Machine

/-- The register that holds flags. -/
def flagRegister : Register := 15

/-- The deepest slot of the stack. -/
def stackTop : UInt8 := 15

/-- A machine that has not run. `entropy` is the seed where the options have none. -/
def fresh (options : Options) (entropy : UInt64) : Machine where
  memory := .fresh
  v := Vector.replicate 16 0
  i := 0
  pc := options.loadOffset
  stack := Vector.replicate 16 0
  sp := 0
  delay := 0
  sound := 0
  grid := .blank
  random := .ofSeed (options.seed.getD entropy)
  loadOffset := options.loadOffset
  runState := .stopped

/-- The word at the program counter. -/
def fetch (m : Machine) : UInt16 := m.memory.word m.pc

/-- Loads a program at the load offset; answers its length. -/
def load (m : Machine) (source : Source) : Except Error (Nat × Machine) :=
  (m.memory.load m.loadOffset source).map fun (n, memory) ↦ (n, { m with memory })

/-- A load that succeeds changes memory alone. -/
theorem load_eq_ok_iff {m m' : Machine} {source : Source} {n : Nat} :
    m.load source = .ok (n, m') ↔
      ∃ memory, m.memory.load m.loadOffset source = .ok (n, memory) ∧ m' = { m with memory } := by
  unfold load
  rcases m.memory.load m.loadOffset source with e | ⟨k, memory⟩
  · simp [Except.map]
  · constructor
    · intro h
      cases h
      exact ⟨memory, rfl, rfl⟩
    · rintro ⟨_, h, rfl⟩
      cases h
      rfl

/-! ## Registers and the program counter -/

def reg (m : Machine) (r : Register) : UInt8 := m.v[r]

def setReg (m : Machine) (r : Register) (b : UInt8) : Machine :=
  { m with v := m.v.set r b r.isLt }

theorem reg_setReg (m : Machine) (r s : Register) (b : UInt8) :
    (m.setReg r b).reg s = if r = s then b else m.reg s := by
  simp only [reg, setReg, Fin.getElem_fin, Vector.getElem_set, Fin.ext_iff]

/-- Moves on to the next word. -/
def advance (m : Machine) : Machine := { m with pc := m.pc + 2 }

/-- Moves on, past one more word if `condition`. -/
def skipIf (m : Machine) (condition : Bool) : Machine :=
  if condition then m.advance.advance else m.advance

/-- Sets a register and moves on. -/
def assign (m : Machine) (r : Register) (b : UInt8) : Machine := (m.setReg r b).advance

/-- Sets the flag, then a register, and moves on: the register wins where it is the flag's own. -/
def assignFlagged (m : Machine) (r : Register) (b : UInt8) (flag : Bool) : Machine :=
  (m.setReg flagRegister flag.toUInt8).assign r b

theorem pc_skipIf (m : Machine) (condition : Bool) :
    (m.skipIf condition).pc = m.pc + if condition then 4 else 2 := by
  cases condition
  · rfl
  · exact UInt16.add_assoc m.pc 2 2

@[simp] theorem reg_advance (m : Machine) (r : Register) : m.advance.reg r = m.reg r := rfl

/-- A register that is set alone keeps the others, the flag among them. -/
theorem reg_assign (m : Machine) (r s : Register) (b : UInt8) :
    (m.assign r b).reg s = if r = s then b else m.reg s :=
  reg_setReg m r s b

theorem reg_assignFlagged (m : Machine) (r s : Register) (b : UInt8) (flag : Bool) :
    (m.assignFlagged r b flag).reg s =
      if r = s then b else if flagRegister = s then flag.toUInt8 else m.reg s := by
  rw [assignFlagged, reg_assign, reg_setReg]

/-! ## Timers and the stack pointer -/

theorem toNat_add_one {b : UInt8} (h : b ≠ 255) : (b + 1).toNat = b.toNat + 1 := by
  have hne : b.toNat ≠ 255 := fun he ↦ h (UInt8.toNat_inj.1 he)
  have hlt := b.toNat_lt
  rw [UInt8.toNat_add, UInt8.toNat_one]
  omega

theorem toNat_sub_one {b : UInt8} (h : b ≠ 0) : (b - 1).toNat = b.toNat - 1 := by
  have hpos : 1 ≤ b := by
    rw [UInt8.le_iff_toNat_le]
    exact Nat.one_le_iff_ne_zero.2 fun he ↦ h (UInt8.toNat_inj.1 he)
  rw [UInt8.toNat_sub_of_le _ _ hpos, UInt8.toNat_one]

/-- A timer one tick later; it stops at zero. -/
def decay (timer : UInt8) : UInt8 := if timer = 0 then 0 else timer - 1

theorem decay_toNat (timer : UInt8) : (decay timer).toNat = timer.toNat - 1 := by
  unfold decay
  split
  · next h => simp [h]
  · next h => exact toNat_sub_one h

def decayTimers (m : Machine) : Machine :=
  { m with delay := decay m.delay, sound := decay m.sound }

end Machine

end Chip8
