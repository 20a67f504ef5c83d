import Chip8.Bench
import Chip8.Proofs.Effect

/-! # Footprints

What an instruction may change. `Machine.Writes` goes through the instruction set once and tells the
parts of the machine that each instruction writes; `Footprint` says the same part by part. -/

namespace Chip8

/-! ## Finished instructions -/

/-- The machine with which an instruction of this effect is finished, where the keypad answers `key`
if it is asked. -/
def Effect.finish? (key : Option UInt8) : Effect → Option Machine
  | .done m | .drawn m => some m
  | .asking resume => some (resume key)
  | .refused _ | .fault _ => none

/-- The key that the keypad answers next, if any. -/
def Host.held {ε : Type} (host : Host ε) (outside : ε) : Option UInt8 :=
  (host.key outside).1.toOption

/-- An instruction that succeeds is finished with the machine that it leaves. -/
theorem Computer.finish?_of_perform {ε : Type} {host : Host ε} {c c' : Computer ε} {effect : Effect}
    (h : c.perform host effect = (.ok (), c')) :
    effect.finish? (host.held c.outside) = some c'.machine := by
  cases effect with
  | done m =>
    cases h
    rfl
  | refused | fault => cases h
  | drawn m =>
    rw [perform] at h
    split at h
    · cases h
      rfl
    · cases h
  | asking resume =>
    rw [perform] at h
    rw [Effect.finish?, Host.held]
    split at h
    · next hk =>
      cases h
      rw [hk]
      rfl
    · next hk =>
      cases h
      rw [hk]
      rfl
    · cases h

namespace Memory

/-- The place of `c` is one of the `n` places from that of `a` on, around the end of memory. -/
def Covers (a : UInt16) (n : Nat) (c : UInt16) : Prop :=
  ∃ k < n, c.toNat % 4096 = (a.toNat + k) % 4096

theorem covers_iff {a c : UInt16} {n : Nat} : Covers a n c ↔ offset a c < n := by
  have ha := a.toNat_lt
  have hc := c.toNat_lt
  have ho : offset a c = (2 ^ 16 - a.toNat + c.toNat) % 2 ^ 16 % 4096 := by
    rw [offset, UInt16.toNat_sub]
  constructor
  · rintro ⟨k, hk, he⟩
    omega
  · intro hlt
    exact ⟨offset a c, hlt, by omega⟩

/-- Writing a block changes only bytes that it covers. -/
theorem covers_of_get_setBlock_ne {m : Memory} {a c : UInt16} {bs : List UInt8}
    (hlen : bs.length ≤ 4096) (h : (m.setBlock a bs).get c ≠ m.get c) : Covers a bs.length c := by
  rw [covers_iff]
  by_cases hlt : offset a c < bs.length
  · exact hlt
  · rw [get_setBlock m a c hlen, List.getElem?_eq_none (Nat.le_of_not_lt hlt)] at h
    exact absurd rfl h

end Memory

namespace Instruction

/-- The instructions that do not write to anything but the program counter, or need not. -/
def Moves : Instruction → Prop
  | .jump _ | .jumpOffset _ | .skipEqImm .. | .skipNeImm .. | .skipEqReg .. | .skipNeReg ..
  | .skipPressed _ | .skipNotPressed _ | .waitKey _ => True
  | _ => False

/-- The instructions with `r` as a register of their result. Waiting for a key has none
without one. -/
def Sets (key : Option UInt8) (r : Register) : Instruction → Prop
  | .setImm x _ | .addImm x _ | .copy x _ | .or x _ | .and x _ | .xor x _ | .add x _ | .sub x _
  | .shiftRight x | .subN x _ | .shiftLeft x | .random x _ | .getDelay x => r = x
  | .waitKey x => r = x ∧ key.isSome
  | .load x => r ≤ x
  | _ => False

/-- The instructions that set the flag register besides. -/
def SetsFlag : Instruction → Prop
  | .add .. | .sub .. | .shiftRight _ | .subN .. | .shiftLeft _ | .draw .. => True
  | _ => False

def SetsIndex : Instruction → Prop
  | .setIndex _ | .addIndex _ | .fontChar _ => True
  | _ => False

/-- The bytes that an instruction puts into memory, from the index register on. -/
def stored (m : Machine) : Instruction → List UInt8
  | .bcd x => Machine.decimals (m.reg x)
  | .store x => m.registersUpTo x
  | _ => []

theorem length_stored_store (m : Machine) (x : Register) :
    (stored m (.store x)).length = x.val + 1 := by
  rw [stored, Machine.registersUpTo, List.length_take, Vector.length_toList]
  omega

theorem length_stored_le (m : Machine) (i : Instruction) : (i.stored m).length ≤ 16 := by
  cases i with
  | store x =>
    rw [length_stored_store]
    omega
  | bcd => exact Nat.le_of_ble_eq_true rfl
  | _ => exact Nat.zero_le 16

end Instruction

namespace Machine

variable {m m' : Machine} {key : Option UInt8} {i : Instruction}

/-! ## The parts that are written -/

/-- What an instruction writes that is finished: the parts of `m` that are named, and no others. The
program counter is set to something by all of them. -/
inductive Writes (m : Machine) (key : Option UInt8) : Instruction → Machine → Prop
  | nothing {i : Instruction} (pc : UInt16) : i.Moves → Writes m key i { m with pc }
  | register {i : Instruction} {x : Register} (b : UInt8) (pc : UInt16) : i.Sets key x →
      Writes m key i { m.setReg x b with pc }
  | flagged {i : Instruction} {x : Register} (flag b : UInt8) (pc : UInt16) : i.Sets key x →
      i.SetsFlag → Writes m key i { (m.setReg flagRegister flag).setReg x b with pc }
  | registers {last : Register} (v : Vector UInt8 16) (pc : UInt16) :
      (∀ r, reg { m with v } r ≠ m.reg r → r ≤ last) → Writes m key (.load last) { m with v, pc }
  | index {i : Instruction} (a pc : UInt16) : i.SetsIndex → Writes m key i { m with i := a, pc }
  | bytes {i : Instruction} (pc : UInt16) :
      Writes m key i { m with memory := m.memory.setBlock m.i (i.stored m), pc }
  | call {addr : UInt16} (h : m.sp.toNat + 1 < 16) : Writes m key (.call addr) { m with
      sp := m.sp + 1, stack := m.stack.set (m.sp.toNat + 1) m.pc h, pc := addr }
  | ret (pc : UInt16) : Writes m key .ret { m with sp := m.sp - 1, pc }
  | delay {x : Register} (b : UInt8) (pc : UInt16) :
      Writes m key (.setDelay x) { m with delay := b, pc }
  | sound {x : Register} (b : UInt8) (pc : UInt16) :
      Writes m key (.setSound x) { m with sound := b, pc }
  | blank (pc : UInt16) : Writes m key .clearScreen { m with grid := .blank, pc }
  | drawing {x y : Register} {rows : Fin 16} (grid : Grid) (flag : UInt8) (pc : UInt16) :
      Writes m key (.draw x y rows) { m.setReg flagRegister flag with grid, pc }
  | random {x : Register} {nn : UInt8} (random : RandomStream) (b : UInt8) (pc : UInt16) :
      Writes m key (.random x nn) { m.setReg x b with random, pc }

theorem writes_skipIf (condition : Bool) (hi : i.Moves) :
    m.Writes key i (m.skipIf condition) := by
  cases condition
  · exact .nothing _ hi
  · exact .nothing _ hi

/-- Every instruction that is finished writes what is listed. -/
theorem writes_of_finish? (h : (m.execute i).finish? key = some m') : m.Writes key i m' := by
  cases i with
  | clearScreen =>
    cases h
    exact .blank _
  | ret =>
    rw [execute] at h
    obtain ⟨_, hr⟩ | ⟨_, _, hr⟩ | ⟨_, hr⟩ := m.ret_cases
    · rw [hr] at h
      cases h
    · rw [hr] at h
      cases h
      exact .ret _
    · rw [hr] at h
      cases h
  | call addr =>
    rw [execute] at h
    obtain ⟨_, hc⟩ | ⟨hlt, hc⟩ | ⟨_, _, hc⟩ := m.call_cases addr
    · rw [hc] at h
      cases h
    · rw [hc] at h
      cases h
      exact .call hlt
    · rw [hc] at h
      cases h
  | jump | jumpOffset =>
    cases h
    exact .nothing _ trivial
  | skipEqImm | skipNeImm | skipEqReg | skipNeReg | skipPressed | skipNotPressed =>
    cases h
    exact writes_skipIf _ trivial
  | waitKey x =>
    cases h
    cases key with
    | none => exact .nothing m.pc trivial
    | some key => exact .register _ _ ⟨rfl, rfl⟩
  | setImm | addImm | copy | or | and | xor | getDelay =>
    cases h
    exact .register _ _ rfl
  | add | sub | shiftRight | subN | shiftLeft =>
    cases h
    exact .flagged _ _ _ rfl trivial
  | setIndex | addIndex | fontChar =>
    cases h
    exact .index _ _ trivial
  | random =>
    cases h
    exact .random _ _ _
  | draw x y rows =>
    obtain ⟨grid, collision, _, hd⟩ := m.draw_cases x y rows
    rw [execute, hd] at h
    cases h
    exact .drawing _ _ _
  | setDelay =>
    cases h
    exact .delay _ _
  | setSound =>
    cases h
    exact .sound _ _
  | bcd | store =>
    cases h
    exact .bytes _
  | load last =>
    cases h
    refine .registers _ _ ?_
    intro r hne
    by_cases hle : r ≤ last
    · exact hle
    · simp [reg, hle] at hne

end Machine

/-! ## The footprint -/

/-- What an instruction may change that is finished, part by part; `key` is the key that is held.
The program counter moves with all of them. -/
structure Footprint (key : Option UInt8) (i : Instruction) (m m' : Machine) : Prop where
  reg : ∀ r, m'.reg r ≠ m.reg r → i.Sets key r ∨ (r = Machine.flagRegister ∧ i.SetsFlag)
  index : m'.i ≠ m.i → i.SetsIndex
  /-- Three places from the index register on for the digits, one for each register that
  is stored. -/
  memory : ∀ a, m'.memory.get a ≠ m.memory.get a →
    (∃ x, i = .bcd x ∧ Memory.Covers m.i 3 a) ∨
      (∃ x, i = .store x ∧ Memory.Covers m.i (x.val + 1) a)
  sp : m'.sp ≠ m.sp → (∃ addr, i = .call addr) ∨ i = .ret
  /-- The slot behind the latest open call. -/
  slot : ∀ (k : Nat) (_ : k < 16), m'.stack[k] ≠ m.stack[k] →
    (∃ addr, i = .call addr) ∧ k = m.sp.toNat + 1
  delay : m'.delay ≠ m.delay → ∃ x, i = .setDelay x
  sound : m'.sound ≠ m.sound → ∃ x, i = .setSound x
  grid : m'.grid ≠ m.grid → i = .clearScreen ∨ ∃ x y rows, i = .draw x y rows
  random : m'.random ≠ m.random → ∃ x nn, i = .random x nn
  loadOffset : m'.loadOffset = m.loadOffset
  runState : m'.runState = m.runState

namespace Machine

variable {m m' : Machine} {key : Option UInt8} {i : Instruction}

theorem eq_of_reg_setReg_ne {x r : Register} {b : UInt8} (h : (m.setReg x b).reg r ≠ m.reg r) :
    r = x := by
  by_cases hx : x = r
  · exact hx.symm
  · rw [reg_setReg, if_neg hx] at h
    exact absurd rfl h

theorem Writes.reg_ne (h : m.Writes key i m') {r : Register} (hne : m'.reg r ≠ m.reg r) :
    i.Sets key r ∨ (r = flagRegister ∧ i.SetsFlag) := by
  cases h with
  | register b pc hs =>
    obtain rfl := eq_of_reg_setReg_ne hne
    exact .inl hs
  | @flagged _ x flag b pc hs hf =>
    by_cases hx : r = x
    · exact .inl (hx ▸ hs)
    · have hflag : (m.setReg flagRegister flag).reg r ≠ m.reg r := by
        intro he
        apply hne
        exact (reg_setReg _ _ _ _).trans ((if_neg (Ne.symm hx)).trans he)
      exact .inr ⟨eq_of_reg_setReg_ne hflag, hf⟩
  | registers v pc hv => exact .inl (hv r hne)
  | drawing grid flag pc => exact .inr ⟨eq_of_reg_setReg_ne hne, trivial⟩
  | random random b pc => exact .inl (eq_of_reg_setReg_ne hne)
  | _ => exact absurd rfl hne

theorem Writes.memory_ne (h : m.Writes key i m') {a : UInt16}
    (hne : m'.memory.get a ≠ m.memory.get a) :
    (∃ x, i = .bcd x ∧ Memory.Covers m.i 3 a) ∨
      (∃ x, i = .store x ∧ Memory.Covers m.i (x.val + 1) a) := by
  cases h with
  | bytes pc =>
    have hlen := Nat.le_trans (i.length_stored_le m) (by decide : 16 ≤ 4096)
    have hcovers := Memory.covers_of_get_setBlock_ne hlen hne
    cases i with
    | bcd x => exact .inl ⟨x, rfl, hcovers⟩
    | store x =>
      rw [Instruction.length_stored_store] at hcovers
      exact .inr ⟨x, rfl, hcovers⟩
    | _ => exact absurd rfl hne
  | _ => exact absurd rfl hne

theorem Writes.slot_ne (h : m.Writes key i m') {k : Nat} (hk : k < 16)
    (hne : m'.stack[k] ≠ m.stack[k]) : (∃ addr, i = .call addr) ∧ k = m.sp.toNat + 1 := by
  cases h with
  | @call addr hlt =>
    refine ⟨⟨addr, rfl⟩, ?_⟩
    by_cases hsp : m.sp.toNat + 1 = k
    · exact hsp.symm
    · exact absurd (Vector.getElem_set_ne hlt hk hsp) hne
  | _ => exact absurd rfl hne

/-- An instruction that writes no more than is listed keeps to its footprint. -/
theorem Writes.footprint (h : m.Writes key i m') : Footprint key i m m' where
  reg _ := h.reg_ne
  index hne := by
    cases h with
    | index a pc hi => exact hi
    | _ => exact absurd rfl hne
  memory _ := h.memory_ne
  sp hne := by
    cases h with
    | @call addr => exact .inl ⟨addr, rfl⟩
    | ret => exact .inr rfl
    | _ => exact absurd rfl hne
  slot _ hk := h.slot_ne hk
  delay hne := by
    cases h with
    | @delay x => exact ⟨x, rfl⟩
    | _ => exact absurd rfl hne
  sound hne := by
    cases h with
    | @sound x => exact ⟨x, rfl⟩
    | _ => exact absurd rfl hne
  grid hne := by
    cases h with
    | blank => exact .inl rfl
    | @drawing x y rows => exact .inr ⟨x, y, rows, rfl⟩
    | _ => exact absurd rfl hne
  random hne := by
    cases h with
    | @random x nn => exact ⟨x, nn, rfl⟩
    | _ => exact absurd rfl hne
  loadOffset := by cases h <;> rfl
  runState := by cases h <;> rfl

end Machine

namespace Computer

variable {ε : Type}

/-- An instruction that succeeds changes nothing outside its footprint. -/
theorem performs_footprint (host : Host ε) (c c' : Computer ε) (i : Instruction)
    (h : c.perform host (c.machine.execute i) = (.ok (), c')) :
    Footprint (host.held c.outside) i c.machine c'.machine :=
  (Machine.writes_of_finish? (finish?_of_perform h)).footprint

/-- A fresh machine with the index register two places before the end of the addresses and a seven
in each general register. -/
def atTheEnd : Computer Bench :=
  let c := onBench .null
  { c with machine := { c.machine with i := 0xFFFE, v := Vector.replicate 16 7 } }

/-- Four registers are stored over the end of memory: the font changes, and the flag does not. -/
theorem performs_footprint_atTheEnd :
    ∃ c', atTheEnd.perform Bench.host (atTheEnd.machine.execute (.store 3)) = (.ok (), c') ∧
      c'.machine.memory.get 0 = 7 ∧ atTheEnd.machine.memory.get 0 = 0xF0 ∧
      Footprint none (.store 3) atTheEnd.machine c'.machine := by
  refine ⟨_, rfl, by decide +kernel, by decide +kernel, ?_⟩
  exact performs_footprint Bench.host atTheEnd _ (.store 3) rfl

end Computer

end Chip8
