import Chip8.Proofs.Coherence
import Chip8.Proofs.Patterns
import Mathlib.Logic.Basic

/-! # The program counter

Where a step leads. A jump and a call lead to the address in their word, a return behind the call it
closes, a skip over the next word if its condition holds, and all else leads to the next word,
except for a wait without a key, which stays. Sums of addresses are those of sixteen bits. -/

namespace Chip8

namespace Instruction

/-- Whether an instruction skips the next word where `key` is held. -/
def skips (m : Machine) (key : Option UInt8) : Instruction → Bool
  | .skipEqImm x nn => m.reg x == nn
  | .skipNeImm x nn => m.reg x != nn
  | .skipEqReg x y => m.reg x == m.reg y
  | .skipNeReg x y => m.reg x != m.reg y
  | .skipPressed x => key == some (m.reg x)
  | .skipNotPressed x => key != some (m.reg x)
  | _ => false

/-- An instruction leads to `pc` where `key` is held. -/
def LeadsTo (m : Machine) (key : Option UInt8) (pc : UInt16) : Instruction → Prop
  | .jump addr | .call addr => pc = addr
  | .jumpOffset addr => pc = addr + (m.reg 0).toUInt16
  | .ret => ∃ _ : m.sp.toNat < 16, pc = m.stack[m.sp.toNat] + 2
  | .waitKey _ => pc = if key = none then m.pc else m.pc + 2
  | i => pc = m.pc + if i.skips m key then 4 else 2

end Instruction

namespace Machine

variable {m m' : Machine} {key : Option UInt8} {i : Instruction}

/-- All instructions that are finished leave the program counter where they lead. -/
theorem leadsTo_of_finish? (h : (m.execute i).finish? key = some m') : i.LeadsTo m key m'.pc := by
  cases i with
  | ret =>
    rw [execute] at h
    obtain ⟨_, hr⟩ | ⟨_, hlt, hr⟩ | ⟨_, hr⟩ := m.ret_cases
    · rw [hr] at h
      cases h
    · rw [hr] at h
      cases h
      exact ⟨hlt, rfl⟩
    · rw [hr] at h
      cases h
  | call addr =>
    rw [execute] at h
    obtain ⟨_, hc⟩ | ⟨_, hc⟩ | ⟨_, _, hc⟩ := m.call_cases addr
    · rw [hc] at h
      cases h
    · rw [hc] at h
      cases h
      exact rfl
    · rw [hc] at h
      cases h
  | draw x y rows =>
    obtain ⟨_, _, _, hd⟩ := m.draw_cases x y rows
    rw [execute, hd] at h
    cases h
    exact rfl
  | skipEqImm | skipNeImm | skipEqReg | skipNeReg | skipPressed | skipNotPressed =>
    cases h
    exact m.pc_skipIf _
  | waitKey x =>
    cases h
    cases key <;> rfl
  | _ =>
    cases h
    exact rfl

end Machine

open Instruction Fields Pattern

/-- The word at the program counter is that of a skip, and its condition holds where `key`
is held. -/
inductive Skips (key : Option UInt8) (m : Machine) : Prop
  | eqImm : covers "3XNN" m.fetch → m.reg (x m.fetch) = nn m.fetch → Skips key m
  | neImm : covers "4XNN" m.fetch → m.reg (x m.fetch) ≠ nn m.fetch → Skips key m
  | eqReg : covers "5XY_" m.fetch → m.reg (x m.fetch) = m.reg (y m.fetch) → Skips key m
  | neReg : covers "9XY0" m.fetch → m.reg (x m.fetch) ≠ m.reg (y m.fetch) → Skips key m
  /-- The register counts as a whole byte. -/
  | pressed : covers "EX9E" m.fetch → key = some (m.reg (x m.fetch)) → Skips key m
  /-- No key is held, or it is another one. -/
  | notPressed : covers "EXA1" m.fetch → key ≠ some (m.reg (x m.fetch)) → Skips key m

/-- A step from `m` that succeeds while `key` is held leaves `m'` at the word to which it leads. -/
structure Continues (key : Option UInt8) (m m' : Machine) : Prop where
  jump : covers "1NNN" m.fetch ∨ covers "2NNN" m.fetch → m'.pc = nnn m.fetch
  /-- The sum is taken of numbers: it is not cut to twelve bits, and needs no more than sixteen. -/
  jumpOffset : covers "BNNN" m.fetch → m'.pc.toNat = (nnn m.fetch).toNat + (m.reg 0).toNat
  ret : covers "00EE" m.fetch → ∃ _ : m.sp.toNat < 16, m'.pc = m.stack[m.sp.toNat] + 2
  wait : covers "FX0A" m.fetch → m'.pc = if key = none then m.pc else m.pc + 2
  skip : Skips key m → m'.pc = m.pc + 4
  others : (∀ pattern ∈ ["00EE", "1NNN", "2NNN", "BNNN", "FX0A"], ¬ covers pattern m.fetch) →
    ¬ Skips key m → m'.pc = m.pc + 2

theorem skips_iff {m : Machine} {key : Option UInt8} {i : Instruction}
    (hi : decode? m.fetch = some i) : i.skips m key = true ↔ Skips key m := by
  constructor
  · intro h
    obtain ⟨hc, hr⟩ := covers_of_decode? hi
    cases i with
    | skipEqImm _ _ =>
      obtain ⟨rfl, rfl⟩ := hr
      exact .eqImm hc (beq_iff_eq.1 h)
    | skipNeImm _ _ =>
      obtain ⟨rfl, rfl⟩ := hr
      exact .neImm hc (bne_iff_ne.1 h)
    | skipEqReg _ _ =>
      obtain ⟨rfl, rfl⟩ := hr
      exact .eqReg hc (beq_iff_eq.1 h)
    | skipNeReg _ _ =>
      obtain ⟨rfl, rfl⟩ := hr
      exact .neReg hc (bne_iff_ne.1 h)
    | skipPressed _ =>
      obtain rfl := hr
      exact .pressed hc (beq_iff_eq.1 h)
    | skipNotPressed _ =>
      obtain rfl := hr
      exact .notPressed hc (bne_iff_ne.1 h)
    | _ => cases h
  · intro h
    cases h with
    | eqImm hc h =>
      cases hi.symm.trans (decode?_of_covers (i := .skipEqImm _ _) hc ⟨rfl, rfl⟩)
      exact beq_iff_eq.2 h
    | neImm hc h =>
      cases hi.symm.trans (decode?_of_covers (i := .skipNeImm _ _) hc ⟨rfl, rfl⟩)
      exact bne_iff_ne.2 h
    | eqReg hc h =>
      cases hi.symm.trans (decode?_of_covers (i := .skipEqReg _ _) hc ⟨rfl, rfl⟩)
      exact beq_iff_eq.2 h
    | neReg hc h =>
      cases hi.symm.trans (decode?_of_covers (i := .skipNeReg _ _) hc ⟨rfl, rfl⟩)
      exact bne_iff_ne.2 h
    | pressed hc h =>
      cases hi.symm.trans (decode?_of_covers (i := .skipPressed _) hc rfl)
      exact beq_iff_eq.2 h
    | notPressed hc h =>
      cases hi.symm.trans (decode?_of_covers (i := .skipNotPressed _) hc rfl)
      exact bne_iff_ne.2 h

/-- An address with a byte added to it has at most sixteen bits. -/
theorem toNat_nnn_add (w : UInt16) (b : UInt8) :
    (nnn w + b.toUInt16).toNat = (nnn w).toNat + b.toNat := by
  have hb := b.toNat_lt
  have hw : (nnn w).toNat < 4096 := by
    rw [nnn_toNat]
    exact Nat.mod_lt _ (by decide)
  rw [UInt16.toNat_add, UInt8.toNat_toUInt16]
  omega

/-- Where an instruction leads, told by the word that it was decoded from. -/
theorem Instruction.LeadsTo.continues {key : Option UInt8} {m m' : Machine} {i : Instruction}
    (h : i.LeadsTo m key m'.pc) (hi : decode? m.fetch = some i) : Continues key m m' where
  jump := by
    rintro (hc | hc)
    · cases hi.symm.trans (decode?_of_covers (i := .jump _) hc rfl)
      exact h
    · cases hi.symm.trans (decode?_of_covers (i := .call _) hc rfl)
      exact h
  jumpOffset hc := by
    cases hi.symm.trans (decode?_of_covers (i := .jumpOffset _) hc rfl)
    have hpc : m'.pc = nnn m.fetch + (m.reg 0).toUInt16 := h
    rw [hpc, toNat_nnn_add]
  ret hc := by
    cases hi.symm.trans (decode?_of_covers (i := .ret) hc trivial)
    exact h
  wait hc := by
    cases hi.symm.trans (decode?_of_covers (i := .waitKey _) hc rfl)
    exact h
  skip hs := by
    have hskips := (skips_iff hi).2 hs
    cases i with
    | skipEqImm | skipNeImm | skipEqReg | skipNeReg | skipPressed | skipNotPressed =>
      have hpc : m'.pc = m.pc + if skips m key _ then 4 else 2 := h
      rw [hpc, if_pos hskips]
    | _ => cases hskips
  others hother hs := by
    have hskips := mt (skips_iff hi).1 hs
    have hcovers := (covers_of_decode? hi).1
    simp only [List.forall_mem_cons] at hother
    obtain ⟨hret, hjump, hcall, hoffset, hwait, _⟩ := hother
    cases i with
    | ret => exact absurd hcovers hret
    | jump => exact absurd hcovers hjump
    | call => exact absurd hcovers hcall
    | jumpOffset => exact absurd hcovers hoffset
    | waitKey => exact absurd hcovers hwait
    | _ =>
      have hpc : m'.pc = m.pc + if skips m key _ then 4 else 2 := h
      rw [hpc, if_neg hskips]

namespace Computer

variable {ε : Type} {host : Host ε} {c c' : Computer ε}

theorem decode?_of_step (h : c.step host = (.ok (), c')) :
    ∃ i, decode? c.machine.fetch = some i := by
  cases hd : decode? c.machine.fetch with
  | none =>
    rw [step_of_unknown (decode_eq_error_iff.2 ⟨hd, rfl⟩)] at h
    cases h
  | some i => exact ⟨i, rfl⟩

theorem step_leadsTo {i : Instruction} (hi : decode? c.machine.fetch = some i)
    (h : c.step host = (.ok (), c')) :
    i.LeadsTo c.machine (host.held c.outside) c'.machine.pc := by
  rw [step_of_decode (decode_eq_ok_iff.2 hi)] at h
  exact Machine.leadsTo_of_finish? (finish?_of_perform h)

/-! ## Checks of a key -/

/-- A check of a key succeeds where the keypad has an answer for it. -/
theorem step_of_asking {i : Instruction} {resume : Option UInt8 → Machine}
    (hi : decode? c.machine.fetch = some i) (hx : c.machine.execute i = .asking resume)
    (hkey : (host.key c.outside).1 = .error .noKey ∨ ∃ key, (host.key c.outside).1 = .ok key) :
    c.step host = (.ok (), ⟨resume (host.held c.outside), (host.key c.outside).2⟩) := by
  rw [step_of_decode (decode_eq_ok_iff.2 hi), hx, perform_asking, Host.held]
  obtain hnone | ⟨key, hsome⟩ := hkey
  · rw [hnone]
    rfl
  · rw [hsome]
    rfl

/-- A step that succeeds leads where its word says, whatever that is. Of the two checks of a key
exactly one skips, on the same machine and with the same answer of the keypad. -/
theorem steps_continue (host : Host ε) (c : Computer ε) :
    (∀ c', c.step host = (.ok (), c') → Continues (host.held c.outside) c.machine c'.machine) ∧
    ∀ memory : Memory, covers "EX9E" c.machine.fetch →
      covers "EXA1" (c.withMemory memory).machine.fetch →
      x (c.withMemory memory).machine.fetch = x c.machine.fetch →
      ((host.key c.outside).1 = .error .noKey ∨ ∃ key, (host.key c.outside).1 = .ok key) →
      ∃ c₁ c₂, c.step host = (.ok (), c₁) ∧ (c.withMemory memory).step host = (.ok (), c₂) ∧
        ((c₁.machine.pc = c.machine.pc + 4 ∧ c₂.machine.pc = c.machine.pc + 2) ∨
          (c₁.machine.pc = c.machine.pc + 2 ∧ c₂.machine.pc = c.machine.pc + 4)) := by
  constructor
  · intro c' h
    obtain ⟨i, hi⟩ := decode?_of_step h
    exact (step_leadsTo hi h).continues hi
  · intro memory hpressed hnot hx hkey
    have hi₁ := decode?_of_covers (i := .skipPressed _) hpressed rfl
    have hi₂ := decode?_of_covers (i := .skipNotPressed _) hnot rfl
    refine ⟨_, _, step_of_asking hi₁ rfl hkey, step_of_asking hi₂ rfl hkey, ?_⟩
    rw [Machine.pc_skipIf, Machine.pc_skipIf, hx]
    by_cases hheld : host.held c.outside = some (c.machine.reg (x c.machine.fetch))
    · refine .inl ⟨?_, ?_⟩
      · exact congrArg (c.machine.pc + ·) (if_pos (beq_iff_eq.2 hheld))
      · exact congrArg (c.machine.pc + ·) (if_neg fun h ↦ bne_iff_ne.1 h hheld)
    · refine .inr ⟨?_, ?_⟩
      · exact congrArg (c.machine.pc + ·) (if_neg fun h ↦ hheld (beq_iff_eq.1 h))
      · exact congrArg (c.machine.pc + ·) (if_pos (bne_iff_ne.2 hheld))

/-- The words `BFFF E09E` with all registers at their greatest, before the second of them if
`checking`, and with a key that is no key of the keypad. -/
def farAway (checking : Bool) : Computer Bench :=
  let c := ((onBench (.replies [.ok 0xFF])).load (.ofBytes [0xBF, 0xFF, 0xE0, 0x9E])).2
  { c with machine := { c.machine with
    v := Vector.replicate 16 0xFF
    pc := if checking then 0x202 else 0x200 } }

/-- The jump leads beyond the twelve bits of an address; the key is told from the whole register, so
that one check skips and the other, in another memory, does not. -/
theorem steps_continue_farAway :
    (∃ c', (farAway false).step Bench.host = (.ok (), c') ∧ c'.machine.pc.toNat = 0xFFF + 0xFF) ∧
      ∃ c₁ c₂, (farAway true).step Bench.host = (.ok (), c₁) ∧
        ((farAway true).withMemory ((farAway true).machine.memory.set 0x203 0xA1)).step Bench.host =
          (.ok (), c₂) ∧
        c₁.machine.pc = 0x206 ∧ c₂.machine.pc = 0x204 := by
  constructor
  · have hi : decode (farAway false).machine.fetch = .ok (.jumpOffset 0xFFF) :=
      decode_eq_ok_iff.2 (by decide +kernel)
    have hstep : ∃ c', (farAway false).step Bench.host = (.ok (), c') := by
      rw [step_of_decode hi]
      exact ⟨_, rfl⟩
    obtain ⟨c', hc⟩ := hstep
    refine ⟨c', hc, ?_⟩
    rw [((steps_continue Bench.host (farAway false)).1 c' hc).jumpOffset (by decide +kernel)]
    decide +kernel
  · obtain ⟨c₁, c₂, h₁, h₂, ⟨hskips, hnot⟩ | ⟨hnot, _⟩⟩ :=
      (steps_continue Bench.host (farAway true)).2
        ((farAway true).machine.memory.set 0x203 0xA1) (by decide +kernel) (by decide +kernel)
        (by decide +kernel) (.inr ⟨0xFF, rfl⟩)
    · exact ⟨c₁, c₂, h₁, h₂, hskips, hnot⟩
    · have hskips := ((steps_continue Bench.host (farAway true)).1 c₁ h₁).skip
        (.pressed (by decide +kernel) (by decide +kernel))
      exact absurd (hskips.symm.trans hnot) (by decide)

end Computer

end Chip8
