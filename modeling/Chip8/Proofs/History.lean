import Chip8.Proofs.Step

/-! # Histories

What a computer goes through while it is called. A history lists the instructions that have been
executed, and lets everything else happen between them: failing steps, the timers, loads, changes of
the outside. Steps, cycles and whole runs all lead along histories, so what every history keeps is
kept by every call. -/

namespace Chip8.Computer

variable {ε : Type} {host : Host ε} {c c₁ c₂ : Computer ε} {log : List (Machine × Instruction)}

/-- The instruction at the program counter of `c` is `i`, and executing it succeeds and leads to
`c'`. -/
def Executes (host : Host ε) (c : Computer ε) (i : Instruction) (c' : Computer ε) : Prop :=
  Instruction.decode c.machine.fetch = .ok i ∧ c.step host = (.ok (), c')

theorem executes_of_step {i : Instruction} (hi : Instruction.decode c.machine.fetch = .ok i)
    (h : (c.step host).1 = .ok ()) : c.Executes host i (c.step host).2 :=
  ⟨hi, Prod.ext h rfl⟩

/-- What can happen to a computer other than that an instruction is executed. -/
inductive Idle (host : Host ε) (c : Computer ε) : Computer ε → Prop
  | failed {e : Error} {c' : Computer ε} : c.step host = (.error (.error e), c') → Idle host c c'
  | countDown : Idle host c (c.countDown host).2
  | load (source : Source) : Idle host c (c.load source).2
  /-- The outside may change by itself. -/
  | outside (outside : ε) : Idle host c { c with outside }
  | runState (s : RunState) : Idle host c (c.setRunState s)

/-- From `c` on the instructions in `log` have been executed, the latest first and each with the
machine that it found. -/
inductive History (host : Host ε) (c : Computer ε) :
    List (Machine × Instruction) → Computer ε → Prop
  | start : History host c [] c
  | executed {log : List (Machine × Instruction)} {i : Instruction} {c₁ c₂ : Computer ε} :
      History host c log c₁ → c₁.Executes host i c₂ → History host c ((c₁.machine, i) :: log) c₂
  | idle {log : List (Machine × Instruction)} {c₁ c₂ : Computer ε} :
      History host c log c₁ → c₁.Idle host c₂ → History host c log c₂

theorem History.trans {log' : List (Machine × Instruction)} (h : History host c log c₁)
    (h' : History host c₁ log' c₂) : History host c (log' ++ log) c₂ := by
  induction h' with
  | start => exact h
  | executed _ hx ih => exact .executed ih hx
  | idle _ hi ih => exact .idle ih hi

/-- A property of machines that instructions and idle moves keep is kept by histories. -/
theorem History.keeps {P : Machine → Prop}
    (hx : ∀ {c₁ c₂ : Computer ε} {i}, c₁.Executes host i c₂ → P c₁.machine → P c₂.machine)
    (hi : ∀ {c₁ c₂ : Computer ε}, c₁.Idle host c₂ → P c₁.machine → P c₂.machine)
    (h : History host c log c₁) (hc : P c.machine) : P c₁.machine := by
  induction h with
  | start => exact hc
  | executed _ hx' ih => exact hx hx' ih
  | idle _ hi' ih => exact hi hi' ih

/-! ## Calls lead along histories

A call that faults is broken off and leads nowhere. -/

theorem step_history {result : Except Halt Unit} {c' : Computer ε}
    (h : c.step host = (result, c')) (hf : result ≠ .error .fault) :
    ∃ log, History host c log c' := by
  rcases result with (e | _) | _
  · exact ⟨_, .idle .start (.failed h)⟩
  · exact absurd rfl hf
  · cases hd : Instruction.decode c.machine.fetch with
    | error e =>
      rw [step_of_unknown hd] at h
      cases h
    | ok i => exact ⟨_, .executed .start ⟨hd, h⟩⟩

theorem cycle_history {result : Except Halt UInt16} {c' : Computer ε}
    (h : c.cycle host = (result, c')) (hf : result ≠ .error .fault) :
    ∃ log, History host c log c' := by
  obtain ⟨halt, c₁, hs, hc⟩ | ⟨c₁, d, outside, hs, _, _, hc⟩ | ⟨c₁, c₂, hs, hd, hc⟩ :=
    cycle_cases host c
  · cases h.symm.trans hc
    exact step_history hs fun he ↦ hf (by cases he; rfl)
  · cases h.symm.trans hc
    obtain ⟨log, hh⟩ := step_history hs nofun
    exact ⟨log, hh.idle (.outside outside)⟩
  · cases h.symm.trans hc
    obtain ⟨log, hh⟩ := step_history hs nofun
    have hidle : c₁.Idle host (c₁.countDown host).2 := .countDown
    rw [hd] at hidle
    exact ⟨log, hh.idle hidle⟩

theorem cycled_history {pace : Pace ε} {result : Except Halt UInt16} {c' : Computer ε}
    (h : (c.ticked pace).cycle host = (result, c')) (hf : result ≠ .error .fault) :
    ∃ log, History host c log c' := by
  obtain ⟨log, hh⟩ := cycle_history h hf
  exact ⟨_, (History.idle .start (.outside (pace.tick c.outside))).trans hh⟩

theorem loop_history {pace : Pace ε} {limit : Nat} {result : Except Halt Unit} {c' : Computer ε}
    (h : c.loop host pace limit = some (result, c')) (hf : result ≠ .error .fault) :
    ∃ log, History host c log c' := by
  induction limit generalizing c with
  | zero => cases h
  | succ limit ih =>
    rw [loop] at h
    obtain ⟨_, ht⟩ | ⟨_, word, c₁, hc, ht⟩ | ⟨_, halt, c₁, hc, ht⟩ := turn_cases host pace c
    · rw [ht] at h
      cases h
      exact ⟨[], .idle .start (.outside (pace.tick c.outside))⟩
    · rw [ht] at h
      obtain ⟨_, hh⟩ := cycled_history hc nofun
      obtain ⟨_, hh'⟩ := ih h
      exact ⟨_, hh.trans hh'⟩
    · rw [ht] at h
      cases h
      exact cycled_history hc fun he ↦ hf (by cases he; rfl)

theorem run_history {pace : Pace ε} {limit : Nat} {result : Except Halt Unit} {c' : Computer ε}
    (h : c.run host pace limit = some (result, c')) (hf : result ≠ .error .fault) :
    ∃ log, History host c log c' := by
  obtain ⟨⟨result, c₁⟩, hl, he⟩ := Option.map_eq_some_iff.1 h
  cases he
  obtain ⟨_, hh⟩ := loop_history hl hf
  have hsettle : settle result c₁ = c₁.setRunState .stopped := by
    rcases result with (_ | _) | _
    · rfl
    · exact absurd rfl hf
    · rfl
  have hall := ((History.idle .start (.runState .running)).trans hh).idle (.runState .stopped)
  exact ⟨_, hsettle ▸ hall⟩

/-- A call on a computer. A run ends after so many turns at the latest. -/
inductive Call (ε : Type)
  | load (source : Source)
  | step
  | cycle
  | run (pace : Pace ε) (limit : Nat)

/-- What a call answers, where answers other than failures do not matter, and the computer that it
leaves; nothing while a run is not over. -/
def Call.make (host : Host ε) (c : Computer ε) :
    Call ε → Option (Except Halt Unit × Computer ε)
  | .load source => some (((c.load source).1.mapError .error).map fun _ ↦ (), (c.load source).2)
  | .step => some (c.step host)
  | .cycle => some ((c.cycle host).1.map fun _ ↦ (), (c.cycle host).2)
  | .run pace limit => c.run host pace limit

theorem make_history {call : Call ε} {result : Except Halt Unit} {c' : Computer ε}
    (h : call.make host c = some (result, c')) (hf : result ≠ .error .fault) :
    ∃ log, History host c log c' := by
  cases call with
  | load source =>
    cases h
    exact ⟨[], .idle .start (.load source)⟩
  | step => exact step_history (Option.some.inj h) hf
  | cycle =>
    cases h
    have hc : c.cycle host = ((c.cycle host).1, (c.cycle host).2) := rfl
    exact cycle_history hc fun he ↦ hf (by rw [he]; rfl)
  | run pace limit => exact run_history h hf

/-- The computers that calls lead to, whatever the outside does between them. -/
inductive Reaches (host : Host ε) (c : Computer ε) : Computer ε → Prop
  | refl : Reaches host c c
  | call {result : Except Halt Unit} {c₁ c₂ : Computer ε} (call : Call ε) :
      Reaches host c c₁ → call.make host c₁ = some (result, c₂) → Reaches host c c₂
  | outside {c₁ : Computer ε} (outside : ε) :
      Reaches host c c₁ → Reaches host c { c₁ with outside }

end Chip8.Computer
