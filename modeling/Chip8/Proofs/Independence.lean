import Chip8.Proofs.Failure
import Chip8.Proofs.Trace
import Mathlib.Control.Monad.Basic

/-! # Independence of display and speaker

A machine never learns what becomes of its frames and its cues. Two computers with the same machine
and with keypads that answer the same go through the same, whatever their displays and speakers are,
as long as none of these fails. One that fails breaks a cycle off, and the machine is then the one
that the step of the other computer leaves. -/

namespace Chip8

variable {ε δ : Type}

/-- The keypads of two hosts give the same answers where `R` relates what is outside, and queries,
drawings and cues on both sides keep `R`. Nothing is said of the displays and the speakers. -/
structure Host.SameKeys (host : Host ε) (other : Host δ) (R : ε → δ → Prop) : Prop where
  answer {e : ε} {d : δ} : R e d → (host.key e).1 = (other.key d).1
  key {e : ε} {d : δ} : R e d → R (host.key e).2 (other.key d).2
  draw (grid : Grid) {e : ε} {d : δ} : R e d → R (host.draw grid e).2 (other.draw grid d).2
  cue {e : ε} {d : δ} : R e d → R (host.cue e).2 (other.cue d).2

theorem Host.SameKeys.symm {host : Host ε} {other : Host δ} {R : ε → δ → Prop}
    (hk : host.SameKeys other R) : other.SameKeys host (flip R) where
  answer h := (hk.answer h).symm
  key h := hk.key h
  draw grid _ _ h := hk.draw grid h
  cue h := hk.cue h

namespace Computer

open Instruction

variable {host : Host ε} {other : Host δ} {R : ε → δ → Prop} {c : Computer ε} {d : Computer δ}

/-! ## Failing devices -/

/-- The display does not take the grid that the next instruction draws. -/
def DisplayFails (host : Host ε) (c : Computer ε) : Prop :=
  ∃ grid e, c.stepRequests host = [.draw grid] ∧ (host.draw grid c.outside).1 = .error e

/-- The next instruction succeeds, and the cue that is due behind it fails. -/
def SpeakerFails (host : Host ε) (c : Computer ε) : Prop :=
  ∃ c₁ e, c.step host = (.ok (), c₁) ∧ c₁.timerRequests = [.cue] ∧
    (host.cue c₁.outside).1 = .error e

/-- A call of the display or of the speaker fails in the next cycle. -/
def DeviceFails (host : Host ε) (c : Computer ε) : Prop := DisplayFails host c ∨ SpeakerFails host c

/-- A step that draws ends as the display answers. -/
theorem step_of_stepRequests_draw {grid : Grid} (h : c.stepRequests host = [.draw grid]) :
    (c.step host).1 = (host.draw grid c.outside).1.mapError fun e ↦ .error (.display e) := by
  cases hi : decode? c.machine.fetch with
  | none =>
    rw [stepRequests, hi] at h
    cases h
  | some i => cases i with
    | draw x y rows =>
      obtain ⟨_, _, _, hd⟩ := c.machine.draw_cases x y rows
      have hdrawn := stepRequests_draw host hi
      rw [step_of_decode (decode_eq_ok_iff.2 hi), Machine.execute, hd, perform_drawn] at hdrawn ⊢
      cases h.symm.trans hdrawn
      rfl
    | _ =>
      rw [stepRequests, hi] at h
      cases h

theorem stepRequests_of_drawn {i : Instruction} {m : Machine}
    (hi : decode c.machine.fetch = .ok i) (hx : c.machine.execute i = .drawn m) :
    c.stepRequests host = [.draw m.grid] := by
  simp only [stepRequests, decode_eq_ok_iff.1 hi, ← Machine.requests_execute, hx, Effect.requests]

theorem draw_of_not_displayFails {grid : Grid} (h : ¬ DisplayFails host c)
    (hr : c.stepRequests host = [.draw grid]) : (host.draw grid c.outside).1 = .ok () := by
  rcases he : (host.draw grid c.outside).1 with e | _
  · exact absurd ⟨grid, e, hr, he⟩ h
  · rfl

theorem sound_of_timerRequests (h : c.timerRequests = [.cue]) : c.machine.sound = 1 := by
  rw [timerRequests] at h
  split at h
  · next hone => exact hone
  · cases h

/-- A display that fails breaks the cycle off with its step. -/
theorem DisplayFails.cycle_eq (h : DisplayFails host c) : ∃ e c₁,
    c.step host = (.error (.error (.display e)), c₁) ∧
      c.cycle host = (.error (.error (.display e)), c₁) := by
  obtain ⟨grid, e, hr, he⟩ := h
  have hs : c.step host = (.error (.error (.display e)), (c.step host).2) := by
    refine Prod.ext ?_ rfl
    rw [step_of_stepRequests_draw hr, he]
    rfl
  exact ⟨e, _, hs, by rw [cycle, hs]⟩

/-- A speaker that fails breaks the cycle off behind its step. -/
theorem SpeakerFails.cycle_eq (h : SpeakerFails host c) : ∃ e c₁ outside,
    c.step host = (.ok (), c₁) ∧
      c.cycle host = (.error (.error (.sound e)), { c₁ with outside }) := by
  obtain ⟨c₁, e, hs, hr, he⟩ := h
  have hone := sound_of_timerRequests hr
  obtain ⟨hne, _⟩ | ⟨_, _, hq, _⟩ | ⟨_, e, outside, _, hd⟩ := countDown_cases host c₁
  · exact absurd hone hne
  · rw [hq] at he
    cases he
  · exact ⟨e, c₁, outside, hs, by simp only [cycle, hs, hd]⟩

/-- Where a device fails, the timers are not reached. -/
theorem DeviceFails.machine_cycle (h : DeviceFails host c) :
    (c.cycle host).2.machine = (c.step host).2.machine := by
  obtain hdisplay | hspeaker := h
  · obtain ⟨_, _, hs, hc⟩ := hdisplay.cycle_eq
    rw [hc, hs]
  · obtain ⟨_, _, _, hs, hc⟩ := hspeaker.cycle_eq
    rw [hc, hs]

/-- A cycle tells of a device that fails, and only then. -/
theorem deviceFails_iff : DeviceFails host c ↔
    ∃ e, (c.cycle host).1 = .error (.error (.display e)) ∨
      (c.cycle host).1 = .error (.error (.sound e)) := by
  constructor
  · rintro (hdisplay | hspeaker)
    · obtain ⟨e, _, _, hc⟩ := hdisplay.cycle_eq
      exact ⟨e, .inl (by rw [hc])⟩
    · obtain ⟨e, _, _, _, hc⟩ := hspeaker.cycle_eq
      exact ⟨e, .inr (by rw [hc])⟩
  · rintro ⟨e, he⟩
    obtain ⟨halt, c₁, hs, hc⟩ | ⟨c₁, d, _, hs, hone, hq, _⟩ | ⟨_, _, _, _, hc⟩ :=
      cycle_cases host c
    · rw [hc] at he
      obtain ⟨failure, rfl⟩ : ∃ failure, halt = .error failure := by
        obtain he | he := he <;> exact ⟨_, Except.error.inj he⟩
      cases step_failure hs with
      | unknown hd =>
        obtain ⟨_, rfl⟩ := decode_eq_error_iff.1 hd
        obtain he | he := he <;> cases he
      | overflow | underflow => obtain he | he := he <;> cases he
      | @keypad _ _ k => cases k <;> obtain he | he := he <;> cases he
      | display hi hx hd => exact .inl ⟨_, _, stepRequests_of_drawn hi hx, by rw [hd]⟩
    · exact .inr ⟨c₁, d, hs, if_pos hone, by rw [hq]⟩
    · rw [hc] at he
      obtain he | he := he <;> cases he

/-- Timers that no failing cue holds up count down. -/
theorem countDown_of_not_speakerFails {c₁ : Computer ε} (h : ¬ SpeakerFails host c)
    (hs : c.step host = (.ok (), c₁)) :
    ∃ outside, c₁.countDown host = (.ok (), ⟨c₁.machine.decayTimers, outside⟩) := by
  obtain ⟨_, hd⟩ | ⟨_, outside, _, hd⟩ | ⟨hone, e, _, hq, _⟩ := countDown_cases host c₁
  · exact ⟨_, hd⟩
  · exact ⟨outside, hd⟩
  · exact absurd ⟨c₁, e, hs, if_pos hone, by rw [hq]⟩ h

/-- The speaker is asked where the sound is about to end, and what it answers makes no difference
to the outside. -/
theorem countDown_outside (host : Host ε) (c : Computer ε) :
    (c.countDown host).2.outside =
      if c.machine.sound = 1 then (host.cue c.outside).2 else c.outside := by
  obtain ⟨hne, hd⟩ | ⟨hone, _, hq, hd⟩ | ⟨hone, _, _, hq, hd⟩ := countDown_cases host c
  · rw [hd, if_neg hne]
  · rw [hd, if_pos hone, hq]
  · rw [hd, if_pos hone, hq]

/-! ## Side by side -/

/-- The same machine, with keypads that answer the same from here on. -/
structure Beside (R : ε → δ → Prop) (c : Computer ε) (d : Computer δ) : Prop where
  machine : c.machine = d.machine
  outside : R c.outside d.outside

namespace Beside

/-- Whether or not a display fails, the drawing is done. -/
theorem perform (hk : host.SameKeys other R) (h : Beside R c d) (effect : Effect) :
    Beside R (c.perform host effect).2 (d.perform other effect).2 := by
  cases effect with
  | done m => exact ⟨rfl, h.outside⟩
  | refused e => exact h
  | fault m => exact ⟨rfl, h.outside⟩
  | drawn m =>
    rw [perform_drawn, perform_drawn]
    exact ⟨rfl, hk.draw m.grid h.outside⟩
  | asking resume =>
    rw [perform_asking, perform_asking, h.machine, hk.answer h.outside]
    exact ⟨rfl, hk.key h.outside⟩

theorem step (hk : host.SameKeys other R) (h : Beside R c d) :
    Beside R (c.step host).2 (d.step other).2 := by
  rw [Computer.step, Computer.step, h.machine]
  split
  · exact h
  · exact h.perform hk _

theorem stepRequests_eq (hk : host.SameKeys other R) (h : Beside R c d) :
    c.stepRequests host = d.stepRequests other := by
  rw [stepRequests, stepRequests, h.machine]
  cases decode? d.machine.fetch with
  | none => rfl
  | some i => cases i with
    | skipPressed | skipNotPressed | waitKey =>
      simp only [Instruction.requests, hk.answer h.outside]
    | _ => rfl

/-- Displays that do not fail make no difference to how a step ends. -/
theorem step_fst_eq (hk : host.SameKeys other R) (h : Beside R c d) (hc : ¬ DisplayFails host c)
    (hd : ¬ DisplayFails other d) : (c.step host).1 = (d.step other).1 := by
  rw [Computer.step, Computer.step, ← h.machine]
  cases hi : decode c.machine.fetch with
  | error e => rfl
  | ok i =>
    show (c.perform host _).1 = (d.perform other _).1
    cases hx : c.machine.execute i with
    | done | refused | fault => rfl
    | drawn m =>
      have hr : c.stepRequests host = [.draw m.grid] := stepRequests_of_drawn hi hx
      have hr' : d.stepRequests other = [.draw m.grid] := (h.stepRequests_eq hk).symm.trans hr
      rw [perform_drawn, perform_drawn, draw_of_not_displayFails hc hr,
        draw_of_not_displayFails hd hr']
    | asking resume =>
      rw [perform_asking, perform_asking, h.machine, hk.answer h.outside]

theorem countDown (hk : host.SameKeys other R) (h : Beside R c d) :
    R (c.countDown host).2.outside (d.countDown other).2.outside := by
  rw [countDown_outside, countDown_outside, h.machine]
  split
  · exact hk.cue h.outside
  · exact h.outside

/-- A cycle in which no device fails. -/
theorem cycle (hk : host.SameKeys other R) (h : Beside R c d) (hc : ¬ DeviceFails host c)
    (hd : ¬ DeviceFails other d) :
    Beside R (c.cycle host).2 (d.cycle other).2 ∧ (c.cycle host).1 = (d.cycle other).1 ∧
      c.requests host = d.requests other := by
  rw [DeviceFails, not_or] at hc hd
  have hstep := h.step hk
  have hresult := h.step_fst_eq hk hc.1 hd.1
  rw [requests, requests, h.stepRequests_eq hk, Computer.cycle, Computer.cycle, h.machine]
  rcases hs : c.step host with ⟨result, c₁⟩
  rcases ht : d.step other with ⟨result', d₁⟩
  rw [hs, ht] at hstep hresult
  obtain rfl : result = result' := hresult
  cases result with
  | error halt => exact ⟨hstep, rfl, rfl⟩
  | ok _ =>
    have hdown := hstep.countDown hk
    obtain ⟨_, hc₁⟩ := countDown_of_not_speakerFails hc.2 hs
    obtain ⟨_, hd₁⟩ := countDown_of_not_speakerFails hd.2 ht
    have htimers : c₁.timerRequests = d₁.timerRequests := by
      rw [timerRequests, timerRequests, hstep.machine]
    rw [hc₁, hd₁] at hdown
    simp only [hc₁, hd₁, htimers, and_true]
    exact ⟨congrArg Machine.decayTimers hstep.machine, hdown⟩

theorem cycles {n : Nat} (hk : host.SameKeys other R) (h : Beside R c d)
    (hc : ∀ k < n, ¬ DeviceFails host (cycles host k c))
    (hd : ∀ k < n, ¬ DeviceFails other (cycles other k d)) :
    Beside R (cycles host n c) (cycles other n d) := by
  induction n with
  | zero => exact h
  | succ n ih =>
    have hn := ih (fun k hlt ↦ hc k (Nat.lt_succ_of_lt hlt))
      (fun k hlt ↦ hd k (Nat.lt_succ_of_lt hlt))
    rw [cycles_succ, cycles_succ]
    exact (hn.cycle hk (hc n (Nat.lt_succ_self n)) (hd n (Nat.lt_succ_self n))).1

theorem symm (h : Beside R c d) : Beside (flip R) d c := ⟨h.machine.symm, h.outside⟩

end Beside

/-! ## Where one side fails -/

/-- A device of `host` has failed and none of `other`: the failing machine is left as the other one
stood between its step and its timers. -/
structure FallsBehind (host : Host ε) (other : Host δ) (c : Computer ε) (d : Computer δ) :
    Prop where
  left : (c.cycle host).2.machine = (d.step other).2.machine
  step : (d.step other).1 = .ok ()
  cycle : (d.cycle other).1 = .ok d.machine.fetch
  timers : (d.cycle other).2.machine = (d.step other).2.machine.decayTimers

theorem Beside.step_ok (hk : host.SameKeys other R) (h : Beside R c d) (hc : DeviceFails host c)
    (hd : ¬ DisplayFails other d) : (d.step other).1 = .ok () := by
  by_cases hshown : DisplayFails host c
  · obtain ⟨grid, _, hr, _⟩ := hshown
    have hr' : d.stepRequests other = [.draw grid] := (h.stepRequests_eq hk).symm.trans hr
    rw [step_of_stepRequests_draw hr', draw_of_not_displayFails hd hr']
    rfl
  · obtain ⟨c₁, _, hs, _⟩ := hc.resolve_left hshown
    rw [← h.step_fst_eq hk hshown hd, hs]

theorem Beside.fallsBehind (hk : host.SameKeys other R) (h : Beside R c d)
    (hc : DeviceFails host c) (hd : ¬ DeviceFails other d) : FallsBehind host other c d := by
  rw [DeviceFails, not_or] at hd
  have hok := h.step_ok hk hc hd.1
  have hleft := hc.machine_cycle.trans (h.step hk).machine
  obtain ⟨d₁, hs⟩ : ∃ d₁, d.step other = (.ok (), d₁) := ⟨_, Prod.ext hok rfl⟩
  obtain ⟨outside, hd₁⟩ := countDown_of_not_speakerFails hd.2 hs
  have hcycle : d.cycle other = (.ok d.machine.fetch, ⟨d₁.machine.decayTimers, outside⟩) := by
    simp only [Computer.cycle, hs, hd₁]
  exact ⟨hleft, hok, by rw [hcycle], by rw [hcycle, hs]⟩

/-! ## Display and speaker go unnoticed -/

/-- How two computers stand after `n` cycles each. -/
structure InStep (host : Host ε) (other : Host δ) (n : Nat) (c : Computer ε) (d : Computer δ) :
    Prop where
  machine : (cycles host n c).machine = (cycles other n d).machine
  /-- Every cycle has answered the same, an error included. -/
  result : ∀ k < n, ((cycles host k c).cycle host).1 = ((cycles other k d).cycle other).1
  /-- The same frames and cues have been offered, and the same keys answered in between. -/
  trace : trace host n c = trace other n d
  here : DeviceFails host (cycles host n c) → ¬ DeviceFails other (cycles other n d) →
    FallsBehind host other (cycles host n c) (cycles other n d)
  there : DeviceFails other (cycles other n d) → ¬ DeviceFails host (cycles host n c) →
    FallsBehind other host (cycles other n d) (cycles host n c)

/-- The machines of two computers go together for as long as no display and no speaker fails, and
where the first one fails they are no more than the timers apart. -/
theorem devices_unnoticed (hk : host.SameKeys other R) (hm : c.machine = d.machine)
    (ho : R c.outside d.outside) (n : Nat) (hc : ∀ k < n, ¬ DeviceFails host (cycles host k c))
    (hd : ∀ k < n, ¬ DeviceFails other (cycles other k d)) : InStep host other n c d := by
  have hbeside : ∀ k ≤ n, Beside R (cycles host k c) (cycles other k d) := fun k hle ↦
    Beside.cycles hk ⟨hm, ho⟩ (fun j hlt ↦ hc j (Nat.lt_of_lt_of_le hlt hle))
      (fun j hlt ↦ hd j (Nat.lt_of_lt_of_le hlt hle))
  have hcycle := fun k (hlt : k < n) ↦
    (hbeside k (Nat.le_of_lt hlt)).cycle hk (hc k hlt) (hd k hlt)
  have hn := hbeside n (Nat.le_refl n)
  refine ⟨hn.machine, fun k hlt ↦ (hcycle k hlt).2.1, ?_, hn.fallsBehind hk,
    hn.symm.fallsBehind hk.symm⟩
  rw [trace_eq, trace_eq, cyclesRequests, cyclesRequests, List.flatMap_def, List.flatMap_def]
  exact congrArg _ (List.map_congr_left fun k hmem ↦ (hcycle k (List.mem_range.1 hmem)).2.2)

/-- The program `D011 D011`, which draws a sprite twice, before one display or another. -/
def drawingTwice (display : Display) : Computer Bench :=
  let c := ((onBench .null).load (.ofBytes [0xD0, 0x11, 0xD0, 0x11])).2
  { c with outside := .ofDevices display .null (.mute 0) }

theorem bench_sameKeys :
    Bench.host.SameKeys Bench.host fun b b' ↦ b.keypad = b'.keypad where
  answer h := congrArg (fun pad ↦ pad.query.1) h
  key h := congrArg (fun pad ↦ pad.query.2) h
  draw _ _ _ h := h
  cue h := h

/-- A display that takes one frame only leaves the machine, with its second frame drawn, where the
step leaves it before a display that takes them all. -/
theorem devices_unnoticed_shownOnce :
    InStep Bench.host Bench.host 1 (drawingTwice (.recorder (.ofFailFrom (some 2))))
        (drawingTwice .null) ∧
      FallsBehind Bench.host Bench.host
        (cycles Bench.host 1 (drawingTwice (.recorder (.ofFailFrom (some 2)))))
        (cycles Bench.host 1 (drawingTwice .null)) := by
  have hquiet : ∀ {c : Computer Bench}, (c.cycle Bench.host).1.isOk = true →
      ¬ DeviceFails Bench.host c := by
    intro c hok hfails
    obtain ⟨_, he | he⟩ := deviceFails_iff.1 hfails <;> rw [he] at hok <;> cases hok
  have hmachine : ∀ display display',
      (drawingTwice display).machine = (drawingTwice display').machine := fun _ _ ↦ rfl
  have hkeypad : ∀ display display',
      (drawingTwice display).outside.keypad = (drawingTwice display').outside.keypad :=
    fun _ _ ↦ rfl
  have hstep : InStep Bench.host Bench.host 1
      (drawingTwice (.recorder (.ofFailFrom (some 2)))) (drawingTwice .null) := by
    refine devices_unnoticed bench_sameKeys (hmachine _ _) (hkeypad _ _) 1 ?_ ?_
    all_goals
      intro k hlt
      obtain rfl : k = 0 := by omega
      exact hquiet (by decide +kernel)
  refine ⟨hstep, hstep.here (deviceFails_iff.2 ⟨⟨"display gone"⟩, .inl ?_⟩) (hquiet ?_)⟩
  all_goals decide +kernel

end Computer

end Chip8
