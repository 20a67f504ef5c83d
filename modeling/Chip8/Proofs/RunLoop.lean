import Chip8.Bench
import Chip8.Proofs.View
import Chip8.StopHandles
import Mathlib.Logic.Function.Iterate

/-! # The run loop

A run is made of rounds of a tick and a cycle, as if they were called by hand. It ends at the first
tick after which a stop request is seen or whose cycle fails, and does not end if there is none. -/

namespace Chip8

variable {ε δ : Type}

/-- The run loop is stopped through handle `h` of the handles outside. -/
def Pace.Watches (pace : Pace ε) (handles : ε → StopHandles) (h : Nat) : Prop :=
  ∀ e, pace.stopRequested e = (handles e).isStopped h

namespace Computer

variable {host : Host ε} {pace : Pace ε} {c c' : Computer ε}

/-- A tick and the cycle behind it, whatever that answers. -/
def round (host : Host ε) (pace : Pace ε) (c : Computer ε) : Computer ε :=
  ((c.ticked pace).cycle host).2

/-- So many cycles called by hand, whatever they answer. -/
def cycles (host : Host ε) (n : Nat) : Computer ε → Computer ε := (fun c ↦ (c.cycle host).2)^[n]

/-- The computer when tick number `k` is over, with a cycle behind each tick before it. -/
def atTick (host : Host ε) (pace : Pace ε) (c : Computer ε) (k : Nat) : Computer ε :=
  ((round host pace)^[k - 1] c).ticked pace

/-- A stop request is seen after tick number `k`, or the cycle behind it fails. -/
def EndsAt (host : Host ε) (pace : Pace ε) (c : Computer ε) (k : Nat) : Prop :=
  pace.stopRequested (atTick host pace c k).outside = true ∨
    ∃ halt, ((atTick host pace c k).cycle host).1 = .error halt

/-- Tick number `k` is the first that ends a run. -/
def FirstEnd (host : Host ε) (pace : Pace ε) (c : Computer ε) (k : Nat) : Prop :=
  1 ≤ k ∧ EndsAt host pace c k ∧ ∀ j, 1 ≤ j → j < k → ¬ EndsAt host pace c j

/-! ## The run state

The rounds of a running computer are those of the computer before the run. -/

theorem cycle_setRunState (host : Host ε) (c : Computer ε) (s : RunState) :
    (c.setRunState s).cycle host = Prod.map id (·.setRunState s) (c.cycle host) :=
  cycle_seen (Machine.unnoticed_withRunState s) host.shows_id c

theorem round_setRunState (host : Host ε) (pace : Pace ε) (s : RunState) :
    Function.Semiconj (·.setRunState s) (round host pace) (round host pace) := by
  intro c
  exact (congrArg Prod.snd (cycle_setRunState host (c.ticked pace) s)).symm

theorem rounds_setRunState (host : Host ε) (pace : Pace ε) (s : RunState) (n : Nat)
    (c : Computer ε) :
    (round host pace)^[n] (c.setRunState s) = ((round host pace)^[n] c).setRunState s :=
  ((round_setRunState host pace s).iterate_right n c).symm

/-! ## Turns of a running computer -/

theorem turn_of_stop {s : RunState}
    (h : pace.stopRequested (c.ticked pace).outside = true) :
    (c.setRunState s).turn host pace = .over (.ok ()) ((c.ticked pace).setRunState s) := by
  obtain ⟨_, ht⟩ | ⟨hf, _⟩ | ⟨hf, _⟩ := turn_cases host pace (c.setRunState s)
  · exact ht
  · cases h.symm.trans hf
  · cases h.symm.trans hf

theorem turn_of_error {s : RunState} {halt : Halt}
    (h : pace.stopRequested (c.ticked pace).outside = false)
    (hc : (c.ticked pace).cycle host = (.error halt, c')) :
    (c.setRunState s).turn host pace = .over (reported halt) (c'.setRunState s) := by
  have hcycle : ((c.setRunState s).ticked pace).cycle host = (.error halt, c'.setRunState s) := by
    have hs := cycle_setRunState host (c.ticked pace) s
    rw [hc] at hs
    exact hs
  obtain ⟨ht, _⟩ | ⟨_, _, _, he, _⟩ | ⟨_, _, _, he, ht⟩ := turn_cases host pace (c.setRunState s)
  · cases h.symm.trans ht
  · cases hcycle.symm.trans he
  · cases hcycle.symm.trans he
    exact ht

theorem turn_of_ok {s : RunState} {word : UInt16}
    (h : pace.stopRequested (c.ticked pace).outside = false)
    (hc : ((c.ticked pace).cycle host).1 = .ok word) :
    (c.setRunState s).turn host pace = .going ((round host pace c).setRunState s) := by
  have hcycle : ((c.setRunState s).ticked pace).cycle host =
      (.ok word, (round host pace c).setRunState s) := by
    rw [← hc]
    exact cycle_setRunState host (c.ticked pace) s
  obtain ⟨ht, _⟩ | ⟨_, _, _, he, ht⟩ | ⟨_, _, _, he, _⟩ := turn_cases host pace (c.setRunState s)
  · cases h.symm.trans ht
  · cases hcycle.symm.trans he
    exact ht
  · cases hcycle.symm.trans he

/-- A tick that does not end the run is followed by a round. -/
theorem turn_of_not_endsAt {s : RunState} {n : Nat} (h : ¬ EndsAt host pace c (n + 1)) :
    ((round host pace)^[n] (c.setRunState s)).turn host pace =
      .going ((round host pace)^[n + 1] (c.setRunState s)) := by
  rw [rounds_setRunState, rounds_setRunState, Function.iterate_succ_apply']
  rw [EndsAt, atTick, Nat.add_sub_cancel, not_or, Bool.not_eq_true, not_exists] at h
  obtain ⟨hstop, hne⟩ := h
  cases hc : ((((round host pace)^[n] c).ticked pace).cycle host).1 with
  | error halt => exact absurd hc (hne halt)
  | ok word => exact turn_of_ok hstop hc

/-! ## The loop -/

/-- A loop whose first `n` turns go on and whose next one does not. -/
theorem loop_of_over {n limit : Nat} {result : Except Halt Unit}
    (hgo : ∀ j < n, ((round host pace)^[j] c).turn host pace =
      .going ((round host pace)^[j + 1] c))
    (hover : ((round host pace)^[n] c).turn host pace = .over result c') :
    c.loop host pace limit = if n < limit then some (result, c') else none := by
  induction limit generalizing n c with
  | zero => rfl
  | succ limit ih =>
    rw [loop]
    cases n with
    | zero =>
      rw [Function.iterate_zero_apply] at hover
      rw [hover, if_pos (Nat.succ_pos limit)]
    | succ n =>
      have hfirst : c.turn host pace = .going (round host pace c) := hgo 0 (Nat.succ_pos n)
      have hrest := ih (c := round host pace c) (n := n)
        (fun j hj ↦ hgo (j + 1) (Nat.succ_lt_succ hj)) hover
      simp only [hfirst, hrest, Nat.succ_lt_succ_iff]

/-- A loop of which all turns go on. -/
theorem loop_of_going {limit : Nat}
    (hgo : ∀ j, ((round host pace)^[j] c).turn host pace =
      .going ((round host pace)^[j + 1] c)) :
    c.loop host pace limit = none := by
  induction limit generalizing c with
  | zero => rfl
  | succ limit ih =>
    have hfirst : c.turn host pace = .going (round host pace c) := hgo 0
    rw [loop, hfirst]
    exact ih fun j ↦ hgo (j + 1)

/-! ## How runs end -/

/-- The cycles that a run attempts which ends with tick number `k`. -/
def attempts (host : Host ε) (pace : Pace ε) (c : Computer ε) (k : Nat) : Nat :=
  if pace.stopRequested (atTick host pace c k).outside then k - 1 else k

/-- What a run answers and leaves which ends with tick number `k`. A fault breaks the run off, so
that it leaves nothing. -/
structure RunEnds (host : Host ε) (pace : Pace ε) (c : Computer ε) (k : Nat)
    (result : Except Halt Unit) (c' : Computer ε) : Prop where
  stopped : pace.stopRequested (atTick host pace c k).outside = true →
    result = .ok () ∧ c' = (atTick host pace c k).setRunState .stopped
  failed : pace.stopRequested (atTick host pace c k).outside = false →
    ∃ halt c₁, (atTick host pace c k).cycle host = (.error halt, c₁) ∧ result = reported halt ∧
      (halt ≠ .fault → c' = c₁.setRunState .stopped)
  runState : result ≠ .error .fault → c'.machine.runState = .stopped
  /-- No cycle is begun behind a tick after which a stop request was seen. -/
  unseen : ∀ j < attempts host pace c k,
    pace.stopRequested (atTick host pace c (j + 1)).outside = false
  /-- Whatever counts the ticks counts `k`. -/
  ticks : ∀ count : ε → Nat, (∀ e, count (pace.tick e) = count e + 1) → host.Keeps count →
    count c'.outside = count c.outside + k
  /-- Devices that do not see the ticks see cycles that are called by hand, with the
  same answers. -/
  byHand : ∀ {δ : Type} {devices : Host δ} {view : ε → δ}, host.Shows devices view →
    (∀ e, view (pace.tick e) = view e) →
    (∀ j, ((atTick host pace c (j + 1)).cycle host).1 =
      ((cycles devices j (c.seen id view)).cycle devices).1) ∧
    (result ≠ .error .fault → c'.seen id view =
      (cycles devices (attempts host pace c k) (c.seen id view)).setRunState .stopped)

theorem settle_eq {result : Except Halt Unit} (h : result ≠ .error .fault) :
    settle result c = c.setRunState .stopped := by
  rcases result with (_ | _) | _
  · rfl
  · exact absurd rfl h
  · rfl

theorem settle_outside (result : Except Halt Unit) (c : Computer ε) :
    (settle result c).outside = c.outside := by
  unfold settle
  split <;> rfl

theorem rounds_count {count : ε → Nat} (htick : ∀ e, count (pace.tick e) = count e + 1)
    (hkeeps : host.Keeps count) (n : Nat) (c : Computer ε) :
    count ((round host pace)^[n] c).outside = count c.outside + n := by
  induction n with
  | zero => rfl
  | succ n ih =>
    rw [Function.iterate_succ_apply', round, cycle_keeps hkeeps, ticked, htick, ih, Nat.add_assoc]

theorem rounds_seen {devices : Host δ} {view : ε → δ} (hv : host.Shows devices view)
    (htick : ∀ e, view (pace.tick e) = view e) (n : Nat) (c : Computer ε) :
    ((round host pace)^[n] c).seen id view = cycles devices n (c.seen id view) := by
  have hround : Function.Semiconj (seen id view) (round host pace)
      (fun c ↦ (c.cycle devices).2) := by
    intro c
    have hticked : (c.ticked pace).seen id view = c.seen id view := by
      rw [seen, ticked, htick]
      rfl
    show _ = ((c.seen id view).cycle devices).2
    rw [← hticked, cycle_seen Machine.unnoticed_id hv]
    rfl
  exact hround.iterate_right n c

theorem atTick_count {count : ε → Nat} (htick : ∀ e, count (pace.tick e) = count e + 1)
    (hkeeps : host.Keeps count) (n : Nat) (c : Computer ε) :
    count (atTick host pace c (n + 1)).outside = count c.outside + (n + 1) := by
  rw [atTick, ticked, htick, Nat.add_sub_cancel, rounds_count htick hkeeps, Nat.add_assoc]

theorem atTick_seen {devices : Host δ} {view : ε → δ} (hv : host.Shows devices view)
    (htick : ∀ e, view (pace.tick e) = view e) (n : Nat) (c : Computer ε) :
    (atTick host pace c (n + 1)).seen id view = cycles devices n (c.seen id view) := by
  rw [← rounds_seen hv htick, atTick, Nat.add_sub_cancel, seen, ticked, htick]
  rfl

/-- The answer and the computer with which the loop of a run is over at tick number `k`. -/
def LoopEnds (host : Host ε) (pace : Pace ε) (c : Computer ε) (k : Nat)
    (result : Except Halt Unit) (c₁ : Computer ε) : Prop :=
  (pace.stopRequested (atTick host pace c k).outside = true ∧ result = .ok () ∧
    c₁ = atTick host pace c k) ∨
  (pace.stopRequested (atTick host pace c k).outside = false ∧ ∃ halt,
    (atTick host pace c k).cycle host = (.error halt, c₁) ∧ result = reported halt)

/-- A tick that ends the run is followed by no other. -/
theorem turn_of_endsAt {s : RunState} {n : Nat} (h : EndsAt host pace c (n + 1)) :
    ∃ result c₁, LoopEnds host pace c (n + 1) result c₁ ∧
      ((round host pace)^[n] (c.setRunState s)).turn host pace =
        .over result (c₁.setRunState s) := by
  rw [rounds_setRunState]
  cases hstop : pace.stopRequested (atTick host pace c (n + 1)).outside with
  | true => exact ⟨_, _, .inl ⟨hstop, rfl, rfl⟩, turn_of_stop hstop⟩
  | false =>
    obtain ht | ⟨halt, he⟩ := h
    · cases hstop.symm.trans ht
    · have hc : (atTick host pace c (n + 1)).cycle host =
          (.error halt, ((atTick host pace c (n + 1)).cycle host).2) := Prod.ext he rfl
      exact ⟨_, _, .inr ⟨hstop, halt, hc, rfl⟩, turn_of_error hstop hc⟩

theorem run_of_firstEnd {k : Nat} (h : FirstEnd host pace c k) :
    ∃ result c₁, LoopEnds host pace c k result c₁ ∧ ∀ limit, c.run host pace limit =
      if k ≤ limit then some (result, settle result (c₁.setRunState .running)) else none := by
  obtain ⟨hk, hend, hfirst⟩ := h
  obtain ⟨n, rfl⟩ := Nat.exists_eq_succ_of_ne_zero (Nat.ne_of_gt hk)
  obtain ⟨result, c₁, hc, hover⟩ := turn_of_endsAt (s := .running) hend
  refine ⟨result, c₁, hc, ?_⟩
  have hgo : ∀ j < n, ((round host pace)^[j] (c.setRunState .running)).turn host pace =
      .going ((round host pace)^[j + 1] (c.setRunState .running)) := by
    intro j hj
    exact turn_of_not_endsAt (hfirst (j + 1) (Nat.succ_pos j) (Nat.succ_lt_succ hj))
  intro limit
  rw [run, loop_of_over hgo hover]
  simp only [Nat.succ_le_iff]
  split <;> rfl

theorem run_of_forall_not_endsAt (h : ∀ n, ¬ EndsAt host pace c (n + 1)) (limit : Nat) :
    c.run host pace limit = none := by
  rw [run, loop_of_going fun j ↦ turn_of_not_endsAt (h j)]
  rfl

/-- A run ends with the first tick that may end it. -/
theorem firstEnd_of_endsAt {n : Nat} (h : EndsAt host pace c (n + 1)) :
    ∃ k ≤ n + 1, FirstEnd host pace c k := by
  induction n using Nat.strongRecOn with
  | ind n ih =>
    by_cases hj : ∃ j < n, EndsAt host pace c (j + 1)
    · obtain ⟨j, hlt, hend⟩ := hj
      obtain ⟨k, hk, hfirst⟩ := ih j hlt hend
      exact ⟨k, Nat.le_trans hk (Nat.succ_le_succ (Nat.le_of_lt hlt)), hfirst⟩
    · refine ⟨n + 1, Nat.le_refl _, Nat.succ_pos n, h, fun j hpos hlt hend ↦ hj ?_⟩
      obtain ⟨j, rfl⟩ := Nat.exists_eq_succ_of_ne_zero (Nat.ne_of_gt hpos)
      exact ⟨j, Nat.lt_of_succ_lt_succ hlt, hend⟩

theorem FirstEnd.unseen {k : Nat} (h : FirstEnd host pace c k) {j : Nat}
    (hj : j < attempts host pace c k) :
    pace.stopRequested (atTick host pace c (j + 1)).outside = false := by
  obtain ⟨hk, _, hfirst⟩ := h
  have hbefore : j + 1 < k → pace.stopRequested (atTick host pace c (j + 1)).outside = false := by
    intro hlt
    rw [Bool.eq_false_iff]
    intro hs
    exact hfirst (j + 1) (Nat.succ_pos j) hlt (.inl hs)
  unfold attempts at hj
  split at hj
  · exact hbefore (by omega)
  · next hs =>
    obtain hlt | rfl := Nat.lt_or_eq_of_le (Nat.succ_le_of_lt hj)
    · exact hbefore hlt
    · exact Bool.eq_false_iff.2 hs

/-- A settled run has ended as its loop has. -/
theorem LoopEnds.runEnds {k : Nat} {result : Except Halt Unit} {c₁ : Computer ε}
    (h : LoopEnds host pace c k result c₁) (hfirst : FirstEnd host pace c k) :
    RunEnds host pace c k result (settle result (c₁.setRunState .running)) := by
  have hsettle (hf : result ≠ .error .fault) :
      settle result (c₁.setRunState .running) = c₁.setRunState .stopped := settle_eq hf
  obtain ⟨n, rfl⟩ := Nat.exists_eq_succ_of_ne_zero (Nat.ne_of_gt hfirst.1)
  constructor
  case stopped =>
    intro hs
    obtain ⟨_, rfl, rfl⟩ | ⟨hs', _⟩ := h
    · exact ⟨rfl, rfl⟩
    · cases hs.symm.trans hs'
  case failed =>
    intro hs
    obtain ⟨hs', _⟩ | ⟨_, halt, hc, rfl⟩ := h
    · cases hs.symm.trans hs'
    · exact ⟨halt, c₁, hc, rfl, fun hf ↦ hsettle (reported_ne_fault hf)⟩
  case runState =>
    intro hf
    rw [hsettle hf]
    rfl
  case unseen =>
    intro j hj
    exact hfirst.unseen hj
  case ticks =>
    intro count htick hkeeps
    rw [settle_outside, Nat.succ_eq_add_one, ← atTick_count htick hkeeps]
    obtain ⟨_, _, rfl⟩ | ⟨_, _, hc, _⟩ := h
    · rfl
    · have hcycle := cycle_keeps hkeeps (atTick host pace c (n + 1))
      rw [hc] at hcycle
      exact hcycle
  case byHand =>
    intro δ devices view hv htick
    constructor
    · intro j
      rw [← atTick_seen hv htick, cycle_seen Machine.unnoticed_id hv]
      rfl
    · intro hf
      rw [hsettle hf]
      show (c₁.seen id view).setRunState .stopped = _
      obtain ⟨hs, _, rfl⟩ | ⟨hs, _, hc, _⟩ := h
      · rw [attempts, if_pos hs, atTick_seen hv htick]
        rfl
      · have hround : c₁ = (round host pace)^[n + 1] c := by
          rw [Function.iterate_succ_apply']
          exact (congrArg Prod.snd hc).symm
        rw [attempts, hs, hround, rounds_seen hv htick]
        rfl

/-- A run ends with the first tick after which a stop request is seen or whose cycle fails, and not
without one. A stop request that has been made through a handle of the same flag when a tick is over
ends the run with that tick at the latest. -/
theorem runs_end (host : Host ε) (pace : Pace ε) (c : Computer ε) :
    (∀ k, FirstEnd host pace c k → ∃ result c',
      (∀ limit, c.run host pace limit = if k ≤ limit then some (result, c') else none) ∧
        RunEnds host pace c k result c') ∧
    ((∀ k, ¬ FirstEnd host pace c k) → ∀ limit, c.run host pace limit = none) ∧
    ∀ handles watched, pace.Watches handles watched → ∀ (s : StopHandles) handle n,
      s.SharesFlag handle watched →
      (s.stop handle).Becomes (handles (atTick host pace c (n + 1)).outside) →
      ∃ k ≤ n + 1, FirstEnd host pace c k := by
  refine ⟨?_, ?_, ?_⟩
  · intro k h
    obtain ⟨result, c₁, hc, hrun⟩ := run_of_firstEnd h
    exact ⟨result, _, hrun, hc.runEnds h⟩
  · intro h limit
    apply run_of_forall_not_endsAt
    intro n hend
    obtain ⟨k, _, hfirst⟩ := firstEnd_of_endsAt hend
    exact h k hfirst
  · intro handles watched hw s handle n hs hb
    refine firstEnd_of_endsAt (.inl ?_)
    rw [hw]
    exact hb.isStopped (StopHandles.isStopped_stop hs)

/-- The program `1200`, which jumps to itself, before a run that is asked to stop at its second
tick. -/
def jumping : Computer Bench :=
  let c := ((onBench .null).load (.ofBytes [0x12, 0x00])).2
  { c with outside := c.outside.rewind (some 2) false }

/-- The run ends at its second tick, and has executed the jump once. -/
theorem runs_end_jumping :
    FirstEnd Bench.host Bench.pace jumping 2 ∧ attempts Bench.host Bench.pace jumping 2 = 1 ∧
      ∃ result c', jumping.run Bench.host Bench.pace 2 = some (result, c') ∧
        RunEnds Bench.host Bench.pace jumping 2 result c' := by
  have hgoing :
      Bench.pace.stopRequested (atTick Bench.host Bench.pace jumping 1).outside = false := by
    decide +kernel
  have hok : ((atTick Bench.host Bench.pace jumping 1).cycle Bench.host).1.isOk = true := by
    decide +kernel
  have hstop :
      Bench.pace.stopRequested (atTick Bench.host Bench.pace jumping 2).outside = true := by
    decide +kernel
  have hfirst : FirstEnd Bench.host Bench.pace jumping 2 := by
    refine ⟨by decide, .inl hstop, ?_⟩
    intro j hpos hlt
    obtain rfl : j = 1 := by omega
    rintro (hs | ⟨halt, he⟩)
    · cases hs.symm.trans hgoing
    · rw [he] at hok
      cases hok
  obtain ⟨result, c', hrun, hends⟩ := (runs_end Bench.host Bench.pace jumping).1 2 hfirst
  exact ⟨hfirst, if_pos hstop, result, c', hrun 2, hends⟩

end Computer

end Chip8
