import Chip8.Proofs.ProgramCounter
import Chip8.Proofs.Trace
import Mathlib.Algebra.BigOperators.Group.Finset.Piecewise
import Mathlib.Order.Interval.Finset.Nat

/-! # The timers over many cycles

A timer counts down from what it was set to last, once in every cycle that succeeds, the one that
sets it among them. The cue of the sound timer is sounded between the instruction and the count, so
it comes in the cycle that would take the timer to zero, unless that cycle sets it anew. -/

namespace Chip8

open Fields Pattern

variable {ε : Type} {host : Host ε} {c c' : Computer ε} {n : Nat} {f : Nat → Computer ε}

namespace Computer

/-! ## Courses -/

/-- The computers in `f` are those before `n` cycles that follow each other: each cycle finds the
machine that the one before it has left. The outside may change between them. -/
def Course (host : Host ε) (n : Nat) (f : Nat → Computer ε) : Prop :=
  ∀ k < n, (f (k + 1)).machine = ((f k).cycle host).2.machine

theorem course_cycles (host : Host ε) (n : Nat) (c : Computer ε) :
    Course host n fun k ↦ cycles host k c := by
  intro k _
  exact congrArg machine (cycles_succ host k c)

/-- The cycles of a run loop follow each other. -/
theorem course_atTick (host : Host ε) (pace : Pace ε) (n : Nat) (c : Computer ε) :
    Course host n fun k ↦ atTick host pace c (k + 1) := by
  intro k _
  show (ticked pace ((round host pace)^[k + 1] c)).machine = _
  rw [Function.iterate_succ_apply']
  rfl

theorem machine_of_countDown_ok (h : c.countDown host = (.ok (), c')) :
    c'.machine = c.machine.decayTimers := by
  obtain ⟨_, hd⟩ | ⟨_, _, _, hd⟩ | ⟨_, _, _, _, hd⟩ := countDown_cases host c
  · cases h.symm.trans hd
    rfl
  · cases h.symm.trans hd
    rfl
  · cases h.symm.trans hd

/-- The machine after a cycle that succeeds is that after its step, with the timers counted down. -/
theorem step_of_cycle_ok {word : UInt16} (h : (c.cycle host).1 = .ok word) :
    ∃ c₁, c.step host = (.ok (), c₁) ∧ (c.cycle host).2.machine = c₁.machine.decayTimers := by
  obtain ⟨_, _, _, hc⟩ | ⟨_, _, _, _, _, _, hc⟩ | ⟨c₁, c₂, hs, hd, hc⟩ := cycle_cases host c
  · rw [hc] at h
    cases h
  · rw [hc] at h
    cases h
  · rw [hc]
    exact ⟨c₁, hs, machine_of_countDown_ok hd⟩

/-! ## Cues -/

end Computer

def Request.isCue : Request → Bool
  | .cue => true
  | _ => false

namespace Computer

/-- How often the next cycle sounds the cue. -/
def cues (host : Host ε) (c : Computer ε) : Nat := (trace host 1 c).countP Request.isCue

/-- An instruction sounds no cue; the timers sound it where the one for the sound stands at one. -/
theorem cues_eq (host : Host ε) (c : Computer ε) : cues host c =
    match c.step host with
    | (.ok (), c') => if c'.machine.sound = 1 then 1 else 0
    | (.error _, _) => 0 := by
  have htrace : trace host 1 c = c.requests host := by
    rw [trace_eq, cyclesRequests_succ]
    rfl
  have hstep : (c.stepRequests host).countP Request.isCue = 0 := by
    rw [stepRequests]
    cases Instruction.decode? c.machine.fetch with
    | none => rfl
    | some i => cases i <;> rfl
  rw [cues, htrace, requests, List.countP_append, hstep, Nat.zero_add]
  rcases c.step host with ⟨halt | _, c₁⟩
  · rfl
  · show c₁.timerRequests.countP Request.isCue = if c₁.machine.sound = 1 then 1 else 0
    rw [timerRequests]
    split <;> rfl

theorem cues_of_step_ok (h : c.step host = (.ok (), c')) :
    cues host c = if c'.machine.sound = 1 then 1 else 0 := by
  rw [cues_eq, h]

end Computer

/-! ## One cycle -/

inductive Timer
  | delay
  | sound
deriving DecidableEq, Repr

namespace Timer

def value : Timer → Machine → UInt8
  | delay, m => m.delay
  | sound, m => m.sound

/-- The pattern of the words that set a timer to the register in them. -/
def pattern : Timer → String
  | delay => "FX15"
  | sound => "FX18"

/-- The word at the program counter sets the timer. -/
def Sets (t : Timer) (m : Machine) : Prop := covers t.pattern m.fetch

instance (t : Timer) (m : Machine) : Decidable (t.Sets m) :=
  inferInstanceAs (Decidable (covers t.pattern m.fetch = true))

/-- What the timer counts down from in the next cycle: what its word sets it to, or else
its value. -/
def given (t : Timer) (m : Machine) : UInt8 :=
  if t.Sets m then m.reg (x m.fetch) else t.value m

/-- No other instruction sets the timer. -/
theorem given_of_decode? (t : Timer) {m : Machine} {i : Instruction}
    (hi : Instruction.decode? m.fetch = some i) (hne : i.pattern ≠ t.pattern) :
    t.given m = t.value m := by
  refine if_neg fun hset ↦ hne ?_
  cases t with
  | delay =>
    cases hi.symm.trans (Instruction.decode?_of_covers (i := .setDelay _) hset rfl)
    rfl
  | sound =>
    cases hi.symm.trans (Instruction.decode?_of_covers (i := .setSound _) hset rfl)
    rfl

/-- A step that succeeds sets a timer or leaves it alone. -/
theorem value_step (t : Timer) (h : c.step host = (.ok (), c')) :
    t.value c'.machine = t.given c.machine := by
  obtain ⟨i, hi⟩ := Computer.decode?_of_step h
  rw [Computer.step_of_decode (Instruction.decode_eq_ok_iff.2 hi)] at h
  by_cases hs : t.Sets c.machine
  · rw [given, if_pos hs]
    cases t with
    | delay =>
      cases hi.symm.trans (Instruction.decode?_of_covers (i := .setDelay _) hs rfl)
      cases h
      rfl
    | sound =>
      cases hi.symm.trans (Instruction.decode?_of_covers (i := .setSound _) hs rfl)
      cases h
      rfl
  · rw [given, if_neg hs]
    have hcovers := (Instruction.covers_of_decode? hi).1
    have hfootprint := (Machine.writes_of_finish? (Computer.finish?_of_perform h)).footprint
    by_contra hne
    cases t with
    | delay =>
      obtain ⟨_, rfl⟩ := hfootprint.delay hne
      exact hs hcovers
    | sound =>
      obtain ⟨_, rfl⟩ := hfootprint.sound hne
      exact hs hcovers

theorem value_decayTimers (t : Timer) (m : Machine) :
    t.value m.decayTimers = Machine.decay (t.value m) := by
  cases t <;> rfl

theorem value_cycle (t : Timer) {word : UInt16} (h : (c.cycle host).1 = .ok word) :
    (t.value (c.cycle host).2.machine).toNat = (t.given c.machine).toNat - 1 := by
  obtain ⟨c₁, hs, hm⟩ := Computer.step_of_cycle_ok h
  rw [hm, value_decayTimers, Machine.decay_toNat, t.value_step hs]

/-- The cue is sounded once in a cycle that counts the sound timer down from one, and else not. -/
theorem cues_cycle {word : UInt16} (h : (c.cycle host).1 = .ok word) :
    Computer.cues host c = if (sound.given c.machine).toNat = 1 then 1 else 0 := by
  obtain ⟨c₁, hs, _⟩ := Computer.step_of_cycle_ok h
  have hsound : c₁.machine.sound = sound.given c.machine := sound.value_step hs
  rw [Computer.cues_of_step_ok hs, hsound]
  simp only [← UInt8.toNat_inj]
  rfl

/-! ## Many cycles -/

/-- From cycle `j` on the timer counts down from `s`: the word of that cycle sets it to `s`, or it
is the first cycle and finds the timer at `s`. -/
inductive StartsAt (t : Timer) (f : Nat → Computer ε) : Nat → UInt8 → Prop
  | set {j : Nat} : t.Sets (f j).machine →
      StartsAt t f j ((f j).machine.reg (x (f j).machine.fetch))
  | beginning : ¬ t.Sets (f 0).machine → StartsAt t f 0 (t.value (f 0).machine)

/-- No cycle behind cycle `j` sets the timer, up to cycle `k`. -/
def Lasts (t : Timer) (f : Nat → Computer ε) (j k : Nat) : Prop :=
  j ≤ k ∧ ∀ i ∈ Finset.Ioc j k, ¬ t.Sets (f i).machine

instance (t : Timer) (f : Nat → Computer ε) (j k : Nat) : Decidable (t.Lasts f j k) :=
  inferInstanceAs (Decidable (_ ∧ _))

theorem StartsAt.given_eq {t : Timer} {j : Nat} {s : UInt8} (h : t.StartsAt f j s) :
    t.given (f j).machine = s := by
  cases h with
  | set hs => exact if_pos hs
  | beginning hs => exact if_neg hs

/-- Every cycle counts down from some setting, or from the beginning. -/
theorem exists_startsAt (t : Timer) (f : Nat → Computer ε) (k : Nat) :
    ∃ j s, t.StartsAt f j s ∧ t.Lasts f j k := by
  have hself (k : Nat) : t.Lasts f k k := ⟨le_rfl, fun i hi ↦ by simp at hi⟩
  induction k with
  | zero =>
    by_cases hs : t.Sets (f 0).machine
    · exact ⟨0, _, .set hs, hself 0⟩
    · exact ⟨0, _, .beginning hs, hself 0⟩
  | succ k ih =>
    by_cases hs : t.Sets (f (k + 1)).machine
    · exact ⟨k + 1, _, .set hs, hself (k + 1)⟩
    · obtain ⟨j, s, hstart, hjk, hunset⟩ := ih
      refine ⟨j, s, hstart, Nat.le_succ_of_le hjk, fun i hi ↦ ?_⟩
      rw [Finset.mem_Ioc] at hi
      obtain hi' | rfl := Nat.le_or_eq_of_le_succ hi.2
      · exact hunset i (Finset.mem_Ioc.2 ⟨hi.1, hi'⟩)
      · exact hs

/-- As long as a timer is not set anew, each cycle counts down from one less than the one before. -/
theorem Lasts.given_eq {t : Timer} {j k : Nat} (h : t.Lasts f j k)
    (hcourse : Computer.Course host n f)
    (hok : ∀ k < n, ∃ word, ((f k).cycle host).1 = .ok word) (hk : k ≤ n) :
    (t.given (f k).machine).toNat = (t.given (f j).machine).toNat - (k - j) := by
  obtain ⟨hjk, hunset⟩ := h
  induction k, hjk using Nat.le_induction with
  | base => rw [Nat.sub_self, Nat.sub_zero]
  | succ k hjk ih =>
    obtain ⟨word, hword⟩ := hok k hk
    have hlast : ¬ t.Sets (f (k + 1)).machine := hunset _ (Finset.mem_Ioc.2 (by omega))
    -- Cycle `k + 1` finds what cycle `k` has left, and sets nothing.
    have hbefore := ih (Nat.le_of_succ_le hk) fun i hi ↦ hunset i (by
      rw [Finset.mem_Ioc] at hi ⊢
      omega)
    rw [given, if_neg hlast, hcourse k hk, t.value_cycle hword, hbefore]
    omega

end Timer

/-! ## The law of the timers -/

/-- What is counted once, before `m`, is counted as often as that is looked at. -/
theorem sum_eq_of_once {S : Finset Nat} {g : Nat → Nat} {m : Nat}
    (h : ∀ k ∈ S, g k = if k + 1 = m then 1 else 0) :
    ∑ k ∈ S, g k = if 1 ≤ m ∧ m - 1 ∈ S then 1 else 0 := by
  rw [Finset.sum_congr rfl h]
  cases m with
  | zero => simp
  | succ m => simp [Finset.sum_ite_eq']

/-- How the timers count over `n` cycles. What a timer was set to in cycle `j`, or what it stood at
before cycle `j = 0`, holds until it is set anew. -/
structure Counts (host : Host ε) (n : Nat) (f : Nat → Computer ε) : Prop where
  /-- In every cycle a timer counts down from some setting, or from the beginning. -/
  held : ∀ (t : Timer) (k : Nat), ∃ j s, t.StartsAt f j s ∧ t.Lasts f j k
  /-- After cycle `k` a timer has been counted down in the cycles from `j` to `k`, to zero
  at most. -/
  value : ∀ {t : Timer} {j k : Nat} {s : UInt8}, t.StartsAt f j s → t.Lasts f j k → k < n →
    (t.value (f (k + 1)).machine).toNat = s.toNat - (k - j + 1)
  /-- As long as the sound timer counts down from `s`, the cue comes in cycle `j + s - 1` only. -/
  cue : ∀ {j k : Nat} {s : UInt8}, Timer.sound.StartsAt f j s → Timer.sound.Lasts f j k → k < n →
    Computer.cues host (f k) = if k + 1 = j + s.toNat then 1 else 0
  /-- A setting is heard once if it lasts until the cycle that would take it to zero, that cycle
  among them, and else never. -/
  heard : ∀ {j : Nat} {s : UInt8}, Timer.sound.StartsAt f j s →
    ∑ k ∈ Finset.range n with Timer.sound.Lasts f j k, Computer.cues host (f k) =
      if 1 ≤ s.toNat ∧ j + s.toNat ≤ n ∧ Timer.sound.Lasts f j (j + s.toNat - 1) then 1 else 0
  /-- `FX07` reads what the cycles before its own have left. -/
  read : ∀ {j k : Nat} {s : UInt8}, covers "FX07" (f k).machine.fetch →
    Timer.delay.StartsAt f j s → Timer.delay.Lasts f j k → k < n →
    ((f (k + 1)).machine.reg (x (f k).machine.fetch)).toNat = s.toNat - (k - j)

namespace Computer

/-- `FX07` reads the delay timer before the cycle counts it down. -/
theorem reg_of_getDelay {word : UInt16} (hget : covers "FX07" c.machine.fetch)
    (h : (c.cycle host).1 = .ok word) :
    (c.cycle host).2.machine.reg (x c.machine.fetch) = c.machine.delay := by
  obtain ⟨c₁, hs, hm⟩ := step_of_cycle_ok h
  have hi := Instruction.decode?_of_covers (i := .getDelay _) hget rfl
  rw [step_of_decode (Instruction.decode_eq_ok_iff.2 hi)] at hs
  cases hs
  rw [hm]
  show (c.machine.assign _ c.machine.delay).reg _ = _
  rw [Machine.reg_assign, if_pos rfl]

theorem counts_of_course (hcourse : Course host n f)
    (hok : ∀ k < n, ∃ word, ((f k).cycle host).1 = .ok word) : Counts host n f := by
  have hcue : ∀ {j k : Nat} {s : UInt8}, Timer.sound.StartsAt f j s → Timer.sound.Lasts f j k →
      k < n → cues host (f k) = if k + 1 = j + s.toNat then 1 else 0 := by
    intro j k s hstart hlasts hk
    obtain ⟨_, hword⟩ := hok k hk
    have hjk := hlasts.1
    rw [Timer.cues_cycle hword, hlasts.given_eq hcourse hok hk.le, hstart.given_eq]
    exact if_congr (by omega) rfl rfl
  constructor
  case held => exact fun t k ↦ t.exists_startsAt f k
  case value =>
    intro t j k s hstart hlasts hk
    obtain ⟨_, hword⟩ := hok k hk
    rw [hcourse k hk, t.value_cycle hword, hlasts.given_eq hcourse hok hk.le, hstart.given_eq,
      Nat.sub_sub]
  case cue => exact hcue
  case heard =>
    intro j s hstart
    rw [sum_eq_of_once (m := j + s.toNat) fun k hk ↦ by
      rw [Finset.mem_filter, Finset.mem_range] at hk
      exact hcue hstart hk.2 hk.1]
    refine if_congr ?_ rfl rfl
    rw [Finset.mem_filter, Finset.mem_range]
    constructor
    · rintro ⟨hm, hn, hlasts⟩
      have := hlasts.1
      exact ⟨by omega, by omega, hlasts⟩
    · rintro ⟨hs, hn, hlasts⟩
      exact ⟨by omega, by omega, hlasts⟩
  case read =>
    intro j k s hget hstart hlasts hk
    obtain ⟨_, hword⟩ := hok k hk
    have hi := Instruction.decode?_of_covers (i := .getDelay _) hget rfl
    have hgiven : Timer.delay.given (f k).machine = (f k).machine.delay :=
      Timer.given_of_decode? .delay hi (show "FX07" ≠ "FX15" by decide)
    rw [hcourse k hk, reg_of_getDelay hget hword, ← hgiven, hlasts.given_eq hcourse hok hk.le,
      hstart.given_eq]

/-- The timers count so over cycles that are called by hand and over those of a run loop, as long as
these succeed. -/
theorem timers_count (host : Host ε) (pace : Pace ε) (n : Nat) (c : Computer ε) :
    ((∀ k < n, ∃ word, ((cycles host k c).cycle host).1 = .ok word) →
      Counts host n fun k ↦ cycles host k c) ∧
    ((∀ k < n, ∃ word, ((atTick host pace c (k + 1)).cycle host).1 = .ok word) →
      Counts host n fun k ↦ atTick host pace c (k + 1)) :=
  ⟨counts_of_course (course_cycles host n c), counts_of_course (course_atTick host pace n c)⟩

/-- The words `6002 F018 F018 F015 F107 120A`. -/
def resounding : Computer Bench :=
  ((onBench (.replies [])).load (.ofBytes
    [0x60, 0x02, 0xF0, 0x18, 0xF0, 0x18, 0xF0, 0x15, 0xF1, 0x07, 0x12, 0x0A])).2

/-- The first setting of the sound timer is overwritten in the very cycle in which it would be
heard; the second is heard once. -/
theorem timers_count_resounding :
    (∑ k ∈ Finset.range 6 with Timer.sound.Lasts (cycles Bench.host · resounding) 1 k,
      cues Bench.host (cycles Bench.host k resounding)) = 0 ∧
    (∑ k ∈ Finset.range 6 with Timer.sound.Lasts (cycles Bench.host · resounding) 2 k,
      cues Bench.host (cycles Bench.host k resounding)) = 1 ∧
    ((cycles Bench.host 5 resounding).machine.reg 1).toNat = 1 := by
  have hok : ∀ k < 6, ((cycles Bench.host k resounding).cycle Bench.host).1 =
      .ok (cycles Bench.host k resounding).machine.fetch := by
    decide +kernel
  have hcounts := (timers_count Bench.host Bench.pace 6 resounding).1 fun k hk ↦ ⟨_, hok k hk⟩
  refine ⟨?_, ?_, ?_⟩
  · rw [hcounts.heard (.set (by decide +kernel)), if_neg]
    decide +kernel
  · rw [hcounts.heard (.set (by decide +kernel)), if_pos]
    decide +kernel
  · have hx : x (cycles Bench.host 4 resounding).machine.fetch = 1 := by decide +kernel
    have hread := hcounts.read (j := 3) (k := 4) (by decide +kernel) (.set (by decide +kernel))
      (by decide +kernel) (by decide)
    rw [hx] at hread
    exact hread.trans (by decide +kernel)

end Computer

end Chip8
