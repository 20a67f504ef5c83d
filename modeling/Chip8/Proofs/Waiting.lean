import Chip8.Proofs.Timers

/-! # Waiting for a key

The word that waits for a key is executed anew in every cycle in which none is held, and nothing but
the timers goes on. The first other answer of the keypad ends the wait. -/

namespace Chip8

open Fields Pattern

variable {ε : Type} {host : Host ε} {pace : Pace ε} {c c' : Computer ε} {n : Nat}
  {f : Nat → Computer ε}

namespace Machine

/-- The machine with its timers counted down `k` times, to zero at most. -/
def waited (m : Machine) (k : Nat) : Machine :=
  { m with delay := .ofNat (m.delay.toNat - k), sound := .ofNat (m.sound.toNat - k) }

theorem waited_zero (m : Machine) : m.waited 0 = m := by
  simp [waited]

theorem decay_ofNat {k : Nat} (h : k < 256) : decay (.ofNat k) = .ofNat (k - 1) := by
  rw [← UInt8.toNat_inj, decay_toNat, UInt8.toNat_ofNat_of_lt' h,
    UInt8.toNat_ofNat_of_lt' (by omega : k - 1 < 256)]

theorem waited_succ (m : Machine) (k : Nat) : m.waited (k + 1) = (m.waited k).decayTimers := by
  have hdelay := m.delay.toNat_lt
  have hsound := m.sound.toNat_lt
  simp only [waited, decayTimers, ← Nat.sub_sub]
  rw [decay_ofNat (by omega), decay_ofNat (by omega)]

theorem sound_waited (m : Machine) (k : Nat) : (m.waited k).sound.toNat = m.sound.toNat - k :=
  UInt8.toNat_ofNat_of_lt' (Nat.lt_of_le_of_lt (Nat.sub_le _ _) m.sound.toNat_lt)

end Machine

namespace Computer

/-! ## One cycle -/

/-- Where the cue does not fail, a step that succeeds is followed by the timers. -/
theorem cycle_of_step_ok (hcue : (host.cue c'.outside).1 = .ok ())
    (h : c.step host = (.ok (), c')) :
    (c.cycle host).1 = .ok c.machine.fetch ∧
      (c.cycle host).2.machine = c'.machine.decayTimers := by
  obtain ⟨_, _, hs, _⟩ | ⟨_, _, _, hs, _, hq, _⟩ | ⟨_, _, hs, hd, hc⟩ := cycle_cases host c
  · cases h.symm.trans hs
  · cases h.symm.trans hs
    cases hcue.symm.trans (congrArg Prod.fst hq)
  · cases h.symm.trans hs
    rw [hc]
    exact ⟨rfl, machine_of_countDown_ok hd⟩

/-- A step that waits for a key goes by what the keypad answers. -/
theorem step_of_wait (host : Host ε) (hwait : covers "FX0A" c.machine.fetch) :
    c.step host =
      ((answered c.machine (c.machine.takeKey (x c.machine.fetch)) (host.key c.outside).1).1,
        ⟨(answered c.machine (c.machine.takeKey (x c.machine.fetch)) (host.key c.outside).1).2,
          (host.key c.outside).2⟩) := by
  have hi := Instruction.decode?_of_covers (i := .waitKey _) hwait rfl
  rw [step_of_decode (Instruction.decode_eq_ok_iff.2 hi)]
  exact perform_asking host c _

/-- A wait leaves the sound timer to count down, and so to sound its cue. -/
theorem cues_of_wait {word : UInt16} (hwait : covers "FX0A" c.machine.fetch)
    (h : (c.cycle host).1 = .ok word) :
    cues host c = if c.machine.sound.toNat = 1 then 1 else 0 := by
  have hi := Instruction.decode?_of_covers (i := .waitKey _) hwait rfl
  rw [Timer.cues_cycle h, Timer.given_of_decode? .sound hi (show "FX0A" ≠ "FX18" by decide)]
  rfl

end Computer

/-! ## The wait -/

/-- The keypad has no key in `n` cycles, and the cue does not fail in them nor in the one behind
them. -/
structure FindsNoKey (host : Host ε) (n : Nat) (f : Nat → Computer ε) : Prop where
  noKey : ∀ k < n, (host.key (f k).outside).1 = .error .noKey
  cue : ∀ k ≤ n, (host.cue (host.key (f k).outside).2).1 = .ok ()

/-- How a computer waits from machine `m` on: `n` cycles find no key, and cycle `n` comes behind
them. -/
structure Waits (host : Host ε) (m : Machine) (n : Nat) (f : Nat → Computer ε) : Prop where
  machine : ∀ k ≤ n, (f k).machine = m.waited k
  ok : ∀ k < n, ((f k).cycle host).1 = .ok m.fetch
  /-- The cue comes in the cycle that counts the sound timer from one to zero. -/
  cue : ∀ k < n, Computer.cues host (f k) = if k + 1 = m.sound.toNat then 1 else 0
  /-- It comes at most once. -/
  heard : ∑ k ∈ Finset.range n, Computer.cues host (f k) =
    if 1 ≤ m.sound.toNat ∧ m.sound.toNat ≤ n then 1 else 0
  /-- A key goes to the register, whatever byte it is. -/
  key : ∀ b, (host.key (f n).outside).1 = .ok b →
    ((f n).cycle host).1 = .ok m.fetch ∧
      ((f n).cycle host).2.machine =
        { m.waited (n + 1) with v := m.v.set (x m.fetch) b, pc := m.pc + 2 } ∧
      Computer.cues host (f n) = if n + 1 = m.sound.toNat then 1 else 0
  quit : (host.key (f n).outside).1 = .error .quit →
    ((f n).cycle host).1 = .error (.error .quit) ∧
      ((f n).cycle host).2.machine = m.waited n ∧ Computer.cues host (f n) = 0
  failed : ∀ e, (host.key (f n).outside).1 = .error e → e ≠ .noKey → e ≠ .quit →
    ((f n).cycle host).1 = .error (.error (.keypad e)) ∧
      ((f n).cycle host).2.machine = m.waited n ∧ Computer.cues host (f n) = 0

namespace Computer

/-- A cycle whose wait goes on or is over. -/
theorem cycle_of_answered {m : Machine}
    (hcue : (host.cue (host.key c.outside).2).1 = .ok ()) (hwait : covers "FX0A" c.machine.fetch)
    (h : answered c.machine (c.machine.takeKey (x c.machine.fetch)) (host.key c.outside).1 =
      (.ok (), m)) :
    (c.cycle host).1 = .ok c.machine.fetch ∧ (c.cycle host).2.machine = m.decayTimers := by
  have hstep := step_of_wait host hwait
  rw [h] at hstep
  exact cycle_of_step_ok hcue hstep

theorem cycle_of_noKey (hcue : (host.cue (host.key c.outside).2).1 = .ok ())
    (hwait : covers "FX0A" c.machine.fetch) (h : (host.key c.outside).1 = .error .noKey) :
    (c.cycle host).1 = .ok c.machine.fetch ∧
      (c.cycle host).2.machine = c.machine.decayTimers := by
  refine cycle_of_answered hcue hwait ?_
  rw [h]
  rfl

theorem cycle_of_key {b : UInt8} (hcue : (host.cue (host.key c.outside).2).1 = .ok ())
    (hwait : covers "FX0A" c.machine.fetch) (h : (host.key c.outside).1 = .ok b) :
    (c.cycle host).1 = .ok c.machine.fetch ∧
      (c.cycle host).2.machine = (c.machine.assign (x c.machine.fetch) b).decayTimers := by
  refine cycle_of_answered hcue hwait ?_
  rw [h]
  rfl

/-- A cycle in which the keypad gives no answer of use. -/
theorem cycle_of_keypadError {e : KeypadError} (hwait : covers "FX0A" c.machine.fetch)
    (h : (host.key c.outside).1 = .error e) (hne : e ≠ .noKey) :
    (c.cycle host).1 = .error (.error (.ofKeypad e)) ∧ (c.cycle host).2.machine = c.machine ∧
      cues host c = 0 := by
  have hstep := step_of_wait host hwait
  have hanswered : answered c.machine (c.machine.takeKey (x c.machine.fetch)) (.error e) =
      (.error (.error (.ofKeypad e)), c.machine) := by
    cases e with
    | noKey => exact absurd rfl hne
    | quit | unavailable | device => rfl
  rw [h, hanswered] at hstep
  refine ⟨?_, ?_, ?_⟩
  · rw [cycle, hstep]
  · rw [cycle, hstep]
  · rw [cues_eq, hstep]

/-- Without a key the machine changes in its timers alone. -/
theorem machine_of_findsNoKey {m : Machine} (hwait : covers "FX0A" m.fetch)
    (hcourse : Course host n f) (hbegin : (f 0).machine = m) (hkeys : FindsNoKey host n f) {k : Nat}
    (hk : k ≤ n) : (f k).machine = m.waited k := by
  induction k with
  | zero => rw [hbegin, m.waited_zero]
  | succ k ih =>
    have hm := ih (Nat.le_of_succ_le hk)
    have hwait' : covers "FX0A" (f k).machine.fetch := by
      rw [hm]
      exact hwait
    have hcycle := cycle_of_noKey (hkeys.cue k (Nat.le_of_succ_le hk)) hwait' (hkeys.noKey k hk)
    rw [hcourse k hk, hcycle.2, hm, Machine.waited_succ]

theorem waits_of_course {m : Machine} (hwait : covers "FX0A" m.fetch)
    (hcourse : Course host n f) (hbegin : (f 0).machine = m) (hkeys : FindsNoKey host n f) :
    Waits host m n f := by
  have hmachine : ∀ k ≤ n, (f k).machine = m.waited k := fun k hk ↦
    machine_of_findsNoKey hwait hcourse hbegin hkeys hk
  have hfetch : ∀ k ≤ n, (f k).machine.fetch = m.fetch := by
    intro k hk
    rw [hmachine k hk]
    rfl
  have hwaits : ∀ k ≤ n, covers "FX0A" (f k).machine.fetch := by
    intro k hk
    rw [hfetch k hk]
    exact hwait
  have hcues : ∀ k ≤ n, ((f k).cycle host).1 = .ok (f k).machine.fetch →
      cues host (f k) = if k + 1 = m.sound.toNat then 1 else 0 := by
    intro k hk hok
    rw [cues_of_wait (hwaits k hk) hok, hmachine k hk, m.sound_waited]
    exact if_congr (by omega) rfl rfl
  have hok : ∀ k < n, ((f k).cycle host).1 = .ok (f k).machine.fetch := fun k hk ↦
    (cycle_of_noKey (hkeys.cue k hk.le) (hwaits k hk.le) (hkeys.noKey k hk)).1
  constructor
  case machine => exact hmachine
  case ok =>
    intro k hk
    rw [hok k hk, hfetch k hk.le]
  case cue => exact fun k hk ↦ hcues k hk.le (hok k hk)
  case heard =>
    rw [sum_eq_of_once (m := m.sound.toNat) fun k hk ↦
      hcues k (Finset.mem_range.1 hk).le (hok k (Finset.mem_range.1 hk))]
    refine if_congr ?_ rfl rfl
    rw [Finset.mem_range]
    omega
  case key =>
    intro b hb
    obtain ⟨hn, hm⟩ := cycle_of_key (hkeys.cue n le_rfl) (hwaits n le_rfl) hb
    refine ⟨hn.trans ?_, ?_, hcues n le_rfl hn⟩
    · rw [hfetch n le_rfl]
    · rw [hm, hfetch n le_rfl, hmachine n le_rfl, m.waited_succ]
      rfl
  case quit =>
    intro hq
    obtain ⟨hn, hm, hc⟩ := cycle_of_keypadError (hwaits n le_rfl) hq (by decide)
    exact ⟨hn, hm.trans (hmachine n le_rfl), hc⟩
  case failed =>
    intro e he hne hnq
    obtain ⟨hn, hm, hc⟩ := cycle_of_keypadError (hwaits n le_rfl) he hne
    have hof : Error.ofKeypad e = .keypad e := by
      cases e with
      | quit => exact absurd rfl hnq
      | noKey | unavailable | device => rfl
    rw [hof] at hn
    exact ⟨hn, hm.trans (hmachine n le_rfl), hc⟩

/-! ## The wait in a run -/

/-- A run that has waited for `k` cycles when it sees a stop request, for the first time. -/
structure StopsWaiting (host : Host ε) (pace : Pace ε) (c : Computer ε) (k : Nat) : Prop where
  unseen : ∀ j < k, pace.stopRequested (atTick host pace c (j + 1)).outside = false
  seen : pace.stopRequested (atTick host pace c (k + 1)).outside = true
  run : ∃ c', (∀ limit, c.run host pace limit =
      if k + 1 ≤ limit then some (.ok (), c') else none) ∧
    c'.machine = { c.machine.waited k with runState := .stopped }

/-- No cycle of the wait ends the run, so that it is the request that does. -/
theorem stopsWaiting_of_seen (hwaits : Waits host c.machine n fun k ↦ atTick host pace c (k + 1))
    (hseen : pace.stopRequested (atTick host pace c (n + 1)).outside = true) :
    ∃ k ≤ n, StopsWaiting host pace c k := by
  obtain ⟨tick, hle, hfirst⟩ := firstEnd_of_endsAt (.inl hseen)
  obtain ⟨k, rfl⟩ := Nat.exists_eq_succ_of_ne_zero (Nat.ne_of_gt hfirst.1)
  have hk : k ≤ n := Nat.le_of_succ_le_succ hle
  obtain ⟨result, c₁, hends, hrun⟩ := run_of_firstEnd hfirst
  -- The cycles of the wait succeed, so the first tick to end the run is one that sees a request.
  have hseen' : pace.stopRequested (atTick host pace c (k + 1)).outside = true := by
    obtain hlt | rfl := Nat.lt_or_eq_of_le hk
    · obtain ⟨hs, _⟩ | ⟨_, halt, hc, _⟩ := hends
      · exact hs
      · cases (hwaits.ok k hlt).symm.trans (congrArg Prod.fst hc)
    · exact hseen
  refine ⟨k, hk, ?_, hseen', ?_⟩
  · intro j hj
    rw [Bool.eq_false_iff]
    intro hs
    exact hfirst.2.2 (j + 1) (Nat.succ_pos j) (Nat.succ_lt_succ hj) (.inl hs)
  · obtain ⟨_, rfl, rfl⟩ | ⟨hs, _⟩ := hends
    · refine ⟨_, hrun, ?_⟩
      show { (atTick host pace c (k + 1)).machine with runState := .stopped } = _
      rw [hwaits.machine k hk]
    · cases hseen'.symm.trans hs

/-- At the word that waits for a key, a computer waits as long as none is held, by hand and in a
run. A stop request that is made before tick `n + 1` is over ends the run with that tick at the
latest. -/
theorem key_awaited (host : Host ε) (pace : Pace ε) (n : Nat)
    (hwait : covers "FX0A" c.machine.fetch) :
    (FindsNoKey host n (fun k ↦ cycles host k c) →
      Waits host c.machine n fun k ↦ cycles host k c) ∧
    (FindsNoKey host n (fun k ↦ atTick host pace c (k + 1)) →
      Waits host c.machine n (fun k ↦ atTick host pace c (k + 1)) ∧
      ∀ handles watched, pace.Watches handles watched → ∀ (s : StopHandles) handle,
        s.SharesFlag handle watched →
        (s.stop handle).Becomes (handles (atTick host pace c (n + 1)).outside) →
        ∃ k ≤ n, StopsWaiting host pace c k) := by
  constructor
  · intro hkeys
    exact waits_of_course hwait (course_cycles host n c) rfl hkeys
  · intro hkeys
    have hwaits := waits_of_course hwait (course_atTick host pace n c) rfl hkeys
    refine ⟨hwaits, ?_⟩
    intro handles watched hwatches s handle hshares hbecomes
    refine stopsWaiting_of_seen hwaits ?_
    rw [hwatches]
    exact hbecomes.isStopped (StopHandles.isStopped_stop hshares)

/-- The word `F30A`, with the sound timer at two and a run that is to stop at its fourth tick. The
keypad finds no key three times; then there is one that is no key of the keypad. -/
def patient : Computer Bench :=
  let c := ((onBench (.replies [.error .noKey, .error .noKey, .error .noKey, .ok 0xFF])).load
    (.ofBytes [0xF3, 0x0A])).2
  { machine := { c.machine with delay := 1, sound := 2 },
    outside := c.outside.rewind (some 4) false }

/-- The cue is heard once in the three cycles without a key. A run is stopped before it can ask for
the key. -/
theorem key_awaited_patient :
    (((cycles Bench.host 3 patient).cycle Bench.host).2.machine.reg 3 = 0xFF ∧
        ((cycles Bench.host 3 patient).cycle Bench.host).2.machine.pc = 0x202) ∧
      ∑ k ∈ Finset.range 3, cues Bench.host (cycles Bench.host k patient) = 1 ∧
      ∃ k ≤ 3, StopsWaiting Bench.host Bench.pace patient k := by
  have hwait : covers "FX0A" patient.machine.fetch := by decide +kernel
  obtain ⟨hhand, hrun⟩ := key_awaited Bench.host Bench.pace 3 hwait
  have hwaits := hhand ⟨by decide +kernel, by decide +kernel⟩
  obtain ⟨_, hstops⟩ := hrun ⟨by decide +kernel, by decide +kernel⟩
  refine ⟨?_, ?_, ?_⟩
  · rw [(hwaits.key 0xFF (by decide +kernel)).2.1]
    decide +kernel
  · rw [hwaits.heard]
    decide +kernel
  · let handles (b : Bench) : StopHandles := ⟨[b.stopped], [0]⟩
    refine hstops handles 0 (fun _ ↦ rfl) .single 0 ⟨0, rfl, rfl, by decide⟩ ?_
    have hseen : handles (atTick Bench.host Bench.pace patient 4).outside =
        StopHandles.single.stop 0 := by
      decide +kernel
    rw [hseen]
    exact .refl

end Computer

end Chip8
