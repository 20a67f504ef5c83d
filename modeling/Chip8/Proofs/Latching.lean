import Chip8.Terminal.Latch
import Mathlib.Data.List.Basic

/-! # What a latch remembers

A latch shows the key of the latest press, until a look finds that the press is over. What is done
with a latch is listed with the newest first, so that each list is what was done before it with one
act in front.

The times are whatever the callers say: where they run backwards, a look that comes too late ends a
press for looks at earlier times, too. Where they do not, looks leave nothing behind. -/

namespace Chip8.Terminal.KeyLatch

/-- What is done with a latch. -/
inductive Act
  | press (key : UInt8) (time : Nat)
  | look (now : Nat)
deriving DecidableEq

namespace Act

def time : Act → Nat
  | .press _ time => time
  | .look now => now

/-- The key of a press, and its time. -/
def press? : Act → Option (UInt8 × Nat)
  | .press key time => some (key, time)
  | .look _ => none

end Act

def act (l : KeyLatch) : Act → KeyLatch
  | .press key time => l.press key time
  | .look now => (l.current now).2

/-- A latch that was new before all of `past`. -/
def after (hold : Nat) (past : List Act) : KeyLatch := past.foldr (fun a l ↦ l.act a) (.ofHold hold)

/-- What a look at `now` shows after all of `past`. -/
def shown (hold : Nat) (past : List Act) (now : Nat) : Option UInt8 :=
  ((after hold past).current now).1

/-- The presses among acts, the newest first. -/
def presses (past : List Act) : List (UInt8 × Nat) := past.filterMap Act.press?

/-- The key and the time of the latest press, and the times of the looks since then. -/
inductive LatestPress : List Act → UInt8 → Nat → List Nat → Prop
  | press {past : List Act} {key : UInt8} {time : Nat} :
      LatestPress (.press key time :: past) key time []
  | look {past : List Act} {key : UInt8} {time now : Nat} {looks : List Nat} :
      LatestPress past key time looks → LatestPress (.look now :: past) key time (now :: looks)

variable {l : KeyLatch} {hold now time : Nat} {key : UInt8} {past past' : List Act}
  {looks : List Nat}

/-! ## One look -/

theorem current_eq_some_iff :
    (l.current now).1 = some key ↔ ∃ time, l.held = some (key, time) ∧ now - time < l.hold := by
  unfold current
  cases l.held with
  | none => simp
  | some held =>
    by_cases hlt : now - held.2 < l.hold
    · simp only [if_pos hlt, Option.some_inj]
      constructor
      · rintro rfl
        exact ⟨held.2, rfl, hlt⟩
      · rintro ⟨_, rfl, -⟩
        rfl
    · simp only [if_neg hlt, reduceCtorEq, false_iff]
      rintro ⟨_, h, hnow⟩
      cases h
      exact hlt hnow

/-- A look keeps a press that it finds to last. -/
theorem held_current_eq_some_iff : (l.current now).2.held = some (key, time) ↔
    l.held = some (key, time) ∧ now - time < l.hold := by
  unfold current
  cases hheld : l.held with
  | none => simp [hheld]
  | some held =>
    by_cases hlt : now - held.2 < l.hold
    · simp only [if_pos hlt, hheld, Option.some_inj, iff_self_and]
      rintro rfl
      exact hlt
    · simp only [if_neg hlt, reduceCtorEq, Option.some_inj, false_iff, not_and]
      rintro rfl
      exact hlt

/-- A look that shows no key leaves none. -/
theorem held_of_current_eq_none (h : (l.current now).1 = none) : (l.current now).2.held = none := by
  refine Option.eq_none_iff_forall_not_mem.2 fun p hp ↦ ?_
  obtain ⟨hheld, hlt⟩ := held_current_eq_some_iff.1 hp
  rw [current_eq_some_iff.2 ⟨p.2, hheld, hlt⟩] at h
  cases h

/-! ## A whole past -/

theorem hold_after (hold : Nat) (past : List Act) : (after hold past).hold = hold := by
  induction past with
  | nil => rfl
  | cons a past ih =>
    cases a with
    | press => exact ih
    | look now => exact (hold_current _ now).trans ih

theorem after_append (hold : Nat) (recent past : List Act) :
    after hold (recent ++ past) = recent.foldr (fun a l ↦ l.act a) (after hold past) :=
  List.foldr_append

/-- A press is held as long as each look since then has found it so. -/
theorem held_after_iff : (after hold past).held = some (key, time) ↔
    ∃ looks, LatestPress past key time looks ∧ ∀ t ∈ looks, t - time < hold := by
  induction past with
  | nil =>
    constructor
    · intro h
      cases h
    · rintro ⟨_, h, -⟩
      cases h
  | cons a past ih =>
    cases a with
    | press k t =>
      constructor
      · intro h
        cases h
        exact ⟨[], .press, nofun⟩
      · rintro ⟨_, h, -⟩
        cases h
        rfl
    | look t =>
      rw [show (after hold (.look t :: past)).held = ((after hold past).current t).2.held from rfl,
        held_current_eq_some_iff, hold_after, ih]
      constructor
      · rintro ⟨⟨looks, h, hlooks⟩, ht⟩
        exact ⟨t :: looks, h.look, List.forall_mem_cons.2 ⟨ht, hlooks⟩⟩
      · rintro ⟨_, h, hlooks⟩
        cases h with
        | look h =>
          obtain ⟨ht, hlooks⟩ := List.forall_mem_cons.1 hlooks
          exact ⟨⟨_, h, hlooks⟩, ht⟩

theorem shown_iff : shown hold past now = some key ↔ ∃ time looks, LatestPress past key time looks ∧
    now - time < hold ∧ ∀ t ∈ looks, t - time < hold := by
  rw [shown, current_eq_some_iff, hold_after]
  simp only [held_after_iff]
  constructor
  · rintro ⟨time, ⟨looks, h, hlooks⟩, hnow⟩
    exact ⟨time, looks, h, hnow, hlooks⟩
  · rintro ⟨time, looks, h, hnow, hlooks⟩
    exact ⟨time, ⟨looks, h, hlooks⟩, hnow⟩

theorem head?_presses_iff :
    (presses past).head? = some (key, time) ↔ ∃ looks, LatestPress past key time looks := by
  induction past with
  | nil =>
    constructor
    · intro h
      cases h
    · rintro ⟨_, h⟩
      cases h
  | cons a past ih =>
    cases a with
    | press k t =>
      constructor
      · intro h
        cases h
        exact ⟨[], .press⟩
      · rintro ⟨_, h⟩
        cases h
        rfl
    | look t =>
      refine ih.trans ⟨fun ⟨looks, h⟩ ↦ ⟨t :: looks, h.look⟩, ?_⟩
      rintro ⟨_, h⟩
      cases h with
      | look h => exact ⟨_, h⟩

theorem LatestPress.look_mem {t : Nat} (h : LatestPress past key time looks) (ht : t ∈ looks) :
    .look t ∈ past := by
  induction h with
  | press => cases ht
  | look _ ih =>
    obtain rfl | ht := List.mem_cons.1 ht
    · exact List.mem_cons_self
    · exact List.mem_cons_of_mem _ (ih ht)

/-- Where no act is later than a look, the latest press alone tells what is shown: a look before
this one would have found the press to be over no sooner than this one does. -/
theorem shown_iff_of_le (h : ∀ a ∈ past, a.time ≤ now) : shown hold past now = some key ↔
    ∃ time, (presses past).head? = some (key, time) ∧ now - time < hold := by
  rw [shown_iff]
  simp only [head?_presses_iff]
  constructor
  · rintro ⟨time, looks, hlatest, hnow, -⟩
    exact ⟨time, ⟨looks, hlatest⟩, hnow⟩
  · rintro ⟨time, ⟨looks, hlatest⟩, hnow⟩
    refine ⟨time, looks, hlatest, hnow, fun t ht ↦ ?_⟩
    have hle : t ≤ now := h _ (hlatest.look_mem ht)
    omega

/-- Without a press, looks bring no key back. -/
theorem held_after_looks (h : (after hold past).held = none) (looks : List Nat) :
    (after hold (looks.map .look ++ past)).held = none := by
  induction looks with
  | nil => exact h
  | cons t looks ih =>
    refine Option.eq_none_iff_forall_not_mem.2 fun p hp ↦ ?_
    cases ih.symm.trans (held_current_eq_some_iff.1 hp).1

/-! ## What is remembered -/

/-- Acts and then a look at `now`, at times that do not decrease. -/
def InOrder (past : List Act) (now : Nat) : Prop := (now :: past.map Act.time).Pairwise (· ≥ ·)

theorem InOrder.le {a : Act} (h : InOrder past now) (ha : a ∈ past) : a.time ≤ now :=
  List.rel_of_pairwise_cons h (List.mem_map_of_mem ha)

/-- What a latch shows after all of `past`. -/
structure Remembers (hold : Nat) (past : List Act) : Prop where
  /-- A key is shown if it was pressed last, and this look and all those since then fall into the
  time of the press. -/
  shown_iff : ∀ now key, shown hold past now = some key ↔ ∃ time looks,
    LatestPress past key time looks ∧ now - time < hold ∧ ∀ t ∈ looks, t - time < hold
  /-- In order, the latest press decides. -/
  inOrder : ∀ now, InOrder past now → ∀ key, shown hold past now = some key ↔
    ∃ time, (presses past).head? = some (key, time) ∧ now - time < hold
  /-- In order, looks have no effect. -/
  unnoticed : ∀ now past', InOrder past now → InOrder past' now → presses past' = presses past →
    shown hold past' now = shown hold past now
  /-- Once no key is shown there is none until the next press, at whatever times. -/
  forgotten : ∀ now, shown hold past now = none → ∀ (looks : List Nat) now',
    shown hold (looks.map .look ++ .look now :: past) now' = none
  /-- A press that does not last is never seen. -/
  unheld : hold = 0 → ∀ now, shown hold past now = none

/-- A latch that was new remembers its latest press, whatever is done with it. -/
theorem latch_remembers (hold : Nat) (past : List Act) : Remembers hold past := by
  constructor
  case shown_iff => exact fun _ _ ↦ shown_iff
  case inOrder => exact fun _ h _ ↦ shown_iff_of_le fun _ ha ↦ h.le ha
  case unnoticed =>
    intro now past' h h' heq
    refine Option.ext fun key ↦ ?_
    rw [shown_iff_of_le fun _ ha ↦ h.le ha, shown_iff_of_le fun _ ha ↦ h'.le ha, heq]
  case forgotten =>
    intro now hnone looks now'
    have hlooked : (after hold (.look now :: past)).held = none := held_of_current_eq_none hnone
    refine Option.eq_none_iff_forall_not_mem.2 fun key hkey ↦ ?_
    obtain ⟨_, hheld, -⟩ := current_eq_some_iff.1 hkey
    cases (held_after_looks hlooked looks).symm.trans hheld
  case unheld =>
    rintro rfl now
    refine Option.eq_none_iff_forall_not_mem.2 fun key hkey ↦ ?_
    obtain ⟨_, _, -, hlt, -⟩ := shown_iff.1 hkey
    exact Nat.not_lt_zero _ hlt

/-- A press of the key 6, a look long before it, and one when it has just run out. -/
def lookedBack : List Act := [.look 1100, .look 3, .press 6 1000]

/-- The press that has run out is not seen at the time of the press either, but the look before the
press has left it alone. -/
theorem latch_remembers_lookedBack :
    shown 100 lookedBack 1000 = none ∧ shown 100 lookedBack.tail 1000 = some 6 ∧
      (∀ (looks : List Nat) now, shown 100 (looks.map .look ++ lookedBack) now = none) ∧
      ¬ InOrder lookedBack 1100 ∧ InOrder [.look 1099, .press 6 1000] 1099 ∧
      shown 100 [.look 1099, .press 6 1000] 1099 = shown 100 [.press 6 1000] 1099 := by
  have hearlier : Remembers 100 lookedBack.tail := latch_remembers 100 lookedBack.tail
  have hseen : shown 100 lookedBack.tail 1000 = some 6 :=
    (hearlier.shown_iff 1000 6).2 ⟨1000, [3], .look .press, by decide, by decide⟩
  have horder : InOrder [.look 1099, .press 6 1000] 1099 := by simp [InOrder, Act.time]
  refine ⟨?_, hseen, ?_, ?_, horder, ?_⟩
  · exact hearlier.forgotten 1100 (by decide) [] 1000
  · exact hearlier.forgotten 1100 (by decide)
  · simp [InOrder, lookedBack, Act.time]
  · exact (latch_remembers 100 [.press 6 1000]).unnoticed 1099 _
      (by simp [InOrder, Act.time]) horder rfl

end Chip8.Terminal.KeyLatch
