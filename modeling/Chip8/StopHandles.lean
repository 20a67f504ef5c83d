/-! # Stop handles

Handles through which a run loop is asked to stop. Several handles may share one flag. -/

namespace Chip8

structure StopHandles where
  /-- The flags; a flag that is raised stays raised. -/
  flags : List Bool
  /-- For each handle the number of its flag. -/
  handles : List Nat
deriving DecidableEq, Repr

namespace StopHandles

/-- One handle of one flag. -/
def single : StopHandles := ⟨[false], [0]⟩

/-- A further handle of a flag of its own. -/
def fresh (s : StopHandles) : StopHandles :=
  ⟨s.flags ++ [false], s.handles ++ [s.flags.length]⟩

/-- A further handle of the flag of handle `h`. -/
def share (s : StopHandles) (h : Nat) : StopHandles :=
  match s.handles[h]? with
  | none => s
  | some flag => { s with handles := s.handles ++ [flag] }

/-- Raises the flag of handle `h`. -/
def stop (s : StopHandles) (h : Nat) : StopHandles :=
  match s.handles[h]? with
  | none => s
  | some flag => { s with flags := s.flags.set flag true }

def isStopped (s : StopHandles) (h : Nat) : Bool :=
  match s.handles[h]? with
  | none => false
  | some flag => s.flags.getD flag false

/-- What every handle sees. -/
def states (s : StopHandles) : List Bool := (List.range s.handles.length).map s.isStopped

/-! ## Requests are kept -/

/-- Two handles of one flag. -/
def SharesFlag (s : StopHandles) (h k : Nat) : Prop :=
  ∃ flag, s.handles[h]? = some flag ∧ s.handles[k]? = some flag ∧ flag < s.flags.length

/-- What becomes of handles that are cloned, stopped and joined by further ones. -/
inductive Becomes (s : StopHandles) : StopHandles → Prop
  | refl : Becomes s s
  | fresh {t : StopHandles} : Becomes s t → Becomes s t.fresh
  | share {t : StopHandles} (h : Nat) : Becomes s t → Becomes s (t.share h)
  | stop {t : StopHandles} (h : Nat) : Becomes s t → Becomes s (t.stop h)

theorem isStopped_iff {s : StopHandles} {h : Nat} :
    s.isStopped h = true ↔ ∃ flag, s.handles[h]? = some flag ∧ s.flags[flag]? = some true := by
  unfold isStopped
  cases s.handles[h]? with
  | none => simp
  | some flag => cases hf : s.flags[flag]? <;> simp [List.getD, hf]

/-- A stop through one handle is seen through all that share its flag. -/
theorem isStopped_stop {s : StopHandles} {h k : Nat} (hs : s.SharesFlag h k) :
    (s.stop h).isStopped k = true := by
  obtain ⟨flag, hh, hk, hlt⟩ := hs
  rw [isStopped_iff, stop, hh]
  exact ⟨flag, hk, List.getElem?_set_self hlt⟩

/-- A flag that is raised stays raised. -/
theorem Becomes.isStopped {s t : StopHandles} {h : Nat} (hb : s.Becomes t)
    (hs : s.isStopped h = true) : t.isStopped h = true := by
  induction hb with
  | refl => exact hs
  | @fresh t _ ih =>
    obtain ⟨flag, hh, hf⟩ := isStopped_iff.1 ih
    obtain ⟨hlt, _⟩ := List.getElem?_eq_some_iff.1 hh
    obtain ⟨hlt', _⟩ := List.getElem?_eq_some_iff.1 hf
    refine isStopped_iff.2 ⟨flag, ?_, ?_⟩
    · exact (List.getElem?_append_left hlt).trans hh
    · exact (List.getElem?_append_left hlt').trans hf
  | @share t k _ ih =>
    obtain ⟨flag, hh, hf⟩ := isStopped_iff.1 ih
    obtain ⟨hlt, _⟩ := List.getElem?_eq_some_iff.1 hh
    unfold StopHandles.share
    split
    · exact ih
    · exact isStopped_iff.2 ⟨flag, (List.getElem?_append_left hlt).trans hh, hf⟩
  | @stop t k _ ih =>
    obtain ⟨flag, hh, hf⟩ := isStopped_iff.1 ih
    unfold StopHandles.stop
    split
    · exact ih
    · next other _ =>
      refine isStopped_iff.2 ⟨flag, hh, ?_⟩
      rw [List.getElem?_set, hf]
      split
      · next he =>
        rw [if_pos (he ▸ (List.getElem?_eq_some_iff.1 hf).1)]
      · rfl

end StopHandles

end Chip8
