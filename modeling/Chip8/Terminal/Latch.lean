/-! # The key latch

Terminals report that a key goes down and never that it comes up, so the last key pressed counts as
held for a while. Times are numbers in any one unit. -/

namespace Chip8.Terminal

structure KeyLatch where
  /-- The key held and the time it was pressed at. -/
  held : Option (UInt8 × Nat)
  /-- How long a press lasts. -/
  hold : Nat
deriving DecidableEq, Repr

namespace KeyLatch

def ofHold (hold : Nat) : KeyLatch := ⟨none, hold⟩

/-- The newest press replaces any other. -/
def press (l : KeyLatch) (key : UInt8) (time : Nat) : KeyLatch :=
  { l with held := some (key, time) }

/-- The key that is held at `now`. A look before the press counts as one at the press, and a press
that is found to be over is forgotten. -/
def current (l : KeyLatch) (now : Nat) : Option UInt8 × KeyLatch :=
  match l.held with
  | none => (none, l)
  | some (key, pressed) =>
    if now - pressed < l.hold then (some key, l) else (none, { l with held := none })

@[simp] theorem held_press (l : KeyLatch) (key : UInt8) (t : Nat) :
    (l.press key t).held = some (key, t) := rfl

theorem hold_current (l : KeyLatch) (now : Nat) : (l.current now).2.hold = l.hold := by
  unfold current
  split
  · rfl
  · split <;> rfl

end KeyLatch

end Chip8.Terminal
