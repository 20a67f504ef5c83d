/-! # The clock of the run loop

All times are in nanoseconds. -/

namespace Chip8

/-- A clock that ticks against a running deadline, so that the time a cycle takes is absorbed. -/
structure Clock where
  period : Nat
  /-- When the next tick is due. -/
  due : Option Nat
deriving DecidableEq, Repr

namespace Clock

/-- The time between two ticks at `hz` ticks a second; zero counts as one. -/
def periodOf (hz : Nat) : Nat := 1000000000 / max hz 1

/-- A clock that has not ticked. -/
def ofHz (hz : Nat) : Clock := ⟨periodOf hz, none⟩

/-- A tick that is asked for at `now`: the time when it happens, and the clock after it. A deadline
that has passed is not caught up with but set anew. -/
def tick (clock : Clock) (now : Nat) : Nat × Clock :=
  match clock.due with
  | none => (now, { clock with due := some (now + clock.period) })
  | some due =>
    if now < due then (due, { clock with due := some (due + clock.period) })
    else (now, { clock with due := some (now + clock.period) })

end Clock

end Chip8
