import Chip8.Terminal.Canvas

/-! # Searching for points

Points are handed out on request. A request inspects pixels from the last one that is left back to
one that holds the value, and the next request goes on before that one. -/

namespace Chip8.Terminal

/-- What comes of a request. -/
inductive Reply
  | point (p : Point)
  /-- No pixel is left. -/
  | exhausted
  /-- The pixel has no byte. -/
  | fault
deriving DecidableEq, Repr

def Reply.point? : Reply → Option Point
  | point p => some p
  | exhausted | fault => none

structure Request where
  reply : Reply
  /-- The pixels that were inspected for it, in this order. -/
  inspected : List Nat
  /-- How many pixels are left for the next request. -/
  left : Nat
deriving DecidableEq, Repr

/-- The request that passes over pixel `i` first. -/
def Request.passing (i : Nat) (r : Request) : Request := { r with inspected := i :: r.inspected }

/-- A search for the pixels that hold `value`. -/
structure Search where
  resolution : Resolution
  data : Array UInt8
  value : UInt8

namespace Search

/-- A request when the first `n` pixels are left. -/
def request (s : Search) : Nat → Request
  | 0 => ⟨.exhausted, [], 0⟩
  | i + 1 =>
    match s.data[i]? with
    | none => ⟨.fault, [i], i⟩
    | some byte =>
      if byte = s.value then ⟨.point (s.resolution.point i), [i], i⟩
      else (s.request i).passing i

/-- A request leaves fewer pixels than it found. -/
theorem left_request_succ_le (s : Search) (n : Nat) : (s.request (n + 1)).left ≤ n := by
  induction n with
  | zero =>
    rw [request]
    split
    · exact Nat.le_refl 0
    · split <;> exact Nat.le_refl 0
  | succ i ih =>
    rw [request]
    split
    · exact Nat.le_refl (i + 1)
    · split
      · exact Nat.le_refl (i + 1)
      · exact Nat.le_succ_of_le ih

/-- The requests up to the first that does not come to a point. -/
def requests (s : Search) (n : Nat) : List Request :=
  match _h : (s.request n).reply with
  | .point _ => s.request n :: s.requests (s.request n).left
  | _ => [s.request n]
termination_by n
decreasing_by
  cases n with
  | zero => cases _h
  | succ i => exact Nat.lt_succ_of_le (s.left_request_succ_le i)

def replies (s : Search) (n : Nat) : List Reply := (s.requests n).map (·.reply)

/-- All pixels that are inspected, in this order. -/
def inspected (s : Search) (n : Nat) : List Nat := (s.requests n).flatMap (·.inspected)

/-- The points that the requests come to. -/
def points (s : Search) (n : Nat) : List Point := (s.replies n).filterMap Reply.point?

end Search

/-- The search that a canvas begins with. -/
def Resolution.search (r : Resolution) (data : Array UInt8) (value : UInt8) : Search :=
  ⟨r, data, value⟩

end Chip8.Terminal
