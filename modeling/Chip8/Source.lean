import Chip8.Error

/-! # Sources of bytes

A source hands its bytes out in pieces and then ends or fails. -/

namespace Chip8

structure Source where
  pieces : List (List UInt8)
  /-- The failure that follows the last piece; without one the source ends there. -/
  failure : Option DeviceError
deriving DecidableEq, Repr

namespace Source

/-- A source that has all of `data` in one piece. -/
def ofBytes (data : List UInt8) : Source := ⟨[data], none⟩

/-- A list cut into pieces of `size`, the last one perhaps shorter. There are no pieces of size 0,
and none of the bytes are handed out then. -/
def cut (size : Nat) (data : List UInt8) : List (List UInt8) :=
  if _h : size = 0 ∨ data = [] then [] else data.take size :: cut size (data.drop size)
termination_by data.length
decreasing_by
  have : 0 < data.length := List.length_pos_iff.2 fun h ↦ _h (.inr h)
  simp only [List.length_drop]
  omega

/-- The bytes of all pieces, unless `failure` comes before the end. An empty piece is an end. -/
def collect (failure : Option DeviceError) : List (List UInt8) → Except DeviceError (List UInt8)
  | [] => match failure with
    | none => .ok []
    | some e => .error e
  | [] :: _ => .ok []
  | piece :: rest => (collect failure rest).map (piece ++ ·)

/-- Everything up to the end; a failure loses what was read before it. -/
def readAll (s : Source) : Except DeviceError (List UInt8) := collect s.failure s.pieces

/-! ## Sources that end -/

@[simp] theorem readAll_ofBytes (data : List UInt8) : (ofBytes data).readAll = .ok data := by
  cases data <;> simp [readAll, collect, ofBytes, Except.map]

end Source

end Chip8
