import Chip8.Error

/-! # Speakers

What answers the cue of the sound timer: a counter that stays quiet, or a bell byte sent to
a sink. -/

namespace Chip8

/-- Something that takes bytes, perhaps only so many, and can be flushed. -/
structure Sink where
  written : List UInt8
  /-- How many bytes fit in all. -/
  room : Option Nat
  flushFailure : Option DeviceError
deriving DecidableEq, Repr

namespace Sink

/-- A sink that takes everything. -/
def unlimited : Sink := ⟨[], none, none⟩

def isFull (s : Sink) : Bool :=
  match s.room with
  | none => false
  | some room => room ≤ s.written.length

/-- Writes one byte. -/
def put (s : Sink) (b : UInt8) : Except DeviceError Unit × Sink :=
  if s.isFull then (.error ⟨"speaker full"⟩, s)
  else (.ok (), { s with written := s.written ++ [b] })

/-- What flushing answers. -/
def flush (s : Sink) : Except DeviceError Unit :=
  match s.flushFailure with
  | none => .ok ()
  | some e => .error e

end Sink

inductive Speaker
  /-- Makes no sound and counts the cues. -/
  | mute (cues : Nat)
  /-- Rings by writing a byte. -/
  | bell (sink : Sink)
deriving DecidableEq, Repr

namespace Speaker

/-- The byte that rings a terminal's bell. -/
def bellByte : UInt8 := 7

/-- A byte that was written stays written when the flush after it fails. -/
def cue : Speaker → Except DeviceError Unit × Speaker
  | mute cues => (.ok (), mute (cues + 1))
  | bell sink =>
    match sink.put bellByte with
    | (.error e, sink) => (.error e, bell sink)
    | (.ok (), sink) => (sink.flush, bell sink)

/-- The bytes that a bell has written. -/
def written : Speaker → List UInt8
  | mute _ => []
  | bell sink => sink.written

end Speaker

end Chip8
