import Chip8.Computer
import Chip8.Display
import Chip8.Keypad
import Chip8.Speaker

/-! # The bench

A machine's outside without time: a display, a keypad, a speaker, and a clock that can be told at
which tick to ask for a stop. -/

namespace Chip8

structure Bench where
  display : Display
  keypad : Keypad
  speaker : Speaker
  /-- The number of the tick that asks for a stop, as all later ones do. -/
  stopAt : Option Nat
  /-- The ticks that have been counted; without `stopAt` none are. -/
  ticks : Nat
  stopped : Bool

namespace Bench

def ofDevices (display : Display) (keypad : Keypad) (speaker : Speaker) : Bench :=
  ⟨display, keypad, speaker, none, 0, false⟩

/-- The bench before a run, with nothing counted. -/
def rewind (b : Bench) (stopAt : Option Nat) (stopped : Bool) : Bench :=
  { b with stopAt, ticks := 0, stopped }

def draw (grid : Grid) (b : Bench) : Except DeviceError Unit × Bench :=
  let (result, display) := b.display.draw grid
  (result, { b with display })

def key (b : Bench) : Except KeypadError UInt8 × Bench :=
  let (result, keypad) := b.keypad.query
  (result, { b with keypad })

def cue (b : Bench) : Except DeviceError Unit × Bench :=
  let (result, speaker) := b.speaker.cue
  (result, { b with speaker })

def tick (b : Bench) : Bench :=
  match b.stopAt with
  | none => b
  | some n => { b with ticks := b.ticks + 1, stopped := b.stopped || decide (n ≤ b.ticks + 1) }

def host : Host Bench := ⟨draw, key, cue⟩

def pace : Pace Bench := ⟨tick, stopped⟩

end Bench

/-- A fresh machine on a bench that has no display and makes no sound. -/
def Computer.onBench (keypad : Keypad) : Computer Bench :=
  ⟨.fresh {} 0, .ofDevices .null keypad (.mute 0)⟩

end Chip8
