import Chip8.Grid
import Chip8.Error

/-! # What a machine needs from outside

The devices around a machine and the pace of its run loop, as functions on the state `ε` of
everything that is not the machine. -/

namespace Chip8

/-- The devices: each call answers and leaves the outside in a new state. -/
structure Host (ε : Type) where
  /-- Offers a grid to the display. -/
  draw : Grid → ε → Except DeviceError Unit × ε
  /-- Asks the keypad for the key that is held. -/
  key : ε → Except KeypadError UInt8 × ε
  /-- Sounds the cue of the sound timer. -/
  cue : ε → Except DeviceError Unit × ε

/-- The pace of a run loop. -/
structure Pace (ε : Type) where
  /-- Passes the time until the next cycle is due. -/
  tick : ε → ε
  /-- Whether somebody has asked the run loop to stop. -/
  stopRequested : ε → Bool

end Chip8
