import Chip8.Error
import Chip8.Grid
import Chip8.Terminal.Screen

/-! # Displays

What a machine can draw to: a recorder that counts, nothing at all, or the terminal screen. -/

namespace Chip8

/-- A display that counts what it is offered and keeps the last grid it took. -/
structure Recorder where
  draws : Nat
  last : Option Grid
  /-- The number of the draw from which on all fail, counting from one. -/
  failFrom : Option Nat
deriving DecidableEq

namespace Recorder

def ofFailFrom (failFrom : Option Nat) : Recorder := ⟨0, none, failFrom⟩

/-- A draw that fails is counted, but its grid is not kept. -/
def draw (r : Recorder) (grid : Grid) : Except DeviceError Unit × Recorder :=
  let r := { r with draws := r.draws + 1 }
  match r.failFrom with
  | none => (.ok (), { r with last := some grid })
  | some n =>
    if n ≤ r.draws then (.error ⟨"display gone"⟩, r) else (.ok (), { r with last := some grid })

end Recorder

inductive Display
  | recorder (r : Recorder)
  /-- Takes everything and shows nothing. -/
  | null
  | screen (s : Terminal.Screen)
deriving DecidableEq

namespace Display

/-- Draws a frame of one byte a pixel; only the screen minds how many there are. -/
def drawFrame (data : Array UInt8) : Display → Except DeviceError Unit × Display
  | screen s =>
    match Terminal.Screen.draw data with
    | .ok s => (.ok (), screen s)
    | .error e => (.error e, screen s)
  | d => (.ok (), d)

def draw (grid : Grid) : Display → Except DeviceError Unit × Display
  | recorder r => let (result, r) := r.draw grid; (result, recorder r)
  | d => d.drawFrame grid.frame

end Display

end Chip8
