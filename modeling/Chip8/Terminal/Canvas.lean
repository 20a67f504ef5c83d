import Chip8.Numeral

/-! # Canvas points

Pixels as points of a canvas whose vertical axis points up: column `x` of row `y` is the point
(`x`, `-y`). The coordinates are whole, and zero has a sign. -/

namespace Chip8.Terminal

/-- A whole coordinate with a sign of its own. -/
structure Coordinate where
  negative : Bool
  magnitude : Nat
deriving DecidableEq, Repr

namespace Coordinate

def right (x : Nat) : Coordinate := ⟨false, x⟩

def down (y : Nat) : Coordinate := ⟨true, y⟩

def toInt (c : Coordinate) : Int := if c.negative then -(c.magnitude : Int) else c.magnitude

/-- The coordinate with one decimal place. -/
def text (c : Coordinate) : String :=
  (if c.negative then "-" else "") ++ Numeral.decimal c.magnitude ++ ".0"

end Coordinate

structure Point where
  x : Coordinate
  y : Coordinate
deriving DecidableEq, Repr

/-- The width and height of a canvas in pixels. -/
structure Resolution where
  width : Nat
  height : Nat
deriving DecidableEq, Repr

namespace Resolution

def pixelCount (r : Resolution) : Nat := r.width * r.height

/-- The leftmost and the rightmost coordinate; a canvas without columns has none. -/
def xBounds? (r : Resolution) : Option (Coordinate × Coordinate) :=
  if r.width = 0 then none else some (.right 0, .right (r.width - 1))

/-- The lowest and the highest coordinate; a canvas without rows has none. -/
def yBounds? (r : Resolution) : Option (Coordinate × Coordinate) :=
  if r.height = 0 then none else some (.down (r.height - 1), .right 0)

/-- The point of the pixel with index `i` in row order. -/
def point (r : Resolution) (i : Nat) : Point := ⟨.right (i % r.width), .down (i / r.width)⟩

/-- The indices below `n` whose byte is `value`, last one first. -/
def indicesBelow (data : Array UInt8) (value : UInt8) : Nat → List Nat
  | 0 => []
  | i + 1 => if data[i]? = some value then i :: indicesBelow data value i
    else indicesBelow data value i

/-- The points of the pixels whose byte is `value`, last pixel first. Bytes behind the last pixel
do not count, and with too few bytes there is no answer. -/
def points? (r : Resolution) (data : Array UInt8) (value : UInt8) : Option (List Point) :=
  if r.pixelCount ≤ data.size then
    some ((indicesBelow data value r.pixelCount).map r.point)
  else none

end Resolution

end Chip8.Terminal
