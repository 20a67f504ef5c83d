import Chip8.Error
import Chip8.Grid
import Chip8.Terminal.Canvas

/-! # The terminal screen

A box of 66 columns and 34 rows whose inside shows the grid, one cell a pixel. -/

namespace Chip8.Terminal

structure Screen where
  /-- Row after row, each from the left. -/
  cells : Vector Char 2244
deriving DecidableEq

namespace Screen

abbrev columns : Nat := 66
abbrev rows : Nat := 34

/-- The canvas inside the box. -/
def resolution : Resolution := ⟨Grid.width, Grid.height⟩

/-- The character in column `x` of row `y`, a blank outside the screen. -/
def cell (s : Screen) (x y : Nat) : Char :=
  if x < columns then s.cells.toArray.getD (y * columns + x) ' ' else ' '

/-- A screen on which nothing has been drawn. -/
def empty : Screen := ⟨Vector.replicate 2244 ' '⟩

/-- What is written into the upper edge, right after the corner. -/
def title : List Char := ['C', 'H', 'I', 'P', '-', '8']

/-- What stands for a lit pixel. -/
def block : Char := '▄'

/-- The box without its content. -/
def boxCell (x y : Nat) : Char :=
  if y = 0 then
    if x = 0 then '┌' else if x = columns - 1 then '┐' else title.getD (x - 1) '─'
  else if y = rows - 1 then
    if x = 0 then '└' else if x = columns - 1 then '┘' else '─'
  else if x = 0 ∨ x = columns - 1 then '│' else ' '

def box : Screen := ⟨Vector.ofFn fun i ↦ boxCell (i.val % columns) (i.val / columns)⟩

/-- Paints a canvas point: the point (`x`, `-y`) is the cell in column `x` and row `y` inside the
box. Points outside the box are not painted. -/
def paint (s : Screen) (p : Point) : Screen :=
  let x := p.x.toInt
  let y := -p.y.toInt
  if 0 ≤ x ∧ x < Grid.width ∧ 0 ≤ y ∧ y < Grid.height then
    ⟨s.cells.setIfInBounds ((y.toNat + 1) * columns + x.toNat + 1) block⟩
  else s

/-- Draws a frame of one byte a pixel on a new screen: pixels that are one are lit. -/
def draw (data : Array UInt8) : Except DeviceError Screen :=
  if data.size = resolution.pixelCount then
    match resolution.points? data 1 with
    | some points => .ok (points.foldl paint box)
    | none => .ok box
  else
    .error ⟨"MonoTermDisplay needs " ++ Numeral.decimal resolution.pixelCount ++
      " pixels to draw, got " ++ Numeral.decimal data.size⟩

def line (s : Screen) (y : Nat) : String :=
  String.ofList ((List.range columns).map fun x ↦ s.cell x y)

def lines (s : Screen) : List String := (List.range rows).map s.line

end Screen

end Chip8.Terminal
