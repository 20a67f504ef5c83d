/-! # The pixel grid

Sixty-four columns and thirty-two rows of pixels that are lit or dark. Sprites are drawn by
flipping, so drawing a sprite twice leaves no trace. -/

namespace Chip8

structure Grid where
  /-- Row after row, each from the left. -/
  pixels : Vector Bool 2048
deriving DecidableEq

namespace Grid

abbrev width : Nat := 64
abbrev height : Nat := 32

/-- The place of a pixel in the row order. -/
abbrev Cell := Fin 2048

/-- The cell in column `x` of row `y`. -/
def Cell.at (x : Fin width) (y : Fin height) : Cell :=
  ⟨y.val * width + x.val, by have := x.isLt; have := y.isLt; simp only [width, height] at *; omega⟩

/-- The cell that `x` steps right of the start of row `y` lead to, over the ends of rows. -/
def Cell.at? (x y : Nat) : Option Cell :=
  if h : y * width + x < 2048 then some ⟨y * width + x, h⟩ else none

def blank : Grid := ⟨Vector.replicate 2048 false⟩

def get (g : Grid) (c : Cell) : Bool := g.pixels[c]

/-- Flips a pixel, if `on`. -/
def flip (g : Grid) (c : Cell) (on : Bool) : Grid :=
  ⟨g.pixels.set c (g.get c ^^ on) c.isLt⟩

theorem get_flip (g : Grid) (c d : Cell) (on : Bool) :
    (g.flip c on).get d = if c = d then g.get d ^^ on else g.get d := by
  simp only [get, flip, Fin.getElem_fin, Vector.getElem_set, Fin.ext_iff]
  split <;> simp_all

@[simp] theorem get_blank (c : Cell) : blank.get c = false := by simp [blank, get]

/-- One byte for each pixel, one where it is lit. -/
def frame (g : Grid) : Array UInt8 := g.pixels.toArray.map fun lit ↦ if lit then 1 else 0

@[simp] theorem size_frame (g : Grid) : g.frame.size = 2048 := by simp [frame]

/-! ## Sprites -/

/-- A grid under the brush, and whether a pixel visited so far was lit. -/
structure Stroke where
  grid : Grid
  collision : Bool

/-- Visits one cell; a lit pixel collides even where the sprite is blank. -/
def Stroke.visit (s : Stroke) (c : Cell) (on : Bool) : Stroke :=
  ⟨s.grid.flip c on, s.collision || s.grid.get c⟩

/-- The `j`-th bit of a sprite row, counted from the left. -/
def bit (row : UInt8) (j : Fin 8) : Bool := row.toNat.testBit (7 - j.val)

/-- The column `j` to the right of `x`, around the edge. -/
def column (x : Nat) (j : Fin 8) : Fin width := ⟨(x + j.val) % width, Nat.mod_lt _ (by decide)⟩

/-- One sprite row, visited from the left. -/
def Stroke.row (s : Stroke) (bits : UInt8) (x : Nat) (y : Fin height) : Stroke :=
  (List.finRange 8).foldl (fun s j ↦ s.visit (.at (column x j) y) (bit bits j)) s

/-- The row that `y` stands for when an edge is crossed at most once. -/
def wrapOnce (y : Nat) : Nat := if y < height then y else y - height

/-- Draws rows from row `y` on. A row that is still below the grid after one wrap ends the
drawing and makes it incomplete. -/
def Stroke.rows (x y : Nat) : List UInt8 → Stroke → Stroke × Bool
  | [], s => (s, true)
  | bits :: rest, s =>
    if h : wrapOnce y < height then Stroke.rows x (y + 1) rest (s.row bits x ⟨wrapOnce y, h⟩)
    else (s, false)

/-- Draws a sprite with its top left corner at (`x`, `y`), reduced to the grid. The answer is the
collision, or nothing when a row fell off the grid; the rows before it stay drawn. -/
def drawSprite (g : Grid) (rows : List UInt8) (x y : UInt8) : Grid × Option Bool :=
  match Stroke.rows (x.toNat % width) (y.toNat % height) rows ⟨g, false⟩ with
  | (s, true) => (s.grid, some s.collision)
  | (s, false) => (s.grid, none)

/-! ## A sprite that fits -/

theorem Stroke.rows_complete {x y : Nat} {rows : List UInt8} {s : Stroke}
    (h : y + rows.length ≤ 2 * height) : (Stroke.rows x y rows s).2 = true := by
  induction rows generalizing y s with
  | nil => rfl
  | cons bits rest ih =>
    simp only [List.length_cons, height] at h
    have hy : wrapOnce y < height := by simp only [wrapOnce, height]; split <;> omega
    rw [Stroke.rows, dif_pos hy]
    exact ih (by simp only [height]; omega)

end Grid

end Chip8
