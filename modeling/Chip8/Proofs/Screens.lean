import Chip8.Display
import Mathlib.Data.List.Basic

/-! # What a screen shows

A frame is painted on a new box, point by point, so that a screen tells of the latest frame that was
accepted and of no other. Its lines are a box around one character for each pixel. -/

namespace Chip8.Terminal

/-! ## Points -/

namespace Resolution

variable {r : Resolution} {i n : Nat} {data : Array UInt8} {value : UInt8}

/-- The point lies within the bounds of the canvas. -/
def Contains (r : Resolution) (p : Point) : Prop :=
  ∃ left right low high, r.xBounds? = some (left, right) ∧ r.yBounds? = some (low, high) ∧
    (left.toInt ≤ p.x.toInt ∧ p.x.toInt ≤ right.toInt) ∧
    (low.toInt ≤ p.y.toInt ∧ p.y.toInt ≤ high.toInt)

@[simp] theorem toInt_right (x : Nat) : (Coordinate.right x).toInt = x := rfl

@[simp] theorem toInt_down (y : Nat) : (Coordinate.down y).toInt = -(y : Int) := rfl

/-- Every pixel has a point on the canvas. -/
theorem contains_point (h : i < r.pixelCount) : r.Contains (r.point i) := by
  have hpos : 0 < r.width * r.height := Nat.zero_lt_of_lt h
  have hw : 0 < r.width := Nat.pos_of_mul_pos_right hpos
  have hh : 0 < r.height := Nat.pos_of_mul_pos_left hpos
  have hx : i % r.width < r.width := Nat.mod_lt _ hw
  have hy : i / r.width < r.height := Nat.div_lt_of_lt_mul h
  refine ⟨_, _, _, _, if_neg (Nat.ne_of_gt hw), if_neg (Nat.ne_of_gt hh), ?_⟩
  simp only [point, toInt_right, toInt_down]
  generalize i % r.width = a at *
  generalize i / r.width = b at *
  omega

theorem mem_indicesBelow :
    i ∈ indicesBelow data value n ↔ i < n ∧ data[i]? = some value := by
  induction n with
  | zero => simp [indicesBelow]
  | succ n ih =>
    have hsucc : i < n + 1 ↔ i = n ∨ i < n := by omega
    rw [indicesBelow]
    split
    · next h =>
      rw [List.mem_cons, ih, hsucc, or_and_right]
      exact or_congr_left ⟨fun he ↦ ⟨he, he ▸ h⟩, And.left⟩
    · next h =>
      rw [ih, hsucc, or_and_right, or_iff_right]
      rintro ⟨rfl, he⟩
      exact h he

end Resolution

namespace Screen

variable {s : Screen} {x y : Nat} {data : Array UInt8}

/-! ## Painting -/

theorem cell_of_lt (s : Screen) (hx : x < columns) :
    s.cell x y = s.cells.toArray.getD (y * columns + x) ' ' := if_pos hx

/-- The point is painted on the cell in column `x` of row `y`; the border comes before both. -/
def Marks (p : Point) (x y : Nat) : Prop := (x : Int) = p.x.toInt + 1 ∧ (y : Int) = 1 - p.y.toInt

instance (p : Point) (x y : Nat) : Decidable (Marks p x y) :=
  inferInstanceAs (Decidable (_ ∧ _))

/-- A point within the bounds of the canvas is painted on its cell. -/
theorem cell_paint {p : Point} (h : resolution.Contains p) (hx : x < columns) :
    (s.paint p).cell x y = if Marks p x y then block else s.cell x y := by
  obtain ⟨_, _, _, _, hxs, hys, hpx, hpy⟩ := h
  cases hxs
  cases hys
  simp only [resolution, Resolution.toInt_right, Resolution.toInt_down, Grid.width, Grid.height]
    at hpx hpy
  have hinside : 0 ≤ p.x.toInt ∧ p.x.toInt < Grid.width ∧ 0 ≤ -p.y.toInt ∧
      -p.y.toInt < Grid.height := by
    simp only [Grid.width, Grid.height]
    omega
  have hlt : ((-p.y.toInt).toNat + 1) * columns + p.x.toInt.toNat + 1 < 2244 := by
    simp only [columns]
    omega
  have hindex : ((-p.y.toInt).toNat + 1) * columns + p.x.toInt.toNat + 1 = y * columns + x ↔
      Marks p x y := by
    simp only [columns, Marks] at hx ⊢
    omega
  rw [cell_of_lt _ hx, cell_of_lt _ hx]
  simp only [paint, if_pos hinside, Array.getD_eq_getD_getElem?, Vector.toArray_setIfInBounds,
    Array.getElem?_setIfInBounds, hindex, Vector.size_toArray, if_pos hlt]
  split <;> rfl

theorem cell_foldl_paint {points : List Point} (h : ∀ p ∈ points, resolution.Contains p)
    (hx : x < columns) : (points.foldl paint s).cell x y =
      if ∃ p ∈ points, Marks p x y then block else s.cell x y := by
  induction points generalizing s with
  | nil => simp
  | cons p points ih =>
    obtain ⟨hp, hpoints⟩ := List.forall_mem_cons.1 h
    rw [List.foldl_cons, ih hpoints, cell_paint hp hx]
    simp only [List.exists_mem_cons_iff]
    by_cases hm : Marks p x y <;> simp [hm]

theorem cell_box (hx : x < columns) (hy : y < rows) : box.cell x y = boxCell x y := by
  simp only [columns, rows] at hx hy
  have hindex : y * 66 + x < 2244 := by omega
  have hdiv : (y * 66 + x) / 66 = y := by omega
  have hmod : (y * 66 + x) % 66 = x := by omega
  rw [cell_of_lt _ hx, box]
  simp [Array.getD_eq_getD_getElem?, hindex, hdiv, hmod]

/-! ## Frames -/

/-- What is drawn for a byte of a frame, or where it has none. -/
def mark (byte : Option UInt8) : Char := if byte = some 1 then block else ' '

theorem marks_point {i : Nat} :
    Marks (resolution.point i) x y ↔ (0 < x ∧ x ≤ 64 ∧ 0 < y) ∧ i = (y - 1) * 64 + (x - 1) := by
  simp only [Marks, Resolution.point, resolution, Resolution.toInt_right, Resolution.toInt_down,
    Grid.width]
  omega

/-- The screen that a frame is drawn on. -/
def ofFrame (data : Array UInt8) : Screen :=
  ((Resolution.indicesBelow data 1 resolution.pixelCount).map resolution.point).foldl paint box

/-- The cell in column `x` of row `y` lies inside the border. -/
def Inside (x y : Nat) : Prop := (0 < x ∧ x ≤ 64) ∧ 0 < y ∧ y ≤ 32

instance (x y : Nat) : Decidable (Inside x y) := inferInstanceAs (Decidable (_ ∧ _))

theorem boxCell_of_inside (h : Inside x y) : boxCell x y = ' ' := by
  obtain ⟨⟨hx, hx'⟩, hy, hy'⟩ := h
  have hcolumn : ¬ (x = 0 ∨ x = columns - 1) := by
    simp only [columns]
    omega
  have hrow : y ≠ rows - 1 := by
    simp only [rows]
    omega
  rw [boxCell, if_neg (Nat.ne_of_gt hy), if_neg hrow, if_neg hcolumn]

theorem marked_iff : (∃ p ∈ (Resolution.indicesBelow data 1 resolution.pixelCount).map
    resolution.point, Marks p x y) ↔ Inside x y ∧ data[(y - 1) * 64 + (x - 1)]? = some 1 := by
  have hcount : resolution.pixelCount = 2048 := rfl
  constructor
  · rintro ⟨_, hp, hm⟩
    obtain ⟨i, hi, rfl⟩ := List.mem_map.1 hp
    obtain ⟨hlt, hdata⟩ := Resolution.mem_indicesBelow.1 hi
    obtain ⟨⟨hx, hx', hy⟩, rfl⟩ := marks_point.1 hm
    exact ⟨⟨⟨hx, hx'⟩, hy, by omega⟩, hdata⟩
  · rintro ⟨⟨⟨hx, hx'⟩, hy, hy'⟩, hdata⟩
    refine ⟨_, List.mem_map_of_mem (Resolution.mem_indicesBelow.2 ⟨?_, hdata⟩),
      marks_point.2 ⟨⟨hx, hx', hy⟩, rfl⟩⟩
    omega

/-- Inside the border there is one cell for each byte, and nothing else is drawn over the box. -/
theorem cell_ofFrame (data : Array UInt8) (hx : x < columns) (hy : y < rows) :
    (ofFrame data).cell x y =
      if Inside x y then mark data[(y - 1) * 64 + (x - 1)]? else boxCell x y := by
  have hpoints : ∀ p ∈ (Resolution.indicesBelow data 1 resolution.pixelCount).map resolution.point,
      resolution.Contains p := by
    intro p hp
    obtain ⟨i, hi, rfl⟩ := List.mem_map.1 hp
    exact Resolution.contains_point (Resolution.mem_indicesBelow.1 hi).1
  rw [ofFrame, cell_foldl_paint hpoints hx, cell_box hx hy]
  simp only [marked_iff]
  by_cases hin : Inside x y
  · simp only [hin, true_and, if_true, mark, boxCell_of_inside hin]
  · simp only [hin, false_and, if_false]

theorem draw_of_size_eq (h : data.size = 2048) : draw data = .ok (ofFrame data) := by
  have hcount : data.size = resolution.pixelCount := h
  rw [draw, if_pos hcount, Resolution.points?, if_pos (Nat.le_of_eq hcount.symm)]
  rfl

/-! ## Lines -/

/-- A line of `middle` between two borders. -/
def lined (left : String) (middle : List Char) (right : String) : String :=
  left ++ String.ofList middle ++ right

/-- The lines of a box around 32 rows of 64 characters. -/
def framed (inside : Nat → Nat → Char) : List String :=
  lined "┌CHIP-8" (List.replicate 58 '─') "┐" ::
    (List.range 32).map (fun y ↦ lined "│" ((List.range 64).map fun x ↦ inside x y) "│") ++
  [lined "└" (List.replicate 64 '─') "┘"]

/-- Two more numbers, one of them at each end. -/
theorem range_add_two (n : Nat) :
    List.range (n + 2) = 0 :: (List.range n).map (· + 1) ++ [n + 1] := by
  rw [List.range_succ, List.range_succ_eq_map]

theorem line_congr {f : Nat → Char} (h : ∀ x < columns, s.cell x y = f x) :
    s.line y = String.ofList ((List.range columns).map f) :=
  congrArg String.ofList (List.map_congr_left fun x hx ↦ h x (List.mem_range.1 hx))

theorem size_lines (s : Screen) :
    s.lines.length = 34 ∧ ∀ line ∈ s.lines, line.length = 66 := by
  refine ⟨by simp [lines, rows], fun text h ↦ ?_⟩
  obtain ⟨y, _, rfl⟩ := List.mem_map.1 h
  simp [line, columns]

theorem line_ofFrame_of_border (data : Array UInt8) (hy : y = 0 ∨ y = 33) :
    (ofFrame data).line y = String.ofList ((List.range columns).map fun x ↦ boxCell x y) := by
  refine line_congr fun x hx ↦ ?_
  have hout : ¬ Inside x y := by
    rintro ⟨_, _, _⟩
    omega
  have hlt : y < rows := by
    simp only [rows]
    omega
  rw [cell_ofFrame data hx hlt, if_neg hout]

theorem cell_ofFrame_of_border (data : Array UInt8) (hx : x = 0 ∨ x = columns - 1) (hy : y < 32) :
    (ofFrame data).cell x (y + 1) = '│' := by
  have hcolumn : x < columns := by
    simp only [columns] at hx ⊢
    omega
  have hrow : y + 1 < rows := by
    simp only [rows]
    omega
  have hout : ¬ Inside x (y + 1) := by
    rintro ⟨⟨_, _⟩, _⟩
    simp only [columns] at hx
    omega
  have hlast : y + 1 ≠ rows - 1 := by
    simp only [rows]
    omega
  rw [cell_ofFrame data hcolumn hrow, if_neg hout, boxCell, if_neg (Nat.succ_ne_zero y),
    if_neg hlast, if_pos hx]

theorem line_ofFrame_succ (data : Array UInt8) (hy : y < 32) : (ofFrame data).line (y + 1) =
    lined "│" ((List.range 64).map fun x ↦ mark data[y * 64 + x]?) "│" := by
  have hrow : y + 1 < rows := by
    simp only [rows]
    omega
  have hmiddle : (List.range 64).map ((fun x ↦ (ofFrame data).cell x (y + 1)) ∘ (· + 1)) =
      (List.range 64).map fun x ↦ mark data[y * 64 + x]? := by
    refine List.map_congr_left fun x hx ↦ ?_
    have hlt := List.mem_range.1 hx
    have hcolumn : x + 1 < columns := by
      simp only [columns]
      omega
    show (ofFrame data).cell (x + 1) (y + 1) = _
    rw [cell_ofFrame data hcolumn hrow, if_pos ⟨⟨by omega, by omega⟩, by omega, by omega⟩]
    rfl
  have hright : (ofFrame data).cell (64 + 1) (y + 1) = '│' :=
    cell_ofFrame_of_border data (.inr rfl) hy
  rw [line, columns, range_add_two, List.map_append, List.map_cons, List.map_map, hmiddle,
    List.map_singleton, cell_ofFrame_of_border data (.inl rfl) hy, hright, List.cons_append,
    ← List.singleton_append, String.ofList_append, String.ofList_append, ← String.append_assoc]
  rfl

/-- The screen of a frame is a box with one character inside for each of its bytes. -/
theorem lines_ofFrame (data : Array UInt8) :
    (ofFrame data).lines = framed fun x y ↦ mark data[y * 64 + x]? := by
  have htop : String.ofList ((List.range columns).map fun x ↦ boxCell x 0) =
      lined "┌CHIP-8" (List.replicate 58 '─') "┐" := by
    decide +kernel
  have hbottom : String.ofList ((List.range columns).map fun x ↦ boxCell x 33) =
      lined "└" (List.replicate 64 '─') "┘" := by
    decide +kernel
  have hmiddle : (List.range 32).map ((ofFrame data).line ∘ (· + 1)) =
      (List.range 32).map fun y ↦
        lined "│" ((List.range 64).map fun x ↦ mark data[y * 64 + x]?) "│" :=
    List.map_congr_left fun y hy ↦ line_ofFrame_succ data (List.mem_range.1 hy)
  rw [lines, rows, range_add_two, List.map_append, List.map_cons, List.map_map, hmiddle,
    List.map_singleton, line_ofFrame_of_border data (.inl rfl),
    line_ofFrame_of_border data (.inr rfl), htop, hbottom]
  rfl

end Screen

end Chip8.Terminal
