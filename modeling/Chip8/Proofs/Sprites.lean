import Chip8.Grid
import Mathlib.Data.List.FinRange
import Mathlib.Data.List.Nodup

/-! # Sprites as visits

A sprite visits cells one after the other, eight for each of its rows. What it makes of a grid
can be told from the list of its visits: a pixel is flipped once for each visit with a bit that
is set, and as long as no cell is visited twice, the collision is that of the grid before the
first visit. -/

namespace Chip8.Grid

/-! ## Cells around the edges -/

namespace Cell

theorem at_inj {x x' : Fin width} {y y' : Fin height} :
    Cell.at x y = Cell.at x' y' ↔ x = x' ∧ y = y' := by
  have hx := x.isLt
  have hx' := x'.isLt
  simp only [Cell.at, Fin.ext_iff, width] at *
  omega

/-- The cell in column `x` of row `y`, both counted around the edges. -/
def wrapped (x y : Nat) : Cell :=
  .at ⟨x % width, Nat.mod_lt _ (by decide)⟩ ⟨y % height, Nat.mod_lt _ (by decide)⟩

theorem wrapped_inj {x x' y y' : Nat} :
    wrapped x y = wrapped x' y' ↔ x % width = x' % width ∧ y % height = y' % height := by
  rw [wrapped, wrapped, at_inj, Fin.mk.injEq, Fin.mk.injEq]

theorem at_eq_wrapped {x y : Nat} {p : Fin width} {q : Fin height} :
    Cell.at p q = wrapped x y ↔ p.val = x % width ∧ q.val = y % height := by
  rw [wrapped, at_inj, Fin.ext_iff, Fin.ext_iff]

end Cell

/-! ## Visits -/

/-- A cell that is visited, and the bit of the sprite there. -/
abbrev Visit := Cell × Bool

variable {x y : Nat} {s : Stroke} {vs : List Visit}

/-- Visits one cell after the other. -/
def Stroke.visits (s : Stroke) (vs : List Visit) : Stroke := vs.foldl (fun s v ↦ s.visit v.1 v.2) s

theorem Stroke.visits_cons (s : Stroke) (v : Visit) (vs : List Visit) :
    s.visits (v :: vs) = (s.visit v.1 v.2).visits vs := rfl

theorem Stroke.visits_append (s : Stroke) (vs vs' : List Visit) :
    s.visits (vs ++ vs') = (s.visits vs).visits vs' :=
  List.foldl_append

/-- A pixel is flipped by each visit with a bit that is set. -/
theorem Stroke.get_visits (s : Stroke) (vs : List Visit) (c : Cell) :
    (s.visits vs).grid.get c = (s.grid.get c ^^ decide (vs.count (c, true) % 2 = 1)) := by
  induction vs generalizing s with
  | nil => exact (Bool.xor_false _).symm
  | cons v vs ih =>
    obtain ⟨d, on⟩ := v
    have hflip : (s.visit d on).grid.get c = (s.grid.get c ^^ (decide (d = c) && on)) := by
      rw [visit, get_flip]
      by_cases hd : d = c <;> simp [hd]
    have hparity (n : Nat) : decide ((n + 1) % 2 = 1) = !decide (n % 2 = 1) := by
      rw [← decide_not, decide_eq_decide]
      omega
    rw [visits_cons, ih, hflip, List.count_cons]
    by_cases hd : d = c
    · cases on <;> simp [hd, hparity]
    · simp [hd]

/-- Grids with the same pixels are the same. -/
@[ext]
theorem ext_get {g g' : Grid} (h : ∀ c, g.get c = g'.get c) : g = g' := by
  have hpixels : g.pixels = g'.pixels := by
    ext k hk
    exact h ⟨k, hk⟩
  exact congrArg Grid.mk hpixels

/-- What is drawn does not depend on the collision so far. -/
theorem Stroke.grid_visits_congr {s' : Stroke} (h : s.grid = s'.grid) (vs : List Visit) :
    (s.visits vs).grid = (s'.visits vs).grid := by
  ext c
  rw [get_visits, get_visits, h]

/-- A stroke collides wherever a pixel is lit at the time at which it is visited. -/
theorem Stroke.collision_visits_iff : (s.visits vs).collision = true ↔ s.collision = true ∨
    ∃ n, ∃ h : n < vs.length, (s.visits (vs.take n)).grid.get vs[n].1 = true := by
  induction vs generalizing s with
  | nil => simp [visits]
  | cons v vs ih =>
    have hfirst : (s.visit v.1 v.2).collision = true ↔ s.collision = true ∨ s.grid.get v.1 = true :=
      Bool.or_eq_true_iff
    rw [visits_cons, ih, hfirst, or_assoc]
    refine or_congr_right ⟨?_, ?_⟩
    · rintro (hlit | ⟨n, h, hlit⟩)
      · exact ⟨0, Nat.zero_lt_succ _, hlit⟩
      · exact ⟨n + 1, Nat.succ_lt_succ h, hlit⟩
    · rintro ⟨_ | n, h, hlit⟩
      · exact .inl hlit
      · exact .inr ⟨n, Nat.lt_of_succ_lt_succ h, hlit⟩

/-- Where no cell is visited twice, a pixel is flipped if it is visited with a bit that is set. -/
theorem Stroke.get_visits_of_nodup (h : (vs.map Prod.fst).Nodup) (c : Cell) :
    (s.visits vs).grid.get c = (s.grid.get c ^^ decide ((c, true) ∈ vs)) := by
  rw [get_visits, (h.of_map Prod.fst).count]
  by_cases hmem : (c, true) ∈ vs <;> simp [hmem]

/-- Where no cell is visited twice, a sprite collides with what was there before. -/
theorem Stroke.collision_visits_of_nodup (h : (vs.map Prod.fst).Nodup) :
    (s.visits vs).collision = (s.collision || vs.any fun v ↦ s.grid.get v.1) := by
  induction vs generalizing s with
  | nil => exact (Bool.or_false _).symm
  | cons v vs ih =>
    rw [List.map_cons, List.nodup_cons] at h
    have hlater : ∀ w ∈ vs, (s.visit v.1 v.2).grid.get w.1 = s.grid.get w.1 := by
      intro w hw
      have hne : v.1 ≠ w.1 := fun he ↦ h.1 (he ▸ List.mem_map_of_mem hw)
      rw [visit, get_flip, if_neg hne]
    have hany : (vs.any fun w ↦ (s.visit v.1 v.2).grid.get w.1) =
        vs.any fun w ↦ s.grid.get w.1 := by
      rw [Bool.eq_iff_iff]
      simp only [List.any_eq_true]
      exact exists_congr fun w ↦ and_congr_right fun hw ↦ by rw [hlater w hw]
    rw [visits_cons, ih h.2, hany, List.any_cons, ← Bool.or_assoc]
    rfl

/-! ## The visits of a sprite -/

/-- The visits of one row. -/
def rowVisits (x y : Nat) (bits : UInt8) : List Visit :=
  (List.finRange 8).map fun j ↦ (.wrapped (x + j.val) y, bit bits j)

/-- The visits of rows from row `y` on. -/
def spriteVisits (x : Nat) : Nat → List UInt8 → List Visit
  | _, [] => []
  | y, bits :: rest => rowVisits x y bits ++ spriteVisits x (y + 1) rest

theorem mem_spriteVisits {rows : List UInt8} {v : Visit} : v ∈ spriteVisits x y rows ↔
    ∃ k, ∃ h : k < rows.length, ∃ j : Fin 8, v = (.wrapped (x + j.val) (y + k), bit rows[k] j) := by
  induction rows generalizing y with
  | nil => simp [spriteVisits]
  | cons bits rest ih =>
    simp only [spriteVisits, List.mem_append, ih, rowVisits, List.mem_map, List.mem_finRange,
      true_and]
    constructor
    · rintro (⟨j, rfl⟩ | ⟨k, h, j, rfl⟩)
      · exact ⟨0, Nat.zero_lt_succ _, j, rfl⟩
      · exact ⟨k + 1, Nat.succ_lt_succ h, j, by rw [Nat.add_right_comm, Nat.add_assoc y k 1]; rfl⟩
    · rintro ⟨_ | k, h, j, rfl⟩
      · exact .inl ⟨j, rfl⟩
      · exact .inr ⟨k, Nat.lt_of_succ_lt_succ h, j, by
          rw [Nat.add_right_comm y 1 k, Nat.add_assoc y k 1]
          rfl⟩

/-- Only the rows and columns around the edges count. -/
theorem spriteVisits_congr {x' y' : Nat} (rows : List UInt8) (hx : x % width = x' % width)
    (hy : y % height = y' % height) : spriteVisits x y rows = spriteVisits x' y' rows := by
  induction rows generalizing y y' with
  | nil => rfl
  | cons bits rest ih =>
    have hcell (j : Fin 8) : Cell.wrapped (x + j) y = Cell.wrapped (x' + j) y' := by
      rw [Cell.wrapped_inj]
      simp only [width, height] at *
      omega
    have hnext : (y + 1) % height = (y' + 1) % height := by
      simp only [height] at *
      omega
    rw [spriteVisits, spriteVisits, rowVisits, rowVisits, ih hnext]
    simp only [hcell]

/-- A sprite with no more rows than the grid visits no cell twice. -/
theorem nodup_spriteVisits {rows : List UInt8} (h : rows.length ≤ height) :
    ((spriteVisits x y rows).map Prod.fst).Nodup := by
  induction rows generalizing y with
  | nil => exact List.nodup_nil
  | cons bits rest ih =>
    rw [List.length_cons] at h
    rw [spriteVisits, List.map_append, List.nodup_append]
    refine ⟨?_, ih (by omega), ?_⟩
    · -- The eight columns of a row are different ones.
      rw [rowVisits, List.map_map]
      refine (List.nodup_finRange 8).map fun j j' he ↦ ?_
      have hj := (Cell.wrapped_inj.1 he).1
      simp only [width] at hj
      omega
    · -- The rows behind it are different from the first one.
      intro c hc d hd he
      obtain ⟨_, hv, rfl⟩ := List.mem_map.1 hc
      obtain ⟨_, hw, rfl⟩ := List.mem_map.1 hd
      obtain ⟨j, _, rfl⟩ := List.mem_map.1 hv
      obtain ⟨k, hk, j', rfl⟩ := mem_spriteVisits.1 hw
      have hy := (Cell.wrapped_inj.1 he).2
      simp only [height] at h hy
      omega

/-! ## Drawing -/

theorem Stroke.row_eq_visits (s : Stroke) (bits : UInt8) (x : Nat) {y : Nat} (q : Fin height)
    (hq : q.val = y % height) : s.row bits x q = s.visits (rowVisits x y bits) := by
  have hcell (j : Fin 8) : Cell.at (column x j) q = .wrapped (x + j) y :=
    Cell.at_eq_wrapped.2 ⟨rfl, hq⟩
  simp only [row, visits, rowVisits, List.foldl_map, hcell]

theorem wrapOnce_eq (h : y < 2 * height) : wrapOnce y = y % height := by
  simp only [wrapOnce, height] at *
  split <;> omega

/-- The rows that are drawn are those that need to be wrapped once at most. -/
theorem Stroke.rows_eq {rows : List UInt8} (hy : y ≤ 2 * height) :
    Stroke.rows x y rows s = (s.visits (spriteVisits x y (rows.take (2 * height - y))),
      decide (y + rows.length ≤ 2 * height)) := by
  induction rows generalizing y s with
  | nil =>
    rw [List.take_nil, List.length_nil, Nat.add_zero, decide_eq_true hy]
    rfl
  | cons bits rest ih =>
    obtain hlt | rfl := Nat.lt_or_eq_of_le hy
    · have hwrap : wrapOnce y = y % height := wrapOnce_eq hlt
      have hrow : wrapOnce y < height := hwrap ▸ Nat.mod_lt _ (by decide)
      have htake : 2 * height - y = 2 * height - (y + 1) + 1 := by omega
      rw [Stroke.rows, dif_pos hrow, ih (Nat.succ_le_of_lt hlt), row_eq_visits s bits x _ hwrap,
        htake, List.take_succ_cons, spriteVisits, visits_append, List.length_cons,
        Nat.add_right_comm y 1]
      rfl
    · -- This row and all behind it are below the grid.
      have hlow : ¬ 2 * height + (bits :: rest).length ≤ 2 * height := by
        rw [List.length_cons]
        omega
      rw [Stroke.rows, dif_neg (by decide), Nat.sub_self, List.take_zero, decide_eq_false hlow]
      rfl

/-- Rows that need to be wrapped once at most are all drawn. -/
theorem Stroke.rows_eq_visits {rows : List UInt8} (h : y + rows.length ≤ 2 * height) :
    Stroke.rows x y rows s = (s.visits (spriteVisits x y rows), true) := by
  rw [rows_eq (Nat.le_of_add_right_le h), List.take_of_length_le (by omega), decide_eq_true h]

/-- A sprite is its visits, if none of its rows falls off the grid. -/
theorem drawSprite_eq_visits (g : Grid) {rows : List UInt8} {x y : UInt8}
    (h : y.toNat % height + rows.length ≤ 2 * height) :
    g.drawSprite rows x y =
      (((⟨g, false⟩ : Stroke).visits (spriteVisits x.toNat y.toNat rows)).grid,
        some ((⟨g, false⟩ : Stroke).visits (spriteVisits x.toNat y.toNat rows)).collision) := by
  have hmod : spriteVisits (x.toNat % width) (y.toNat % height) rows =
      spriteVisits x.toNat y.toNat rows :=
    spriteVisits_congr rows (Nat.mod_mod _ _) (Nat.mod_mod _ _)
  rw [drawSprite, Stroke.rows_eq_visits h, hmod]

end Chip8.Grid
