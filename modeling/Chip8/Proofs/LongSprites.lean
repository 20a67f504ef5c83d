import Chip8.Proofs.Invariant
import Chip8.Proofs.Sprites
import Mathlib.Algebra.BigOperators.Fin
import Mathlib.Data.Fintype.BigOperators

/-! # Sprites of any length

A sprite may have more rows than the grid. From the thirty-third on, rows are drawn over earlier
ones, so that a pixel can be flipped more than once and can be lit or dark by the time it is visited
again. A row that would have to be wrapped twice ends the drawing, and the rows before it stay. -/

namespace Chip8.Grid

variable {x y : Nat} {s : Stroke} {rows : List UInt8}

/-! ## Bits over a pixel -/

/-- The set bits of a sprite, by row and column, that fall on the pixel in column `p` of row `q`
when the corner of the sprite is in column `x` of row `y`. -/
def bitsOver (rows : List UInt8) (x y : Nat) (p : Fin width) (q : Fin height) :
    Finset (Fin rows.length × Fin 8) :=
  Finset.univ.filter fun b ↦ p.val = (x + b.2.val) % 64 ∧ q.val = (y + b.1.val) % 32 ∧
    rows[b.1].toNat.testBit (7 - b.2.val) = true

/-- Over each pixel, the bits of a sprite are those of its rows. -/
theorem card_bitsOver_cons (bits : UInt8) (rest : List UInt8) (x y : Nat) (p : Fin width)
    (q : Fin height) : (bitsOver (bits :: rest) x y p q).card =
      (rowVisits x y bits).count (.at p q, true) + (bitsOver rest x (y + 1) p q).card := by
  have hrow : (rowVisits x y bits).count (.at p q, true) = (Finset.univ.filter fun j : Fin 8 ↦
      p.val = (x + j.val) % 64 ∧ q.val = y % 32 ∧ bits.toNat.testBit (7 - j.val) = true).card := by
    rw [rowVisits, List.count_eq_countP, List.countP_map, List.countP_eq_length_filter]
    change _ = ((List.finRange 8).filter _).length
    congr 2
    ext j
    rw [Function.comp_apply, beq_eq_decide, decide_eq_decide, Prod.mk.injEq, eq_comm,
      Cell.at_eq_wrapped, and_assoc]
    rfl
  simp only [bitsOver, Finset.card_filter, Fintype.sum_prod_type] at hrow ⊢
  rw [hrow]
  refine (Fin.sum_univ_succ (n := rest.length) _).trans (congrArg₂ _ rfl ?_)
  refine Finset.sum_congr rfl fun k _ ↦ Finset.sum_congr rfl fun j _ ↦ ?_
  rw [Fin.val_succ, ← Nat.add_assoc, Nat.add_right_comm y k.val 1]
  rfl

/-- The set bits over a pixel are the visits with such a bit. -/
theorem count_spriteVisits (p : Fin width) (q : Fin height) :
    (spriteVisits x y rows).count (.at p q, true) = (bitsOver rows x y p q).card := by
  induction rows generalizing y with
  | nil => rfl
  | cons bits rest ih => rw [spriteVisits, List.count_append, ih, card_bitsOver_cons]

/-! ## Collisions at the time of a visit -/

theorem fst_getElem_rowVisits (bits : UInt8) {n : Nat} (h : n < (rowVisits x y bits).length) :
    (rowVisits x y bits)[n].1 = .wrapped (x + n) y := by
  simp [rowVisits]

/-- The pixel under column `j` of row `k` is lit when it is visited: all rows before that row are
drawn by then, and all columns before that column. -/
def Stroke.LitAt (s : Stroke) (x y : Nat) (rows : List UInt8) (k : Nat) (j : Fin 8) : Prop :=
  ∃ h : k < rows.length, ((s.visits (spriteVisits x y (rows.take k))).visits
    ((rowVisits x (y + k) rows[k]).take j)).grid.get (.wrapped (x + j.val) (y + k)) = true

/-- Rows that come later make no difference. -/
theorem Stroke.litAt_take {k n : Nat} (h : k < n) (j : Fin 8) :
    s.LitAt x y (rows.take n) k j ↔ s.LitAt x y rows k j := by
  simp only [LitAt, List.length_take, Nat.lt_min, h, true_and, List.take_take, Nat.min_eq_left h.le,
    List.getElem_take]

/-- A sprite collides iff one of its pixels is lit when it is visited. -/
theorem Stroke.collision_sprite_iff : (s.visits (spriteVisits x y rows)).collision = true ↔
    s.collision = true ∨ ∃ k j, s.LitAt x y rows k j := by
  induction rows generalizing s y with
  | nil => simp [spriteVisits, visits, LitAt]
  | cons bits rest ih =>
    have hlength : (rowVisits x y bits).length = 8 := by simp [rowVisits]
    have hrow (k : Nat) : y + (k + 1) = y + 1 + k := by omega
    rw [spriteVisits, visits_append, ih, collision_visits_iff, or_assoc]
    refine or_congr_right ⟨?_, ?_⟩
    · rintro (⟨n, h, hlit⟩ | ⟨k, j, h, hlit⟩)
      · rw [fst_getElem_rowVisits] at hlit
        exact ⟨0, ⟨n, hlength ▸ h⟩, Nat.zero_lt_succ _, hlit⟩
      · refine ⟨k + 1, j, Nat.succ_lt_succ h, ?_⟩
        rw [List.take_succ_cons, spriteVisits, visits_append, hrow k]
        exact hlit
    · rintro ⟨_ | k, j, h, hlit⟩
      · refine .inl ⟨j, hlength.symm ▸ j.isLt, ?_⟩
        rw [fst_getElem_rowVisits]
        exact hlit
      · refine .inr ⟨k, j, Nat.lt_of_succ_lt_succ h, ?_⟩
        rw [List.take_succ_cons, spriteVisits, visits_append, hrow k] at hlit
        exact hlit

/-- A sprite with no more rows than the grid collides with what was there before it. -/
theorem Stroke.collision_short_iff (h : rows.length ≤ height) :
    (s.visits (spriteVisits x y rows)).collision = true ↔ s.collision = true ∨
      ∃ k < rows.length, ∃ j < 8, s.grid.get (.wrapped (x + j) (y + k)) = true := by
  rw [collision_visits_of_nodup (nodup_spriteVisits h), Bool.or_eq_true_iff, List.any_eq_true]
  refine or_congr_right ⟨?_, ?_⟩
  · rintro ⟨_, hv, hlit⟩
    obtain ⟨k, hk, j, rfl⟩ := mem_spriteVisits.1 hv
    exact ⟨k, hk, j, j.isLt, hlit⟩
  · rintro ⟨k, hk, j, hj, hlit⟩
    exact ⟨_, mem_spriteVisits.2 ⟨k, hk, ⟨j, hj⟩, rfl⟩, hlit⟩

/-- Among the first rows it makes no difference when a pixel is visited. -/
theorem Stroke.litAt_first_iff (hs : s.collision = false) :
    (∃ k < height, ∃ j, s.LitAt x y rows k j) ↔
      ∃ k < min height rows.length, ∃ j < 8, s.grid.get (.wrapped (x + j) (y + k)) = true := by
  have htake : (∃ k < height, ∃ j, s.LitAt x y rows k j) ↔
      ∃ k j, s.LitAt x y (rows.take height) k j := by
    constructor
    · rintro ⟨k, hk, j, hlit⟩
      exact ⟨k, j, (litAt_take hk j).2 hlit⟩
    · rintro ⟨k, j, hlit⟩
      have hk : k < height := Nat.lt_of_lt_of_le hlit.1 (List.length_take_le _ _)
      exact ⟨k, hk, j, (litAt_take hk j).1 hlit⟩
  have hcollision : (s.visits (spriteVisits x y (rows.take height))).collision = true ↔ _ :=
    collision_sprite_iff
  have hshort : (s.visits (spriteVisits x y (rows.take height))).collision = true ↔ _ :=
    collision_short_iff (List.length_take_le height rows)
  rw [hs, List.length_take] at hshort
  rw [hs] at hcollision
  simp only [Bool.false_eq_true, false_or] at hshort hcollision
  rw [htake, ← hcollision, hshort]

/-! ## Any number of rows -/

/-- The grid when a sprite comes to column `j` of its row `k`. -/
def gridAt (g : Grid) (rows : List UInt8) (x y : UInt8) (k : Fin rows.length) (j : Fin 8) : Grid :=
  ((⟨(g.drawSprite (rows.take k) x y).1, false⟩ : Stroke).visits
    ((rowVisits x.toNat (y.toNat + k) rows[k]).take j)).grid

/-- What comes of drawing a sprite with any number of rows. -/
structure DrawsRows (g : Grid) (rows : List UInt8) (x y : UInt8) : Prop where
  breaksOff : (g.drawSprite rows x y).2 = none ↔ 64 < y.toNat % 32 + rows.length
  /-- A drawing that breaks off is that of the rows for which there is a place. -/
  drawn : 64 < y.toNat % 32 + rows.length → ∃ collision,
    g.drawSprite (rows.take (64 - y.toNat % 32)) x y = ((g.drawSprite rows x y).1, some collision)
  /-- A pixel is flipped once for each set bit that falls on it. -/
  pixel : y.toNat % 32 + rows.length ≤ 64 → ∀ p q, (g.drawSprite rows x y).1.get (.at p q) =
    (g.get (.at p q) ^^ decide (Odd (bitsOver rows x.toNat y.toNat p q).card))
  /-- Bits that are not set count, too. -/
  collides : rows.length ≤ 32 → ((g.drawSprite rows x y).2 = some true ↔
    ∃ k < rows.length, ∃ j < 8, g.get (.wrapped (x.toNat + j) (y.toNat + k)) = true)
  /-- Rows that are drawn over others find what these have left. -/
  collidesLater : 32 < rows.length → y.toNat % 32 + rows.length ≤ 64 →
    ((g.drawSprite rows x y).2 = some true ↔
      (∃ k < 32, ∃ j < 8, g.get (.wrapped (x.toNat + j) (y.toNat + k)) = true) ∨
        ∃ k : Fin rows.length, 32 ≤ k.val ∧ ∃ j : Fin 8,
          (g.gridAt rows x y k j).get (.wrapped (x.toNat + j) (y.toNat + k)) = true)
  frame : ∀ b ∈ (g.drawSprite rows x y).1.frame, b = 0 ∨ b = 1

/-- The rows that are wrapped once at most. -/
theorem add_length_take_le (rows : List UInt8) (y : UInt8) :
    y.toNat % height + (rows.take (2 * height - y.toNat % height)).length ≤ 2 * height := by
  have hy : y.toNat % height < height := Nat.mod_lt _ (by decide)
  rw [List.length_take]
  omega

/-- The drawing breaks off at the first row that would have to be wrapped twice. -/
theorem drawSprite_of_breaksOff (g : Grid) {x y : UInt8}
    (h : 2 * height < y.toNat % height + rows.length) : g.drawSprite rows x y =
      ((g.drawSprite (rows.take (2 * height - y.toNat % height)) x y).1, none) := by
  have hy : y.toNat % height ≤ 2 * height := by
    simp only [height]
    omega
  have hbreaks : ¬ y.toNat % height + rows.length ≤ 2 * height := Nat.not_le_of_lt h
  have hfits := add_length_take_le rows y
  rw [drawSprite, drawSprite, Stroke.rows_eq hy, Stroke.rows_eq_visits hfits,
    decide_eq_false hbreaks]

theorem gridAt_eq (g : Grid) {x y : UInt8} (h : y.toNat % height + rows.length ≤ 2 * height)
    (k : Fin rows.length) (j : Fin 8) : g.gridAt rows x y k j =
      (((⟨g, false⟩ : Stroke).visits (spriteVisits x.toNat y.toNat (rows.take k))).visits
        ((rowVisits x.toNat (y.toNat + k) rows[k]).take j)).grid := by
  have hfits : y.toNat % height + (rows.take k).length ≤ 2 * height := by
    rw [List.length_take]
    omega
  rw [gridAt, drawSprite_eq_visits g hfits]
  refine Stroke.grid_visits_congr ?_ _
  rfl

theorem drawSprite_eq_none_iff (g : Grid) {x y : UInt8} :
    (g.drawSprite rows x y).2 = none ↔ 2 * height < y.toNat % height + rows.length := by
  constructor
  · intro hnone
    refine Nat.lt_of_not_le fun h ↦ ?_
    rw [drawSprite_eq_visits g h] at hnone
    cases hnone
  · intro h
    rw [drawSprite_of_breaksOff g h]

theorem drawSprite_take (g : Grid) {x y : UInt8} (h : 2 * height < y.toNat % height + rows.length) :
    ∃ collision, g.drawSprite (rows.take (2 * height - y.toNat % height)) x y =
      ((g.drawSprite rows x y).1, some collision) := by
  have hanswer := congrArg Prod.snd (drawSprite_eq_visits g (x := x) (add_length_take_le rows y))
  rw [drawSprite_of_breaksOff g h]
  exact ⟨_, Prod.ext rfl hanswer⟩

theorem get_drawSprite (g : Grid) {x y : UInt8} (h : y.toNat % height + rows.length ≤ 2 * height)
    (p : Fin width) (q : Fin height) : (g.drawSprite rows x y).1.get (.at p q) =
      (g.get (.at p q) ^^ decide (Odd (bitsOver rows x.toNat y.toNat p q).card)) := by
  rw [drawSprite_eq_visits g h]
  simp only [Stroke.get_visits, count_spriteVisits, Nat.odd_iff]

theorem drawSprite_collides_short_iff (g : Grid) {x y : UInt8} (h : rows.length ≤ height) :
    (g.drawSprite rows x y).2 = some true ↔
      ∃ k < rows.length, ∃ j < 8, g.get (.wrapped (x.toNat + j) (y.toNat + k)) = true := by
  have hy : y.toNat % height < height := Nat.mod_lt _ (by decide)
  have hfits : y.toNat % height + rows.length ≤ 2 * height := by
    simp only [height] at *
    omega
  rw [drawSprite_eq_visits g hfits, Option.some_inj, Stroke.collision_short_iff h]
  simp only [Bool.false_eq_true, false_or]

theorem drawSprite_collides_long_iff (g : Grid) {x y : UInt8} (hlong : height < rows.length)
    (h : y.toNat % height + rows.length ≤ 2 * height) : (g.drawSprite rows x y).2 = some true ↔
      (∃ k < height, ∃ j < 8, g.get (.wrapped (x.toNat + j) (y.toNat + k)) = true) ∨
        ∃ k : Fin rows.length, height ≤ k.val ∧ ∃ j : Fin 8,
          (g.gridAt rows x y k j).get (.wrapped (x.toNat + j) (y.toNat + k)) = true := by
  have hfirst : (∃ k < height, ∃ j, (⟨g, false⟩ : Stroke).LitAt x.toNat y.toNat rows k j) ↔ _ :=
    Stroke.litAt_first_iff rfl
  rw [Nat.min_eq_left (Nat.le_of_lt hlong)] at hfirst
  rw [drawSprite_eq_visits g h, Option.some_inj, Stroke.collision_sprite_iff, ← hfirst]
  simp only [Bool.false_eq_true, false_or, gridAt_eq g h]
  constructor
  · rintro ⟨k, j, hlit⟩
    obtain hk | hk := Nat.lt_or_ge k height
    · exact .inl ⟨k, hk, j, hlit⟩
    · exact .inr ⟨⟨k, hlit.1⟩, hk, j, hlit.2⟩
  · rintro (⟨k, -, j, hlit⟩ | ⟨k, -, j, hlit⟩)
    · exact ⟨k, j, hlit⟩
    · exact ⟨k, j, k.isLt, hlit⟩

/-- Any list of rows is drawn as far as there is a place for them. -/
theorem draws_rows (g : Grid) (rows : List UInt8) (x y : UInt8) : DrawsRows g rows x y where
  breaksOff := g.drawSprite_eq_none_iff
  drawn := g.drawSprite_take
  pixel := g.get_drawSprite
  collides := g.drawSprite_collides_short_iff
  collidesLater := g.drawSprite_collides_long_iff
  frame _ := mem_frame

/-- Thirty-four rows from the last row of the grid on: the last of them would have to be wrapped
twice. The first one has been erased by the thirty-third, and the second has not. -/
theorem draws_rows_breakingOff :
    (blank.drawSprite (List.replicate 34 0x80) 0 31).2 = none ∧
      (blank.drawSprite (List.replicate 34 0x80) 0 31).1.get (.at 0 31) = false ∧
      (blank.drawSprite (List.replicate 34 0x80) 0 31).1.get (.at 0 0) = true ∧
      (blank.drawSprite (List.replicate 33 0x80) 0 31).2 = some true := by
  have hlong : DrawsRows blank (List.replicate 34 0x80) 0 31 := draws_rows _ _ _ _
  have hpart : DrawsRows blank (List.replicate 33 0x80) 0 31 := draws_rows _ _ _ _
  obtain ⟨collision, hdrawn⟩ := hlong.drawn (by decide)
  have hgrid : (blank.drawSprite (List.replicate 34 0x80) 0 31).1 =
      (blank.drawSprite (List.replicate 33 0x80) 0 31).1 := (congrArg Prod.fst hdrawn).symm
  refine ⟨hlong.breaksOff.2 (by decide), ?_, ?_, ?_⟩
  · rw [hgrid, hpart.pixel (by decide)]
    decide +kernel
  · rw [hgrid, hpart.pixel (by decide)]
    decide +kernel
  · refine (hpart.collidesLater (by decide) (by decide)).2
      (.inr ⟨⟨32, by decide⟩, by decide, 0, ?_⟩)
    rw [gridAt_eq blank (by decide), Stroke.get_visits, Stroke.get_visits]
    decide +kernel

end Chip8.Grid
