import Chip8.Proofs.Sprites
import Mathlib.Data.List.Perm.Basic

/-! # Drawings over one another

Sprites are drawn by flipping pixels, so a list of drawings amounts to a list of visits of which
only the numbers count: the grid does not depend on their order, and the same drawings once more
take everything back. What a drawing collides with does depend on the order. -/

namespace Chip8.Grid

/-- A sprite and the place of its corner. -/
structure Drawing where
  rows : List UInt8
  x : UInt8
  y : UInt8
  /-- No more rows than an instruction can draw. -/
  short : rows.length ≤ 15

namespace Drawing

/-- The grid after the drawing, and whether it collided with `g`. -/
def on (d : Drawing) (g : Grid) : Grid × Option Bool := g.drawSprite d.rows d.x d.y

def visits (d : Drawing) : List Visit := spriteVisits d.x.toNat d.y.toNat d.rows

theorem on_eq (d : Drawing) (g : Grid) : d.on g =
    (((⟨g, false⟩ : Stroke).visits d.visits).grid,
      some ((⟨g, false⟩ : Stroke).visits d.visits).collision) := by
  have hy : d.y.toNat % height < height := Nat.mod_lt _ (by decide)
  have hshort := d.short
  refine drawSprite_eq_visits g ?_
  simp only [height] at *
  omega

theorem nodup_visits (d : Drawing) : (d.visits.map Prod.fst).Nodup :=
  nodup_spriteVisits (Nat.le_trans d.short (by decide))

/-- Some bit of the sprite is set. -/
def HasBit (d : Drawing) : Prop := ∃ bits ∈ d.rows, ∃ j, bit bits j = true

instance (d : Drawing) : Decidable d.HasBit :=
  inferInstanceAs (Decidable (∃ bits ∈ d.rows, ∃ j, bit bits j = true))

theorem hasBit_iff (d : Drawing) : d.HasBit ↔ ∃ c, (c, true) ∈ d.visits := by
  constructor
  · rintro ⟨bits, hbits, j, hj⟩
    obtain ⟨k, hk, rfl⟩ := List.mem_iff_getElem.1 hbits
    exact ⟨_, mem_spriteVisits.2 ⟨k, hk, j, Prod.ext rfl hj.symm⟩⟩
  · rintro ⟨c, hc⟩
    obtain ⟨k, hk, j, he⟩ := mem_spriteVisits.1 hc
    exact ⟨d.rows[k], List.getElem_mem hk, j, (congrArg Prod.snd he).symm⟩

/-- What a drawing has left on a blank grid are the pixels under its bits. -/
theorem get_on_blank (d : Drawing) (c : Cell) :
    (d.on blank).1.get c = decide ((c, true) ∈ d.visits) := by
  rw [on_eq, Stroke.get_visits_of_nodup d.nodup_visits, get_blank, Bool.false_xor]

/-- A drawing that is repeated on a blank grid collides with itself, unless it is blank. -/
theorem on_on_blank (d : Drawing) : (d.on (d.on blank).1).2 = some (decide d.HasBit) := by
  have hlit : (d.visits.any fun v ↦ (d.on blank).1.get v.1) = decide d.HasBit := by
    rw [Bool.eq_iff_iff, List.any_eq_true, decide_eq_true_iff, hasBit_iff]
    constructor
    · rintro ⟨v, -, hv⟩
      rw [get_on_blank, decide_eq_true_iff] at hv
      exact ⟨v.1, hv⟩
    · rintro ⟨c, hc⟩
      refine ⟨(c, true), hc, ?_⟩
      rw [get_on_blank, decide_eq_true_iff]
      exact hc
  rw [on_eq, Stroke.collision_visits_of_nodup d.nodup_visits, Bool.false_or, hlit]

end Drawing

/-! ## Lists of drawings -/

variable {ds ds' : List Drawing}

/-- The grid after one drawing after the other. -/
def drawAll (g : Grid) (ds : List Drawing) : Grid := ds.foldl (fun g d ↦ (d.on g).1) g

/-- Drawings amount to their visits. -/
theorem drawAll_eq_visits (g : Grid) (ds : List Drawing) :
    g.drawAll ds = ((⟨g, false⟩ : Stroke).visits (ds.flatMap Drawing.visits)).grid := by
  induction ds generalizing g with
  | nil => rfl
  | cons d ds ih =>
    rw [List.flatMap_cons, Stroke.visits_append]
    refine (ih (d.on g).1).trans (Stroke.grid_visits_congr ?_ _)
    rw [d.on_eq]

/-- A pixel is flipped once for each set bit of all the drawings that falls on it. -/
theorem get_drawAll (g : Grid) (ds : List Drawing) (c : Cell) : (g.drawAll ds).get c =
    (g.get c ^^ decide ((ds.flatMap Drawing.visits).count (c, true) % 2 = 1)) := by
  rw [drawAll_eq_visits, Stroke.get_visits]

/-- The order of the visits does not matter to their numbers. -/
theorem count_visits_of_perm (h : ds.Perm ds') (v : Visit) :
    (ds.flatMap Drawing.visits).count v = (ds'.flatMap Drawing.visits).count v :=
  (h.flatMap_right Drawing.visits).count_eq v

theorem drawAll_of_perm (g : Grid) (h : ds.Perm ds') : g.drawAll ds = g.drawAll ds' := by
  ext c
  rw [get_drawAll, get_drawAll, count_visits_of_perm h]

/-- The same number of flips a second time takes back those of the first time. -/
theorem drawAll_drawAll_of_perm (g : Grid) (h : ds.Perm ds') : (g.drawAll ds).drawAll ds' = g := by
  ext c
  rw [get_drawAll, get_drawAll, count_visits_of_perm h, Bool.xor_assoc, Bool.xor_self,
    Bool.xor_false]

theorem get_drawAll_eq_xor (g : Grid) (ds : List Drawing) (c : Cell) :
    (g.drawAll ds).get c = (g.get c ^^ (blank.drawAll ds).get c) := by
  rw [get_drawAll, get_drawAll, get_blank, Bool.false_xor]

/-- Drawings may be made in any order, are taken back in any order, and leave the same on whatever
was there before. A drawing that is repeated at once on a blank grid collides unless it is blank,
too. -/
theorem drawings_overlay (g : Grid) (h : ds.Perm ds') :
    g.drawAll ds = g.drawAll ds' ∧ (g.drawAll ds).drawAll ds' = g ∧
      (∀ c, (g.drawAll ds).get c = (g.get c ^^ (blank.drawAll ds).get c)) ∧
      ∀ d : Drawing, (d.on (d.on blank).1).2 = some (decide d.HasBit) := by
  refine ⟨g.drawAll_of_perm h, g.drawAll_drawAll_of_perm h, ?_, ?_⟩
  · intro c
    exact g.get_drawAll_eq_xor ds c
  · intro d
    exact d.on_on_blank

/-- A bar of one row, and a block of two rows over its end and over the edge. -/
def barAndBlock : List Drawing := [⟨[0xFF], 58, 3, by decide⟩, ⟨[0x0F, 0xF0], 60, 3, by decide⟩]

/-- The block collides with the bar only if it comes second, and the grid is the same. -/
theorem drawings_overlay_overEdge :
    blank.drawAll barAndBlock = blank.drawAll barAndBlock.reverse ∧
      (blank.drawAll barAndBlock).drawAll barAndBlock.reverse = blank ∧
      (barAndBlock[1].on blank).2 = some false ∧
      (barAndBlock[1].on (barAndBlock[0].on blank).1).2 = some true ∧
      (barAndBlock[1].on (barAndBlock[1].on blank).1).2 = some true := by
  obtain ⟨horder, hundone, -, hagain⟩ :=
    drawings_overlay blank (List.reverse_perm barAndBlock).symm
  refine ⟨horder, hundone, by decide +kernel, by decide +kernel, ?_⟩
  exact (hagain barAndBlock[1]).trans (by decide +kernel)

end Chip8.Grid
