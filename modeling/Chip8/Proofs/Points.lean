import Chip8.Proofs.Screens
import Chip8.Terminal.Search
import Mathlib.Data.List.Nodup

/-! # The points of a canvas

The requests of a search come to one point for each pixel with the value, the last pixel first, and
then to an end. On the way each pixel is inspected once. How the requests go on with one pixel more
is said by three equations, and what they come to follows from these by induction on the pixels that
are left. -/

namespace Chip8.Terminal

/-- The whole numbers that the coordinates of a point hold. -/
def Point.place (p : Point) : Int × Int := (p.x.toInt, p.y.toInt)

namespace Resolution

variable {r : Resolution} {data : Array UInt8} {value : UInt8} {n i j : Nat}

theorem place_point (r : Resolution) (i : Nat) :
    (r.point i).place = (((i % r.width : Nat) : Int), -((i / r.width : Nat) : Int)) := rfl

/-- The place of a point tells its pixel. -/
theorem place_point_inj : (r.point i).place = (r.point j).place ↔ i = j := by
  refine ⟨fun h ↦ ?_, fun h ↦ h ▸ rfl⟩
  rw [place_point, place_point, Prod.mk.injEq, Int.natCast_inj, Int.neg_inj, Int.natCast_inj] at h
  rw [← Nat.div_add_mod i r.width, h.1, h.2, Nat.div_add_mod]

theorem pairwise_indicesBelow (data : Array UInt8) (value : UInt8) (n : Nat) :
    (indicesBelow data value n).Pairwise (· > ·) := by
  induction n with
  | zero => exact .nil
  | succ n ih =>
    rw [indicesBelow]
    split
    · exact .cons (fun i hi ↦ (mem_indicesBelow.1 hi).1) ih
    · exact ih

end Resolution

namespace Search

open Resolution (indicesBelow)

variable {s : Search} {n : Nat} {byte : UInt8} {p : Point} {r : Request}

/-! ## Requests -/

theorem requests_of_point (h : (s.request n).reply = .point p) :
    s.requests n = s.request n :: s.requests (s.request n).left := by
  rw [requests]
  split
  · rfl
  · next hne => exact absurd h (hne p)

theorem requests_of_not_point (h : ∀ p, (s.request n).reply ≠ .point p) :
    s.requests n = [s.request n] := by
  rw [requests]
  split
  · next p hp => exact absurd hp (h p)
  · rfl

theorem requests_zero (s : Search) : s.requests 0 = [⟨.exhausted, [], 0⟩] := by
  refine requests_of_not_point fun p h ↦ ?_
  cases h

theorem requests_succ_of_eq (h : s.data[n]? = some s.value) : s.requests (n + 1) =
    ⟨.point (s.resolution.point n), [n], n⟩ :: s.requests n := by
  have hrequest : s.request (n + 1) = ⟨.point (s.resolution.point n), [n], n⟩ := by
    rw [request, h]
    exact if_pos rfl
  rw [requests_of_point (p := s.resolution.point n) (by rw [hrequest]), hrequest]

theorem requests_succ_of_none (h : s.data[n]? = none) :
    s.requests (n + 1) = [⟨.fault, [n], n⟩] := by
  have hrequest : s.request (n + 1) = ⟨.fault, [n], n⟩ := by
    rw [request, h]
  have hno : ∀ p, (s.request (n + 1)).reply ≠ .point p := by
    intro p hp
    rw [hrequest] at hp
    cases hp
  rw [requests_of_not_point hno, hrequest]

/-- A pixel with another value is passed over by the first request. -/
theorem requests_succ_of_ne (h : s.data[n]? = some byte) (hne : byte ≠ s.value) :
    s.requests (n + 1) = (s.requests n).modifyHead (.passing n) := by
  have hrequest : s.request (n + 1) = (s.request n).passing n := by
    rw [request, h]
    exact if_neg hne
  have hreply : (s.request (n + 1)).reply = (s.request n).reply := by rw [hrequest]; rfl
  -- Other requests follow the first one if it comes to a point, and then they are the same ones.
  by_cases hpoint : ∃ p, (s.request n).reply = .point p
  · obtain ⟨p, hp⟩ := hpoint
    rw [requests_of_point hp, requests_of_point (hreply.trans hp), hrequest]
    rfl
  · have hno : ∀ p, (s.request n).reply ≠ .point p := fun p hp ↦ hpoint ⟨p, hp⟩
    rw [requests_of_not_point hno, requests_of_not_point (hreply ▸ hno), hrequest]
    rfl

theorem requests_ne_nil (s : Search) (n : Nat) : s.requests n ≠ [] := by
  rw [requests]
  split <;> exact List.cons_ne_nil _ _

theorem replies_succ_of_ne (h : s.data[n]? = some byte) (hne : byte ≠ s.value) :
    s.replies (n + 1) = s.replies n := by
  rw [replies, replies, requests_succ_of_ne h hne]
  cases s.requests n <;> rfl

theorem inspected_succ_of_ne (h : s.data[n]? = some byte) (hne : byte ≠ s.value) :
    s.inspected (n + 1) = n :: s.inspected n := by
  rw [inspected, inspected, requests_succ_of_ne h hne]
  have hnil := s.requests_ne_nil n
  cases hrequests : s.requests n with
  | nil => exact absurd hrequests hnil
  | cons r rs => rfl

/-! ## Enough bytes -/

/-- There is a point for each pixel with the value, and then an end. -/
theorem replies_eq (h : n ≤ s.data.size) :
    s.replies n = (indicesBelow s.data s.value n).map (fun i ↦ .point (s.resolution.point i)) ++
      [.exhausted] := by
  induction n with
  | zero =>
    rw [replies, requests_zero]
    rfl
  | succ n ih =>
    have hbyte : s.data[n]? = some s.data[n] := Array.getElem?_eq_getElem h
    rw [indicesBelow]
    split
    · next heq =>
      rw [replies, requests_succ_of_eq heq, List.map_cons, List.map_cons, List.cons_append,
        ← ih (Nat.le_of_succ_le h), replies]
    · next hne =>
      rw [replies_succ_of_ne hbyte fun he ↦ hne (he ▸ hbyte), ih (Nat.le_of_succ_le h)]

theorem points_eq (h : n ≤ s.data.size) :
    s.points n = (indicesBelow s.data s.value n).map s.resolution.point := by
  rw [points, replies_eq h, List.filterMap_append, List.filterMap_map]
  simp [Function.comp_def, Reply.point?]

/-- Each pixel is inspected once, the last one first. -/
theorem inspected_eq (h : n ≤ s.data.size) : s.inspected n = (List.range n).reverse := by
  induction n with
  | zero =>
    rw [inspected, requests_zero]
    rfl
  | succ n ih =>
    have hbyte : s.data[n]? = some s.data[n] := Array.getElem?_eq_getElem h
    rw [List.range_succ, List.reverse_append, List.reverse_singleton, List.singleton_append,
      ← ih (Nat.le_of_succ_le h)]
    by_cases heq : s.data[n] = s.value
    · rw [inspected, requests_succ_of_eq (heq ▸ hbyte)]
      rfl
    · exact inspected_succ_of_ne hbyte heq

theorem left_of_exhausted (h : (s.request n).reply = .exhausted) : (s.request n).left = 0 := by
  induction n with
  | zero => rfl
  | succ n ih =>
    rw [request] at h ⊢
    split at h
    · cases h
    · next hbyte =>
      split at h
      · cases h
      · next hne =>
        rw [if_neg hne]
        exact ih h

theorem mem_requests (h : r ∈ s.requests n) : ∃ k, r = s.request k := by
  fun_induction requests s n with
  | case1 n p hp ih =>
    obtain rfl | h := List.mem_cons.1 h
    · exact ⟨n, rfl⟩
    · exact ih h
  | case2 n => exact ⟨n, List.mem_singleton.1 h⟩

/-- Nothing comes behind the end. -/
theorem request_of_exhausted (h : r ∈ s.requests n) (hreply : r.reply = .exhausted) :
    s.request r.left = ⟨.exhausted, [], 0⟩ := by
  obtain ⟨k, rfl⟩ := mem_requests h
  rw [left_of_exhausted hreply, request]

/-- Bytes behind the pixels that are left make no difference. -/
theorem requests_congr {s s' : Search} (hresolution : s'.resolution = s.resolution)
    (hvalue : s'.value = s.value) (h : ∀ i < n, s'.data[i]? = s.data[i]?) :
    s'.requests n = s.requests n := by
  induction n with
  | zero => rw [requests_zero, requests_zero]
  | succ n ih =>
    have hrest := ih fun i hi ↦ h i (Nat.lt_succ_of_lt hi)
    have hn := h n (Nat.lt_succ_self n)
    cases hbyte : s.data[n]? with
    | none => rw [requests_succ_of_none hbyte, requests_succ_of_none (hn.trans hbyte)]
    | some byte =>
      by_cases heq : byte = s.value
      · subst heq
        rw [requests_succ_of_eq hbyte, requests_succ_of_eq (hvalue ▸ hn.trans hbyte), hrest,
          hresolution]
      · rw [requests_succ_of_ne hbyte heq, requests_succ_of_ne (hn.trans hbyte) (hvalue ▸ heq),
          hrest]

/-! ## Too few bytes -/

/-- The first pixel to be inspected is the last one, and it has no byte. -/
theorem requests_of_short (h : s.data.size < n) :
    s.requests n = [⟨.fault, [n - 1], n - 1⟩] := by
  cases n with
  | zero => exact absurd h (Nat.not_lt_zero _)
  | succ n => exact requests_succ_of_none (Array.getElem?_eq_none (Nat.le_of_lt_succ h))

end Search

/-! ## The whole canvas -/

namespace Resolution

variable {r : Resolution} {data : Array UInt8} {value : UInt8}

/-- The points that a search comes to from its beginning to its end. -/
def found (r : Resolution) (data : Array UInt8) (value : UInt8) : List Point :=
  (r.search data value).points r.pixelCount

theorem found_eq (h : r.pixelCount ≤ data.size) :
    r.found data value = (indicesBelow data value r.pixelCount).map r.point :=
  Search.points_eq h

/-- What the search for a value comes to. -/
structure Enumerates (r : Resolution) (data : Array UInt8) (value : UInt8) : Prop where
  /-- There is one point for each pixel with the value, the last pixel first. -/
  listed : ∃ is : List Nat, (∀ i, i ∈ is ↔ i < r.width * r.height ∧ data[i]? = some value) ∧
    is.Pairwise (· > ·) ∧ (r.found data value).map Point.place =
      is.map fun i ↦ (((i % r.width : Nat) : Int), -((i / r.width : Nat) : Int))
  /-- Behind the points is an end. -/
  ended : (r.search data value).replies r.pixelCount =
    (r.found data value).map .point ++ [.exhausted]
  /-- Nothing comes behind the end. -/
  silent : ∀ q ∈ (r.search data value).requests r.pixelCount, q.reply = .exhausted →
    (r.search data value).request q.left = ⟨.exhausted, [], 0⟩
  /-- Each pixel is inspected once, the last one first. -/
  inspected : (r.search data value).inspected r.pixelCount =
    (List.range (r.width * r.height)).reverse
  distinct : ((r.found data value).map Point.place).Nodup
  inside : ∀ p ∈ r.found data value, r.Contains p
  /-- Only the bytes of the pixels count. -/
  ignored : ∀ data', (∀ i < r.width * r.height, data'[i]? = data[i]?) →
    (r.search data' value).requests r.pixelCount = (r.search data value).requests r.pixelCount
  /-- What is painted are these points. -/
  collected : r.points? data value = some (r.found data value)

theorem enumerates (h : r.pixelCount ≤ data.size) (value : UInt8) : r.Enumerates data value := by
  constructor
  case listed =>
    refine ⟨indicesBelow data value r.pixelCount, fun i ↦ mem_indicesBelow,
      pairwise_indicesBelow data value r.pixelCount, ?_⟩
    rw [found_eq h, List.map_map]
    rfl
  case ended =>
    rw [found_eq h, Search.replies_eq h, List.map_map]
    rfl
  case silent => exact fun q hq hreply ↦ Search.request_of_exhausted hq hreply
  case inspected => exact Search.inspected_eq h
  case distinct =>
    rw [found_eq h, List.map_map]
    refine List.Nodup.map (fun i j he ↦ place_point_inj.1 he) ?_
    exact (pairwise_indicesBelow data value r.pixelCount).imp Nat.ne_of_gt
  case inside =>
    intro p hp
    rw [found_eq h] at hp
    obtain ⟨i, hi, rfl⟩ := List.mem_map.1 hp
    exact contains_point (mem_indicesBelow.1 hi).1
  case ignored => exact fun data' hdata ↦ Search.requests_congr rfl rfl hdata
  case collected => rw [points?, if_pos h, found_eq h]

theorem place_mem_found_iff (h : r.pixelCount ≤ data.size) {i : Nat} (hi : i < r.pixelCount) :
    (r.point i).place ∈ (r.found data value).map Point.place ↔ data[i]? = some value := by
  rw [found_eq h, List.map_map]
  constructor
  · intro hmem
    obtain ⟨j, hj, hplace⟩ := List.mem_map.1 hmem
    obtain rfl : j = i := place_point_inj.1 hplace
    exact (mem_indicesBelow.1 hj).2
  · intro hbyte
    exact List.mem_map_of_mem (mem_indicesBelow.2 ⟨hi, hbyte⟩)

/-- Every pixel is found with the value of its byte and with no other. -/
theorem existsUnique_found (h : r.pixelCount ≤ data.size) {x y : Nat} (hx : x < r.width)
    (hy : y < r.height) :
    ∃! value, ((x : Int), -(y : Int)) ∈ (r.found data value).map Point.place := by
  have hlt : r.width * y + x < r.pixelCount := by
    calc r.width * y + x < r.width * y + r.width := Nat.add_lt_add_left hx _
      _ = r.width * (y + 1) := (Nat.mul_succ _ _).symm
      _ ≤ r.width * r.height := Nat.mul_le_mul_left _ hy
  have hplace : (r.point (r.width * y + x)).place = ((x : Int), -(y : Int)) := by
    rw [place_point, Nat.mul_add_mod, Nat.mod_eq_of_lt hx,
      Nat.mul_add_div (Nat.zero_lt_of_lt hx), Nat.div_eq_of_lt hx, Nat.add_zero]
  obtain ⟨byte, hbyte⟩ : ∃ byte, data[r.width * y + x]? = some byte :=
    ⟨_, Array.getElem?_eq_getElem (Nat.lt_of_lt_of_le hlt h)⟩
  rw [← hplace]
  simp only [place_mem_found_iff h hlt]
  refine ⟨byte, hbyte, fun value hvalue ↦ ?_⟩
  exact Option.some.inj (hvalue.symm.trans hbyte)

/-- A search goes through all pixels, if each of them has a byte, and otherwise fails at once. The
searches for all values find each pixel once. -/
theorem points_enumerated (r : Resolution) (data : Array UInt8) :
    (r.pixelCount ≤ data.size → (∀ value, r.Enumerates data value) ∧
      ∀ x < r.width, ∀ y < r.height,
        ∃! value, ((x : Int), -(y : Int)) ∈ (r.found data value).map Point.place) ∧
    (data.size < r.pixelCount → ∀ value,
      (r.search data value).replies r.pixelCount = [.fault] ∧ r.points? data value = none) := by
  refine ⟨fun h ↦ ⟨r.enumerates h, fun x hx y hy ↦ existsUnique_found h hx hy⟩, ?_⟩
  intro h value
  have hrequests : (r.search data value).requests r.pixelCount = _ := Search.requests_of_short h
  refine ⟨?_, if_neg (Nat.not_le_of_lt h)⟩
  rw [Search.replies, hrequests]
  rfl

/-- Three columns and two rows, with a byte too many. -/
def threeByTwo : Array UInt8 := #[1, 0, 1, 1, 0, 0, 1]

/-- The byte behind the last pixel is not inspected. With one pixel more there are too few bytes. -/
theorem points_enumerated_threeByTwo :
    ((⟨3, 2⟩ : Resolution).found threeByTwo 1).map Point.place = [(0, -1), (2, 0), (0, 0)] ∧
      ((⟨3, 2⟩ : Resolution).search threeByTwo 1).inspected 6 = [5, 4, 3, 2, 1, 0] ∧
      ((⟨4, 2⟩ : Resolution).search threeByTwo 1).replies 8 = [.fault] := by
  have henumerates := ((points_enumerated ⟨3, 2⟩ threeByTwo).1 (by decide)).1 1
  have hfound : (⟨3, 2⟩ : Resolution).points? threeByTwo 1 =
      some [⟨.right 0, .down 1⟩, ⟨.right 2, .down 0⟩, ⟨.right 0, .down 0⟩] := by decide
  refine ⟨?_, henumerates.inspected, ((points_enumerated ⟨4, 2⟩ threeByTwo).2 (by decide) 1).1⟩
  rw [← Option.some.inj (hfound.symm.trans henumerates.collected)]
  rfl

end Resolution

end Chip8.Terminal
