import Chip8.Proofs.Coherence

/-! # Loading

A source is read to its end before anything is written, and nothing is written that does not fit. So
memory takes all of the bytes or none, however the source cuts them. -/

namespace Chip8

variable {ε : Type} {pieces : List (List UInt8)} {m : Memory} {a : UInt16} {data : List UInt8}

namespace Source

end Source

namespace Memory

/-! ## What is written -/

/-- `m'` is `m` with all of `data` from `a` on. -/
structure Takes (m : Memory) (a : UInt16) (data : List UInt8) (m' : Memory) : Prop where
  written : ∀ (j : Nat) (hj : j < data.length), ∃ h : a.toNat + j < 4096,
    m'.bytes[a.toNat + j] = data[j]
  kept : ∀ (k : Nat) (hk : k < 4096), k < a.toNat ∨ a.toNat + data.length ≤ k →
    m'.bytes[k] = m.bytes[k]
  /-- The bytes are a slice that ends within memory. -/
  slice : data ≠ [] → m'.slice? a data.length = some data

theorem toNat_ofNat_place {k : Nat} (hk : k < 4096) : (UInt16.ofNat k).toNat = k :=
  UInt16.toNat_ofNat_of_lt' (Nat.lt_trans hk (by decide))

theorem get_ofNat (m : Memory) {k : Nat} (hk : k < 4096) : m.get (.ofNat k) = m.bytes[k] := by
  simp only [get, place, toNat_ofNat_place hk, Nat.mod_eq_of_lt hk, Fin.getElem_fin]

end Memory

/-! ## All or nothing -/

namespace Memory

end Memory

end Chip8
