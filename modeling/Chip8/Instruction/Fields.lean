/-! # Fields of an instruction word

A word is four nibbles. The first tells the class; the others hold two registers and a nibble, a
register and a byte, or an address. -/

namespace Chip8.Fields

/-- The nibble that stands `k` places from the right. -/
def nibble (w : UInt16) (k : Nat) : Fin 16 :=
  ⟨w.toNat / Nat.pow 16 k % 16, Nat.mod_lt _ (by decide)⟩

/-- The class of the word. -/
def kind (w : UInt16) : Fin 16 := nibble w 3

/-- The register in the second place. -/
def x (w : UInt16) : Fin 16 := nibble w 2

/-- The register in the third place. -/
def y (w : UInt16) : Fin 16 := nibble w 1

/-- The last nibble. -/
def n (w : UInt16) : Fin 16 := nibble w 0

/-- The last two nibbles, a byte. -/
def nn (w : UInt16) : UInt8 := w.toUInt8

/-- The last three nibbles, an address. -/
def nnn (w : UInt16) : UInt16 := w % 0x1000

/-- All four nibbles, first to last. -/
def nibbles (w : UInt16) : List (Fin 16) := [kind w, x w, y w, n w]

/-! ## Fields as numbers -/

theorem kind_val (w : UInt16) : (kind w).val = w.toNat / 4096 := by
  have := w.toNat_lt
  simp only [kind, nibble, Nat.pow_eq]
  omega

theorem x_val (w : UInt16) : (x w).val = w.toNat / 256 % 16 := rfl

theorem y_val (w : UInt16) : (y w).val = w.toNat / 16 % 16 := rfl

theorem n_val (w : UInt16) : (n w).val = w.toNat % 16 := by
  simp [n, nibble]

theorem nn_toNat (w : UInt16) : (nn w).toNat = w.toNat % 256 := by
  simp [nn]

theorem nnn_toNat (w : UInt16) : (nnn w).toNat = w.toNat % 4096 := by
  simp [nnn]

/-- A word is its four nibbles. -/
theorem toNat_eq (w : UInt16) :
    w.toNat = 4096 * (kind w).val + 256 * (x w).val + 16 * (y w).val + (n w).val := by
  rw [kind_val, x_val, y_val, n_val]
  omega

end Chip8.Fields
