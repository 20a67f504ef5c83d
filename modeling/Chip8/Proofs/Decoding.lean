import Chip8.Instruction.Word

/-! # Words of decoded instructions

An instruction keeps all of the word it was decoded from, except for a nibble that its pattern
leaves open, and its address has twelve bits. The other way round, words of the classes `8`, `D` and
`F` that are put together from their fields are decoded to these. -/

namespace Chip8.Instruction

open Fields

variable {w : UInt16} {i : Instruction}

/-- Whether the pattern of the instruction has a nibble that can be anything. -/
def leavesOpen : Instruction → Bool
  | .skipEqReg _ _ | .shiftRight _ | .shiftLeft _ => true
  | _ => false

/-- The address that the instruction carries. -/
def address? : Instruction → Option UInt16
  | .jump addr | .call addr | .setIndex addr | .jumpOffset addr => some addr
  | _ => none

/-! ## Words from their fields -/

theorem wordOfByte_eq {k b : Nat} (hk : (kind w).val = k) (hb : (nn w).toNat = b) :
    wordOfByte k (x w) b = w := by
  have hw : 4096 * k + 256 * (x w).val + b = w.toNat := by
    rw [← hk, ← hb, kind_val, x_val, nn_toNat]
    omega
  rw [wordOfByte, hw, UInt16.ofNat_toNat]

theorem wordOfNibbles_eq {k l : Nat} (hk : (kind w).val = k) (hl : (n w).val = l) :
    wordOfNibbles k (x w) (y w) l = w := by
  rw [wordOfNibbles, ← hk, ← hl, ← toNat_eq, UInt16.ofNat_toNat]

theorem wordOfAddress_eq {k : Nat} (hk : (kind w).val = k) : wordOfAddress k (nnn w) = w := by
  have hw : 4096 * k + (nnn w).toNat % 4096 = w.toNat := by
    rw [← hk, kind_val, nnn_toNat]
    omega
  rw [wordOfAddress, hw, UInt16.ofNat_toNat]

theorem system_word {a : Nat} (hk : (kind w).val = 0) (ha : (nnn w).toNat = a)
    (h : system? a = some i) : i.word = w := by
  have hw : w = UInt16.ofNat a := by
    rw [← UInt16.ofNat_toNat (x := w)]
    congr 1
    rw [kind_val] at hk
    rw [nnn_toNat] at ha
    omega
  unfold system? at h
  split at h <;> cases h <;> exact hw.symm

/-! ## Decoding -/

theorem arithmetic_word (hk : (kind w).val = 8) (h : arithmetic? (x w) (y w) (n w) = some i)
    (hi : i.leavesOpen = false) : i.word = w := by
  unfold arithmetic? at h
  split at h <;> cases h <;> first
    | exact wordOfNibbles_eq hk ‹_›
    | cases hi

theorem keyCheck_word (hk : (kind w).val = 14) (h : keyCheck? (x w) (nn w).toNat = some i) :
    i.word = w := by
  unfold keyCheck? at h
  split at h <;> cases h <;> exact wordOfByte_eq hk ‹_›

theorem transfer_word (hk : (kind w).val = 15) (h : transfer? (x w) (nn w).toNat = some i) :
    i.word = w := by
  unfold transfer? at h
  split at h <;> cases h <;> exact wordOfByte_eq hk ‹_›

/-- The word of a decoded instruction is the word that was decoded. -/
theorem word_of_decode? (h : decode? w = some i) (hi : i.leavesOpen = false) : i.word = w := by
  unfold decode? at h
  split at h
  case h_1 hk => exact system_word hk rfl h
  case h_9 hk => exact arithmetic_word hk h hi
  case h_10 hk =>
    split at h
    · next hn =>
      cases h
      exact wordOfNibbles_eq hk (congrArg Fin.val hn)
    · cases h
  case h_15 hk => exact keyCheck_word hk h
  case h_16 =>
    have hk : (kind w).val = 15 := by grind
    exact transfer_word hk h
  all_goals
    cases h
    first
      | exact wordOfAddress_eq ‹_›
      | exact wordOfByte_eq ‹_› rfl
      | exact wordOfNibbles_eq ‹_› rfl
      | cases hi

theorem address_eq {addr : UInt16} (h : decode? w = some i) (ha : i.address? = some addr) :
    addr = nnn w := by
  unfold decode? at h
  split at h
  case h_1 =>
    unfold system? at h
    split at h <;> cases h <;> cases ha
  case h_9 =>
    unfold arithmetic? at h
    split at h <;> cases h <;> cases ha
  case h_10 =>
    split at h <;> cases h
    cases ha
  case h_15 =>
    unfold keyCheck? at h
    split at h <;> cases h <;> cases ha
  case h_16 =>
    unfold transfer? at h
    split at h <;> cases h <;> cases ha
  all_goals
    cases h
    cases ha
  all_goals rfl

/-- A call is the address behind the digit `2`. -/
theorem toNat_of_call {addr : UInt16} (h : decode? w = some (.call addr)) :
    w.toNat = 0x2000 + addr.toNat := by
  have hword : wordOfAddress 0x2 addr = w := word_of_decode? h rfl
  have haddr : addr.toNat < 4096 := by
    rw [address_eq h rfl, nnn_toNat]
    exact Nat.mod_lt _ (by decide)
  rw [← hword, wordOfAddress, UInt16.toNat_ofNat']
  omega

/-! ## Words that are put together -/

section

variable {k l b : Nat} {x y : Register}

theorem toNat_wordOfNibbles (hk : k < 16) (hl : l < 16) :
    (wordOfNibbles k x y l).toNat = 4096 * k + 256 * x.val + 16 * y.val + l := by
  rw [wordOfNibbles, UInt16.toNat_ofNat']
  omega

/-- The fields of a word are the nibbles that it is put together from. -/
theorem fields_wordOfNibbles (hk : k < 16) (hl : l < 16) :
    (Fields.kind (wordOfNibbles k x y l)).val = k ∧ Fields.x (wordOfNibbles k x y l) = x ∧
      Fields.y (wordOfNibbles k x y l) = y ∧ (Fields.n (wordOfNibbles k x y l)).val = l := by
  have hw := toNat_wordOfNibbles (x := x) (y := y) hk hl
  refine ⟨?_, Fin.ext ?_, Fin.ext ?_, ?_⟩
  · rw [kind_val, hw]
    omega
  · rw [x_val, hw]
    omega
  · rw [y_val, hw]
    omega
  · rw [n_val, hw]
    omega

/-- Class `8` is told apart by the last nibble. -/
theorem decode?_arithmetic (hl : l < 16) :
    decode? (wordOfNibbles 0x8 x y l) = arithmetic? x y l := by
  obtain ⟨hkind, hx, hy, hn⟩ := fields_wordOfNibbles (x := x) (y := y) (by decide : 0x8 < 16) hl
  simp only [decode?, hkind, hx, hy, hn]

/-- The same of a word that is put together from a class, a register and a byte. -/
theorem fields_wordOfByte (hk : k < 16) (hb : b < 256) :
    (Fields.kind (wordOfByte k x b)).val = k ∧ Fields.x (wordOfByte k x b) = x ∧
      (nn (wordOfByte k x b)).toNat = b := by
  have hw : (wordOfByte k x b).toNat = 4096 * k + 256 * x.val + b := by
    rw [wordOfByte, UInt16.toNat_ofNat']
    omega
  refine ⟨?_, Fin.ext ?_, ?_⟩
  · rw [kind_val, hw]
    omega
  · rw [x_val, hw]
    omega
  · rw [nn_toNat, hw]
    omega

/-- Class `F` is told apart by the last byte. -/
theorem decode?_transfer (hb : b < 256) : decode? (wordOfByte 0xF x b) = transfer? x b := by
  obtain ⟨hkind, hx, hnn⟩ := fields_wordOfByte (x := x) (by decide : 0xF < 16) hb
  simp only [decode?, hkind, hx, hnn]

theorem decode?_draw (x y rows : Register) :
    decode? (wordOfNibbles 0xD x y rows) = some (.draw x y rows) := by
  obtain ⟨hkind, hx, hy, hn⟩ :=
    fields_wordOfNibbles (x := x) (y := y) (by decide : 0xD < 16) rows.isLt
  simp only [decode?, hkind, hx, hy, Fin.ext hn]

end

end Chip8.Instruction
