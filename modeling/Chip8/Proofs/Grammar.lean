import Chip8.Proofs.Decoding
import Chip8.Proofs.Patterns

/-! # The instruction set

The words that are decoded are those that a documented pattern covers. What is lost of such a word
is the digit that its pattern leaves open, and only three patterns leave one open; so two words are
decoded to one instruction only if they differ in such a digit alone. -/

namespace Chip8

namespace Pattern

open Fields

/-- The patterns with a digit that decoding does not look at. -/
def loose : List String := ["5XY_", "8X_6", "8X_E"]

/-- One loose pattern covers both words, and they agree in the registers that it names. -/
inductive Merged (w w' : UInt16) : Prop
  | skipEqReg (h : covers "5XY_" w = true) (h' : covers "5XY_" w' = true) (hx : x w = x w')
    (hy : y w = y w')
  | shiftRight (h : covers "8X_6" w = true) (h' : covers "8X_6" w' = true) (hx : x w = x w')
  | shiftLeft (h : covers "8X_E" w = true) (h' : covers "8X_E" w' = true) (hx : x w = x w')

/-- A digit in the place of a register can be anything, as an open one. -/
theorem covers_shiftRight (w : UInt16) : covers "8X_6" w = covers "8XY6" w := by
  simp [covers, nibbles, admits]

theorem covers_shiftLeft (w : UInt16) : covers "8X_E" w = covers "8XYE" w := by
  simp [covers, nibbles, admits]

end Pattern

namespace Instruction

open Fields Pattern

variable {w w' : UInt16} {i : Instruction}

/-! ## Words that are decoded -/

/-- What a word is read as in each of the documented patterns. -/
def readings (w : UInt16) : List Instruction :=
  [clearScreen, ret, jump (nnn w), call (nnn w), skipEqImm (x w) (nn w), skipNeImm (x w) (nn w),
    skipEqReg (x w) (y w), setImm (x w) (nn w), addImm (x w) (nn w), copy (x w) (y w),
    or (x w) (y w), and (x w) (y w), xor (x w) (y w), add (x w) (y w), sub (x w) (y w),
    shiftRight (x w), subN (x w) (y w), shiftLeft (x w), skipNeReg (x w) (y w), setIndex (nnn w),
    jumpOffset (nnn w), random (x w) (nn w), draw (x w) (y w) (n w), skipPressed (x w),
    skipNotPressed (x w), getDelay (x w), waitKey (x w), setDelay (x w), setSound (x w),
    addIndex (x w), fontChar (x w), bcd (x w), store (x w), load (x w)]

theorem map_pattern_readings (w : UInt16) : (readings w).map pattern = documented := rfl

theorem readsFrom_readings (w : UInt16) : ∀ i ∈ readings w, i.ReadsFrom w := by
  simp [readings, ReadsFrom]

theorem pattern_mem_documented (i : Instruction) : i.pattern ∈ documented := by
  cases i <;> simp [pattern, documented]

theorem exists_decode?_iff :
    (∃ i, decode? w = some i) ↔ ∃ p ∈ documented, covers p w = true := by
  constructor
  · rintro ⟨i, h⟩
    exact ⟨i.pattern, i.pattern_mem_documented, (covers_of_decode? h).1⟩
  · rintro ⟨p, hp, hc⟩
    rw [← map_pattern_readings w] at hp
    obtain ⟨i, hi, rfl⟩ := List.mem_map.1 hp
    exact ⟨i, decode?_of_covers hc (readsFrom_readings w i hi)⟩

/-! ## Operands -/

/-- The operands that are one digit of the word: the registers, and the height of a sprite. -/
def digitOperands : Instruction → List Nat
  | clearScreen | ret | jump _ | call _ | setIndex _ | jumpOffset _ => []
  | skipEqImm x _ | skipNeImm x _ | setImm x _ | addImm x _ | random x _ => [x]
  | skipEqReg x y | skipNeReg x y | copy x y | or x y | and x y | xor x y | add x y | sub x y
  | subN x y => [x, y]
  | draw x y rows => [x, y, rows]
  | shiftRight x | shiftLeft x | skipPressed x | skipNotPressed x | getDelay x | waitKey x
  | setDelay x | setSound x | addIndex x | fontChar x | bcd x | store x | load x => [x]

theorem digitOperands_le (i : Instruction) : ∀ d ∈ i.digitOperands, d ≤ 0xF := by
  cases i <;> simp [digitOperands] <;> omega

theorem address_le {addr : UInt16} (h : decode? w = some i) (ha : i.address? = some addr) :
    addr ≤ 0xFFF := by
  rw [address_eq h ha, UInt16.le_iff_toNat_le, nnn_toNat]
  exact Nat.le_of_lt_succ (Nat.mod_lt _ (by decide))

/-! ## Words that are decoded alike -/

theorem decode?_of_merged (h : Merged w w') : ∃ i, decode? w = some i ∧ decode? w' = some i := by
  cases h with
  | skipEqReg h h' hx hy =>
    exact ⟨.skipEqReg (x w) (y w), decode?_of_covers h ⟨rfl, rfl⟩, decode?_of_covers h' ⟨hx, hy⟩⟩
  | shiftRight h h' hx =>
    rw [covers_shiftRight] at h h'
    exact ⟨.shiftRight (x w), decode?_of_covers h rfl, decode?_of_covers h' hx⟩
  | shiftLeft h h' hx =>
    rw [covers_shiftLeft] at h h'
    exact ⟨.shiftLeft (x w), decode?_of_covers h rfl, decode?_of_covers h' hx⟩

/-- Where a digit is left open, the registers are all that is kept of the others. -/
theorem merged_of_decode? (h : decode? w = some i) (h' : decode? w' = some i)
    (hi : i.leavesOpen = true) : Merged w w' := by
  obtain ⟨hc, hr⟩ := decode?_eq_some_iff.1 h
  obtain ⟨hc', hr'⟩ := decode?_eq_some_iff.1 h'
  -- Three instructions are left; the others leave no digit open.
  cases i <;> cases hi
  all_goals
    simp only [pattern] at hc hc'
    simp only [ReadsFrom] at hr hr'
  case skipEqReg => exact .skipEqReg hc hc' (hr.1.symm.trans hr'.1) (hr.2.symm.trans hr'.2)
  case shiftRight =>
    rw [← covers_shiftRight] at hc hc'
    exact .shiftRight hc hc' (hr.symm.trans hr')
  case shiftLeft =>
    rw [← covers_shiftLeft] at hc hc'
    exact .shiftLeft hc hc' (hr.symm.trans hr')

/-- Where no digit is left open, the instruction tells the word. -/
theorem eq_of_decode? (h : decode? w = some i) (h' : decode? w' = some i)
    (hi : i.leavesOpen = false) : w' = w :=
  (word_of_decode? h' hi).symm.trans (word_of_decode? h hi)

theorem decode?_eq_decode?_iff (hne : w ≠ w') :
    (∃ i, decode? w = some i ∧ decode? w' = some i) ↔ Merged w w' := by
  constructor
  · rintro ⟨i, h, h'⟩
    cases hi : i.leavesOpen with
    | true => exact merged_of_decode? h h' hi
    | false => exact absurd (eq_of_decode? h h' hi).symm hne
  · exact decode?_of_merged

/-- A word that no loose pattern covers was read in a pattern that leaves no digit open. -/
theorem leavesOpen_eq_false (h : decode? w = some i) (hw : ∀ p ∈ loose, covers p w = false) :
    i.leavesOpen = false := by
  refine Bool.eq_false_iff.2 fun hi ↦ ?_
  have htight : ∀ p ∈ loose, ¬ covers p w = true := fun p hp ↦ Bool.eq_false_iff.1 (hw p hp)
  cases merged_of_decode? h h hi with
  | skipEqReg hc => exact htight _ (.head _) hc
  | shiftRight hc => exact htight _ (.tail _ (.head _)) hc
  | shiftLeft hc => exact htight _ (.tail _ (.tail _ (.head _))) hc

/-! ## What decoding makes of a word -/

/-- Which words are decoded, and what is kept of them. -/
structure Decodes (w : UInt16) : Prop where
  accepted_iff : (∃ i, decode w = .ok i) ↔ ∃ p ∈ documented, covers p w = true
  rejected : (∀ p ∈ documented, covers p w = false) → decode w = .error (.unknownOpcode w)
  /-- The pattern of the instruction covers the word, and its operands are fields of the word. -/
  operands : ∀ i, decode w = .ok i → (covers i.pattern w = true ∧ i.ReadsFrom w) ∧
    (∀ d ∈ i.digitOperands, d ≤ 0xF) ∧ ∀ addr, i.address? = some addr → addr ≤ 0xFFF
  merged_iff : ∀ w', w ≠ w' → ((∃ i, decode w = .ok i ∧ decode w' = .ok i) ↔ Merged w w')
  /-- Without an open digit, no other word is the word of the instruction. -/
  determined : ∀ i, decode w = .ok i → (∀ p ∈ loose, covers p w = false) →
    i.word = w ∧ ∀ w', decode w' = .ok i → w' = w

/-- The words of the documented patterns are decoded and no others, and their instructions tell them
apart up to the digits that are left open. -/
theorem words_decode (w : UInt16) : Decodes w := by
  constructor
  case accepted_iff =>
    simp only [decode_eq_ok_iff]
    exact exists_decode?_iff
  case rejected =>
    intro h
    refine decode_eq_error_iff.2 ⟨Option.eq_none_iff_forall_ne_some.2 fun i hi ↦ ?_, rfl⟩
    obtain ⟨p, hp, hc⟩ := exists_decode?_iff.1 ⟨i, hi⟩
    exact Bool.eq_false_iff.1 (h p hp) hc
  case operands =>
    intro i h
    rw [decode_eq_ok_iff] at h
    exact ⟨covers_of_decode? h, i.digitOperands_le, fun _ ha ↦ address_le h ha⟩
  case merged_iff =>
    intro w' hne
    simp only [decode_eq_ok_iff]
    exact decode?_eq_decode?_iff hne
  case determined =>
    intro i h hw
    rw [decode_eq_ok_iff] at h
    have hi : i.leavesOpen = false := leavesOpen_eq_false h hw
    exact ⟨word_of_decode? h hi, fun w' h' ↦ eq_of_decode? h (decode_eq_ok_iff.1 h') hi⟩

/-- A shift to the right in two words that differ in the second register, and a word that would be a
shift but for its last digit. -/
theorem words_decode_shift :
    (∃ i, decode 0x8AB6 = .ok i ∧ decode 0x8AC6 = .ok i) ∧
      decode 0x8AB8 = .error (.unknownOpcode 0x8AB8) := by
  constructor
  · refine ((words_decode 0x8AB6).merged_iff 0x8AC6 (by decide)).2 ?_
    exact .shiftRight (by decide +kernel) (by decide +kernel) (by decide)
  · exact (words_decode 0x8AB8).rejected (by decide +kernel)

end Instruction

end Chip8
