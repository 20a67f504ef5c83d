import Chip8.Machine.Dump
import Chip8.Proofs.Patterns
import Mathlib.Data.List.Basic

/-! # What the state line tells

A numeral can be read back, with leading zeros or without, and holds no blank. So the fields of a
state line can be told apart however long their numerals are, and two machines have one line if and
only if they agree in all that the line shows. -/

namespace Chip8

namespace Numeral

variable {base width n m : Nat}

/-! ## Numerals are read back -/

/-- The number that a list of digits stands for. -/
def read (base : Nat) (ds : List Char) : Nat := ds.foldl (fun n c ↦ base * n + value c) 0

theorem read_append_singleton (base : Nat) (ds : List Char) (c : Char) :
    read base (ds ++ [c]) = base * read base ds + value c := by
  simp [read]

theorem value_digit {d : Nat} (h : d < 16) : value (digit d) = d := by
  have hvalue : ∀ d : Fin 16, value (digit d) = d := by decide
  exact hvalue ⟨d, h⟩

theorem read_digits (hb : 2 ≤ base) (hb' : base ≤ 16) (n : Nat) :
    read base (digits base n) = n := by
  fun_induction digits base n with
  | case1 n h =>
    have hlt : n < 16 := by omega
    rw [← List.nil_append [digit n], read_append_singleton, value_digit hlt]
    exact Nat.zero_add n
  | case2 n h ih =>
    have hlt : n % base < 16 := Nat.lt_of_lt_of_le (Nat.mod_lt _ (by omega)) hb'
    rw [read_append_singleton, ih, value_digit hlt, Nat.div_add_mod]

/-- Leading zeros count for nothing. -/
theorem read_padded (base width : Nat) (ds : List Char) :
    read base (padded width ds) = read base ds := by
  have hzeros : ∀ k, read base (List.replicate k '0') = 0 := by
    intro k
    induction k with
    | zero => rfl
    | succ k ih =>
      rw [List.replicate_succ', read_append_singleton, ih]
      rfl
  rw [padded, read, List.foldl_append]
  exact congrArg (fun n ↦ ds.foldl _ n) (hzeros _)

theorem decimal_inj : decimal n = decimal m ↔ n = m := by
  refine ⟨fun h ↦ ?_, congrArg decimal⟩
  have hread := congrArg (read 10) (String.ofList_inj.1 h)
  rwa [read_digits (by decide) (by decide), read_digits (by decide) (by decide)] at hread

theorem hex_inj : hex width n = hex width m ↔ n = m := by
  refine ⟨fun h ↦ ?_, congrArg (hex width)⟩
  have hread := congrArg (read 16) (String.ofList_inj.1 h)
  rwa [read_padded, read_padded, read_digits (by decide) (by decide),
    read_digits (by decide) (by decide)] at hread

theorem marked_inj : marked width n = marked width m ↔ n = m := by
  rw [marked, marked, String.append_right_inj, hex_inj]

/-! ## Numerals hold no blank -/

theorem blank_notMem_digits (hb : 2 ≤ base) (hb' : base ≤ 16) (n : Nat) : ' ' ∉ digits base n := by
  have hdigit : ∀ d : Fin 16, ' ' ≠ digit d := by decide
  fun_induction digits base n with
  | case1 n h =>
    rw [List.mem_singleton]
    exact hdigit ⟨n, by omega⟩
  | case2 n h ih =>
    have hlt : n % base < 16 := Nat.lt_of_lt_of_le (Nat.mod_lt _ (by omega)) hb'
    rw [List.mem_append, List.mem_singleton, not_or]
    exact ⟨ih, hdigit ⟨n % base, hlt⟩⟩

theorem blank_notMem_decimal (n : Nat) : ' ' ∉ (decimal n).toList := by
  rw [decimal, String.toList_ofList]
  exact blank_notMem_digits (by decide) (by decide) n

theorem blank_notMem_hex (width n : Nat) : ' ' ∉ (hex width n).toList := by
  rw [hex, String.toList_ofList, padded, List.mem_append, not_or]
  refine ⟨fun h ↦ ?_, blank_notMem_digits (by decide) (by decide) n⟩
  cases List.eq_of_mem_replicate h

theorem blank_notMem_marked (width n : Nat) : ' ' ∉ (marked width n).toList := by
  rw [marked, String.toList_append, List.mem_append, not_or]
  exact ⟨by decide, blank_notMem_hex width n⟩

end Numeral

/-! ## Texts up to a blank -/

/-- A text that holds no blank. -/
@[ext]
structure Token where
  text : String
  solid : ' ' ∉ text.toList

namespace Token

open Numeral

def decimal (n : Nat) : Token := ⟨Numeral.decimal n, blank_notMem_decimal n⟩

def hex (width n : Nat) : Token := ⟨Numeral.hex width n, blank_notMem_hex width n⟩

def marked (width n : Nat) : Token := ⟨Numeral.marked width n, blank_notMem_marked width n⟩

theorem takeWhile_append_blank (a : Token) (s : List Char) :
    (a.text.toList ++ ' ' :: s).takeWhile (· != ' ') = a.text.toList := by
  have hall : ∀ c ∈ a.text.toList, (c != ' ') = true :=
    fun c hc ↦ bne_iff_ne.2 fun he ↦ a.solid (he ▸ hc)
  rw [List.takeWhile_append_of_pos hall, List.takeWhile_cons_of_neg (by decide), List.append_nil]

/-- What stands before the first blank can be told from what stands behind it. -/
theorem append_blank_inj {a b : Token} {s t : String} :
    a.text ++ " " ++ s = b.text ++ " " ++ t ↔ a = b ∧ s = t := by
  constructor
  · intro h
    have hlist : a.text.toList ++ ' ' :: s.toList = b.text.toList ++ ' ' :: t.toList := by
      simpa [String.toList_append] using congrArg String.toList h
    have htext : a.text.toList = b.text.toList := by
      rw [← a.takeWhile_append_blank s.toList, hlist, b.takeWhile_append_blank]
    obtain rfl := Token.ext (String.toList_inj.1 htext)
    exact ⟨rfl, (String.append_right_inj _).1 h⟩
  · rintro ⟨rfl, rfl⟩
    rfl

/-- The tokens of a list with blanks between them can be told apart. -/
theorem intercalate_inj {l l' : List Token} (h : l ≠ []) (h' : l' ≠ []) :
    " ".intercalate (l.map text) = " ".intercalate (l'.map text) ↔ l = l' := by
  have hsplit : ∀ l : List Token, l ≠ [] →
      (" ".intercalate (l.map text)).toList.splitOn ' ' = l.map (·.text.toList) := by
    intro l hl
    rw [String.toList_intercalate, List.map_map]
    refine List.splitOn_intercalate ' ' ?_ (mt List.map_eq_nil_iff.1 hl)
    intro cs hcs
    obtain ⟨a, -, rfl⟩ := List.mem_map.1 hcs
    exact a.solid
  have hinj : Function.Injective fun a : Token ↦ a.text.toList :=
    fun _ _ he ↦ Token.ext (String.toList_inj.1 he)
  refine ⟨fun he ↦ List.map_injective_iff.2 hinj ?_, fun he ↦ he ▸ rfl⟩
  rw [← hsplit l h, ← hsplit l' h', he]

theorem decimal_inj {n m : Nat} : decimal n = decimal m ↔ n = m := by
  rw [Token.ext_iff, decimal, decimal, Numeral.decimal_inj]

theorem hex_inj {width n m : Nat} : hex width n = hex width m ↔ n = m := by
  rw [Token.ext_iff, hex, hex, Numeral.hex_inj]

theorem marked_inj {width n m : Nat} : marked width n = marked width m ↔ n = m := by
  rw [Token.ext_iff, marked, marked, Numeral.marked_inj]

end Token

/-! ## The line -/

namespace Machine

variable {m m' : Machine}

theorem registerText_inj : m.registerText = m'.registerText ↔ m.v = m'.v := by
  have htext : ∀ m : Machine, m.registerText =
      " ".intercalate ((m.v.toList.map fun b ↦ Token.hex 2 b.toNat).map Token.text) := by
    intro m
    rw [List.map_map]
    rfl
  have hne : ∀ m : Machine, (m.v.toList.map fun b ↦ Token.hex 2 b.toNat) ≠ [] := by
    intro m hnil
    have hlength := congrArg List.length hnil
    simp at hlength
  have hinj : Function.Injective fun b : UInt8 ↦ Token.hex 2 b.toNat :=
    fun _ _ he ↦ UInt8.toNat_inj.1 (Token.hex_inj.1 he)
  rw [htext m, htext m', Token.intercalate_inj (hne m) (hne m'),
    (List.map_injective_iff.2 hinj).eq_iff, Vector.toList_inj]

/-- A state line with any tokens in its fields, and any text between the brackets. -/
def line (pc op i sp dt st : Token) (v : String) : String :=
  "pc=" ++ pc.text ++ " op=" ++ op.text ++ " i=" ++ i.text ++ " sp=" ++ sp.text ++
    " dt=" ++ dt.text ++ " st=" ++ st.text ++ " v=[" ++ v ++ "]"

theorem line_inj {pc pc' op op' i i' sp sp' dt dt' st st' : Token} {v v' : String} :
    line pc op i sp dt st v = line pc' op' i' sp' dt' st' v' ↔
      (pc = pc' ∧ op = op' ∧ i = i') ∧ (sp = sp' ∧ dt = dt' ∧ st = st') ∧ v = v' := by
  -- Between two fields the blank is cut from the name behind it, so that it ends the token before.
  have hop : " op=" = " " ++ "op=" := by decide
  have hi : " i=" = " " ++ "i=" := by decide
  have hsp : " sp=" = " " ++ "sp=" := by decide
  have hdt : " dt=" = " " ++ "dt=" := by decide
  have hst : " st=" = " " ++ "st=" := by decide
  have hv : " v=[" = " " ++ "v=[" := by decide
  have hfields : ∀ (pc op i sp dt st : Token) (v : String), line pc op i sp dt st v =
      "pc=" ++ (pc.text ++ " " ++ ("op=" ++ (op.text ++ " " ++ ("i=" ++ (i.text ++ " " ++
        ("sp=" ++ (sp.text ++ " " ++ ("dt=" ++ (dt.text ++ " " ++ ("st=" ++ (st.text ++ " " ++
          ("v=[" ++ (v ++ "]"))))))))))))) := by
    intro pc op i sp dt st v
    unfold line
    rw [hop, hi, hsp, hdt, hst, hv]
    simp only [String.append_assoc]
  rw [hfields, hfields]
  simp only [String.append_right_inj, String.append_left_inj, Token.append_blank_inj, and_assoc]

theorem dump_eq_line (m : Machine) : m.dump =
    line (.marked 3 m.pc.toNat) (.marked 4 m.fetch.toNat) (.marked 3 m.i.toNat)
      (.decimal m.sp.toNat) (.decimal m.delay.toNat) (.decimal m.sound.toNat) m.registerText := rfl

/-- Two machines have one state line if and only if they agree in the program counter and the word
there, the index register, the stack pointer, the timers and the general registers. -/
theorem dump_eq_iff : m.dump = m'.dump ↔ (m.pc = m'.pc ∧ m.fetch = m'.fetch ∧ m.i = m'.i) ∧
    (m.sp = m'.sp ∧ m.delay = m'.delay ∧ m.sound = m'.sound) ∧ m.v = m'.v := by
  rw [dump_eq_line, dump_eq_line, line_inj]
  simp only [Token.marked_inj, Token.decimal_inj, registerText_inj, UInt16.toNat_inj,
    UInt8.toNat_inj]

end Machine

end Chip8
