/-! # Numerals

Natural numbers written in a base of at most sixteen, most significant digit first. -/

namespace Chip8.Numeral

/-- The digit of value `d < 16`; the letters are in upper case. -/
def digit (d : Nat) : Char :=
  if d < 10 then Char.ofNat (48 + d) else Char.ofNat (55 + d)

/-- The digits of `n` in base `base`, without leading zeros; zero has one digit. -/
def digits (base n : Nat) : List Char :=
  if _h : n < base ∨ base < 2 then [digit n]
  else digits base (n / base) ++ [digit (n % base)]
termination_by n
decreasing_by exact Nat.div_lt_self (by omega) (by omega)

/-- A digit list filled up with zeros on the left to at least `width` digits. -/
def padded (width : Nat) (ds : List Char) : List Char :=
  List.replicate (width - ds.length) '0' ++ ds

/-- The decimal numeral of `n`. -/
def decimal (n : Nat) : String := String.ofList (digits 10 n)

/-- The hexadecimal numeral of `n`, at least `width` digits long. -/
def hex (width n : Nat) : String := String.ofList (padded width (digits 16 n))

/-- A hexadecimal numeral behind the mark `0x`. -/
def marked (width n : Nat) : String := "0x" ++ hex width n

end Chip8.Numeral
