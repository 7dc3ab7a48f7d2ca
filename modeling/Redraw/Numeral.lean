/-!
# Decimal numerals

The written form of a number is its decimal digits without leading zeros. Reading admits more: one
plus sign may stand in front, and any number of leading zeros. What is read must lie below a limit.
-/

namespace Redraw.Numeral

/-- The decimal digits of a number, the most significant first. -/
def digits (n : Nat) : List Char :=
  Nat.toDigits 10 n

/-- The decimal form of a number. -/
def text (n : Nat) : String :=
  String.ofList (digits n)

/-- The number that decimal digits stand for. -/
def value (ds : List Char) : Nat :=
  Nat.ofDigitChars 10 ds 0

/-- What follows an optional plus sign. -/
def unsigned : List Char → List Char
  | '+' :: rest => rest
  | cs => cs

/-- The number below a limit that a numeral stands for. A numeral is an optional plus sign and one
or more decimal digits. -/
def read? (limit : Nat) (cs : List Char) : Option Nat :=
  let ds := unsigned cs
  if !ds.isEmpty && ds.all Char.isDigit && decide (value ds < limit) then some (value ds) else none

/-- The 64-bit word that a numeral stands for. -/
def word? (numeral : String) : Option UInt64 :=
  (read? UInt64.size numeral.toList).map UInt64.ofNat

end Redraw.Numeral
