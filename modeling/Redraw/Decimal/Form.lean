import Redraw.Decimal.Shortest
import Redraw.Numeral

/-!
# Written forms of doubles

Both forms write the shortest decimal. The plain form has no exponent and no point where none is
needed, whatever the magnitude. The marked form always shows that it is no integer: by a point, or
by an exponent for very great and very small magnitudes.
-/

namespace Redraw.Decimal

/-- Nonzero digits at both ends and the place of the point: the first digit counts `10 ^ lead`. -/
structure Figure where
  /-- The significant digits. -/
  digits : List Char
  /-- The power of ten that the first digit counts. -/
  lead : Int

namespace Figure

/-- The figure of a decimal, without trailing zeros. -/
def ofScaled (d : Scaled) : Figure :=
  let digits := Numeral.digits d.significand
  ⟨(digits.reverse.dropWhile (· == '0')).reverse, d.exponent + digits.length - 1⟩

/-- The digits before and after the point. -/
def split (f : Figure) : List Char × List Char :=
  if f.lead < 0 then (['0'], List.replicate (-f.lead - 1).toNat '0' ++ f.digits)
  else
    let whole := (f.lead + 1).toNat
    ((f.digits ++ List.replicate (whole - f.digits.length) '0').take whole, f.digits.drop whole)

/-- The positional form; a whole number has no point. -/
def positional (f : Figure) : List Char :=
  let (whole, fraction) := f.split
  if fraction.isEmpty then whole else whole ++ '.' :: fraction

/-- The positional form with a point always. -/
def pointed (f : Figure) : List Char :=
  let (whole, fraction) := f.split
  whole ++ '.' :: (if fraction.isEmpty then ['0'] else fraction)

/-- The form with one digit before the point and a signed exponent. -/
def scientific (f : Figure) : List Char :=
  f.digits.take 1 ++ (if f.digits.length ≤ 1 then [] else '.' :: f.digits.drop 1) ++
    ['e', if f.lead < 0 then '-' else '+'] ++ Numeral.digits f.lead.natAbs

end Figure

/-- The plain form of a finite double that is not negative: positional, zero as a single digit, the
greater of two equally near decimals. -/
def plain (x : Float) : String :=
  let magnitude := Binary.ofBits x.toBits
  if magnitude.significand = 0 then "0"
  else String.ofList (Figure.ofScaled (magnitude.shortest .up)).positional

/-- The least power of ten that the marked form writes positionally. -/
def markedLeast : Int := -5

/-- The greatest power of ten that the marked form writes positionally. -/
def markedGreatest : Int := 15

/-- The marked form of a finite double: with its sign, positional with a point from `10 ^ -5` to
below `10 ^ 16`, scientific elsewhere, the even one of two equally near decimals. -/
def marked (x : Float) : String :=
  let magnitude := Binary.ofBits x.toBits
  let body :=
    if magnitude.significand = 0 then ['0', '.', '0']
    else
      let figure := Figure.ofScaled (magnitude.shortest .toEven)
      if markedLeast ≤ figure.lead ∧ figure.lead ≤ markedGreatest then figure.pointed
      else figure.scientific
  String.ofList (if x.toBits >>> 63 = 1 then '-' :: body else body)

end Redraw.Decimal
