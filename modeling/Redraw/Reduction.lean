/-!
# Reducing raw draws

A raw draw is a 64-bit word. A bounded integer is its remainder, so that every bounded draw costs
exactly one raw draw; the low remainders are favoured by at most one word in 2⁶⁴, and that is the
price of the fixed cost. A real is the top 53 bits of the word, read as a fraction.
-/

namespace Redraw

/-- Why a draw is refused. -/
inductive DrawFault where
  /-- No value lies below zero. -/
  | zeroBound
  deriving DecidableEq, Repr

namespace DrawFault

/-- The wording of a refusal. -/
def message : DrawFault → String
  | zeroBound => "max must be greater than zero"

end DrawFault

namespace Reduction

/-- The remainder of a raw draw on division by a bound, which must not be zero. -/
def below (raw bound : UInt64) : Except DrawFault UInt64 :=
  if bound = 0 then .error .zeroBound else .ok (raw % bound)

/-- The distance between neighbouring reals that can be drawn, 2⁻⁵³. -/
def unitStep : Float :=
  1.0 / ((1 : UInt64) <<< 53).toFloat

/-- The real in [0, 1) made of the top 53 bits of a raw draw. Conversion and product are exact. -/
def unit (raw : UInt64) : Float :=
  (raw >>> 11).toFloat * unitStep

end Reduction

end Redraw
