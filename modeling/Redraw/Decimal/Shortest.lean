/-!
# The shortest decimal of a binary fraction

A finite double stands for all reals that round to it. Among the decimals in that interval the
shortest one lies on the coarsest grid of multiples of a power of ten that meets the interval; of
two such neighbours on one grid the nearer is taken. All arithmetic is exact.
-/

namespace Redraw.Decimal

/-- Which of two equally near decimals is taken. -/
inductive Tie where
  /-- The greater. -/
  | up
  /-- The one whose last digit is even. -/
  | toEven
  deriving DecidableEq, Repr

/-- The number `significand · 10 ^ exponent`. -/
structure Scaled where
  /-- The digits, read as a whole number. -/
  significand : Nat
  /-- The power of ten. -/
  exponent : Int
  deriving DecidableEq, Repr

/-- The magnitude `significand · 2 ^ exponent` of a finite double. -/
structure Binary where
  /-- The fraction, read as a whole number below 2⁵³. -/
  significand : Nat
  /-- The power of two. -/
  exponent : Int
  deriving DecidableEq, Repr

namespace Binary

/-- The first bit of most fractions, which a double's bits leave out. -/
def leadingBit : Nat := 0x10000000000000

/-- The least power of two; a fraction without its leading bit counts it. -/
def leastExponent : Int := -1074

/-- The magnitude of the finite double with the given bits. -/
def ofBits (bits : UInt64) : Binary :=
  let fraction := (bits &&& 0xFFFFFFFFFFFFF).toNat
  let scale := ((bits >>> 52) &&& 0x7FF).toNat
  if scale = 0 then ⟨fraction, leastExponent⟩
  else ⟨leadingBit + fraction, leastExponent + (scale - 1 : Nat)⟩

/-- How far the interval reaches down, in quarters of a unit of the significand. It is half the way
to the next lower double, which just below a power of two is only half a unit away. -/
def lowerReach (x : Binary) : Nat :=
  if x.significand = leadingBit ∧ leastExponent < x.exponent then 1 else 2

/-- A double, the ends of its interval and the step of a decimal grid, all in one unit. -/
structure Measure where
  /-- The lower end of the interval. -/
  low : Nat
  /-- The double itself. -/
  value : Nat
  /-- The upper end of the interval. -/
  high : Nat
  /-- One step of the grid. -/
  step : Nat
  /-- Whether the ends belong to the interval. -/
  closed : Bool

/-- A double and its interval, measured on the grid of multiples of `10 ^ e`. -/
def measure (x : Binary) (e : Int) : Measure :=
  let scale := Nat.pow 2 (x.exponent - 2).toNat * Nat.pow 10 (-e).toNat
  { low := (4 * x.significand - x.lowerReach) * scale
    value := 4 * x.significand * scale
    high := (4 * x.significand + 2) * scale
    step := Nat.pow 2 (2 - x.exponent).toNat * Nat.pow 10 e.toNat
    closed := x.significand % 2 == 0 }

/-- Whether the `n`-th point of the grid lies in the interval. -/
def Measure.holds (m : Measure) (n : Nat) : Bool :=
  let point := n * m.step
  if m.closed then decide (m.low ≤ point ∧ point ≤ m.high)
  else decide (m.low < point ∧ point < m.high)

/-- The point of the grid that is nearest to the double, among its two neighbours on the grid that
lie in the interval. -/
def Measure.nearest? (m : Measure) (tie : Tie) : Option Nat :=
  let below := m.value / m.step
  match m.holds below, m.holds (below + 1) with
  | false, false => none
  | true, false => some below
  | false, true => some (below + 1)
  | true, true =>
    let rest := 2 * (m.value % m.step)
    if rest < m.step then some below
    else if m.step < rest then some (below + 1)
    else match tie with
      | .up => some (below + 1)
      | .toEven => some (if below % 2 = 0 then below else below + 1)

/-- The first hit on grids that become finer from `10 ^ e` on, at most `n` times. -/
def search (x : Binary) (tie : Tie) : (n : Nat) → (e : Int) → Scaled
  | 0, e => ⟨0, e⟩
  | n + 1, e =>
    match (x.measure e).nearest? tie with
    | some significand => ⟨significand, e⟩
    | none => search x tie n (e - 1)

/-- The shortest decimal in the interval of a double. The search starts at a power of ten above the
double; twenty digits always suffice. -/
def shortest (x : Binary) (tie : Tie) : Scaled :=
  let bits : Int := x.exponent + Nat.log2 x.significand + 1
  x.search tie 24 (bits * 30103 / 100000 + 2)

end Binary

end Redraw.Decimal
