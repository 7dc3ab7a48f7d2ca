import Redraw.Json.Fault

/-!
# JSON numbers

A number without point and exponent that fits in 64 bits is an integer; every other number is a
double, and so is negative zero. A double is made from the leading digits that fit in 64 bits by
one conversion and one product or quotient with a power of ten, so it is not always the nearest.
-/

namespace Redraw.Json

/-- The value of a number. -/
inductive Number where
  /-- A whole number of at most 64 bits. -/
  | integer (value : Int)
  /-- Any other number. -/
  | float (value : Float)

namespace Number

/-- What a message says was found. -/
def found : Number → Found
  | integer value => .integer value
  | float value => .float value

end Number

/-- The exponent of a number as written. -/
structure WrittenExponent where
  /-- Whether a minus sign stands in front. -/
  negative : Bool
  /-- Its digits. -/
  digits : List Char

/-- A number as written. -/
structure WrittenNumber where
  /-- Whether a minus sign stands in front. -/
  negative : Bool
  /-- The digits before the point. -/
  whole : List Char
  /-- The digits after the point, none if there is no point. -/
  fraction : List Char
  /-- The exponent, if there is one. -/
  exponent : Option WrittenExponent

/-- One or more digits, and what follows them. -/
def someDigits (s : List Char) : Except Fault (List Char × List Char) :=
  match s with
  | [] => .error .endInValue
  | c :: _ =>
    if c.isDigit then .ok (s.takeWhile Char.isDigit, s.dropWhile Char.isDigit)
    else .error .badNumber

/-- The digits before the point, and what follows them. A leading zero stands alone. -/
def wholeDigits (s : List Char) : Except Fault (List Char × List Char) :=
  match someDigits s with
  | .ok ('0' :: _ :: _, _) => .error .badNumber
  | result => result

/-- The digits after a point, and what follows them. -/
def fractionDigits : List Char → Except Fault (List Char × List Char)
  | '.' :: s => someDigits s
  | s => .ok ([], s)

/-- Whether a sign is a minus sign, and what follows it. -/
def exponentSign : List Char → Bool × List Char
  | '+' :: s => (false, s)
  | '-' :: s => (true, s)
  | s => (false, s)

/-- The exponent, and what follows it. -/
def exponentPart : List Char → Except Fault (Option WrittenExponent × List Char)
  | [] => .ok (none, [])
  | c :: s =>
    if c = 'e' ∨ c = 'E' then
      match someDigits (exponentSign s).2 with
      | .ok (digits, rest) => .ok (some ⟨(exponentSign s).1, digits⟩, rest)
      | .error fault => .error fault
    else .ok (none, c :: s)

/-- Whether a number starts with a minus sign, and what follows it. -/
def minusSign : List Char → Bool × List Char
  | '-' :: s => (true, s)
  | s => (false, s)

/-- A number as written, and what follows it. -/
def writtenNumber (s : List Char) : Except Fault (WrittenNumber × List Char) := do
  let (negative, s) := minusSign s
  let (whole, s) ← wholeDigits s
  let (fraction, s) ← fractionDigits s
  let (exponent, s) ← exponentPart s
  return (⟨negative, whole, fraction, exponent⟩, s)

/-- What follows one or more digits is shorter than the text. -/
theorem length_lt_of_someDigits {s ds rest : List Char} (h : someDigits s = .ok (ds, rest)) :
    rest.length < s.length := by
  unfold someDigits at h
  split at h
  · simp at h
  · split at h
    · next c s hc =>
      simp only [hc, List.dropWhile_cons_of_pos, Except.ok.injEq, Prod.mk.injEq] at h
      rw [← h.2]
      exact Nat.lt_succ_of_le (List.dropWhile_sublist _).length_le
    · simp at h

/-- What follows the digits before the point is shorter than the text. -/
theorem length_lt_of_wholeDigits {s ds rest : List Char} (h : wholeDigits s = .ok (ds, rest)) :
    rest.length < s.length := by
  unfold wholeDigits at h
  split at h
  · simp at h
  · exact length_lt_of_someDigits h

/-- What follows the digits after a point is no longer than the text. -/
theorem length_le_of_fractionDigits {s ds rest : List Char}
    (h : fractionDigits s = .ok (ds, rest)) : rest.length ≤ s.length := by
  unfold fractionDigits at h
  split at h
  · exact Nat.le_succ_of_le (Nat.le_of_lt (length_lt_of_someDigits h))
  · simp_all

/-- What follows the sign of an exponent is no longer than the text. -/
theorem length_exponentSign_le (s : List Char) : (exponentSign s).2.length ≤ s.length := by
  unfold exponentSign
  split <;> simp

/-- What follows an exponent is no longer than the text. -/
theorem length_le_of_exponentPart {s rest : List Char} {e : Option WrittenExponent}
    (h : exponentPart s = .ok (e, rest)) : rest.length ≤ s.length := by
  unfold exponentPart at h
  split at h
  · simp_all
  · next c s =>
    split at h
    · have := length_exponentSign_le s
      split at h
      · next hd =>
        have := length_lt_of_someDigits hd
        simp only [Except.ok.injEq, Prod.mk.injEq] at h
        simp only [List.length_cons, ← h.2]
        omega
      · simp at h
    · simp_all

/-- What follows a minus sign, or the lack of one, is no longer than the text. -/
theorem length_minusSign_le (s : List Char) : (minusSign s).2.length ≤ s.length := by
  unfold minusSign
  split <;> simp

/-- What follows a number is shorter than the text. -/
theorem length_lt_of_writtenNumber {s rest : List Char} {w : WrittenNumber}
    (h : writtenNumber s = .ok (w, rest)) : rest.length < s.length := by
  have sign := length_minusSign_le s
  simp only [writtenNumber, bind, Except.bind, pure, Except.pure] at h
  split at h
  · simp at h
  · next hw =>
    have := length_lt_of_wholeDigits hw
    split at h
    · simp at h
    · next hf =>
      have := length_le_of_fractionDigits hf
      split at h
      · simp at h
      · next he =>
        have := length_le_of_exponentPart he
        simp only [Except.ok.injEq, Prod.mk.injEq] at h
        rw [← h.2]
        omega

/-- Appends digits to a 64-bit number for as long as it stays one, and says how many are left. -/
def appendDigits (n : Nat) : List Char → Nat × Nat
  | [] => (n, 0)
  | c :: cs =>
    let m := 10 * n + (c.toNat - 48)
    if m < UInt64.size then appendDigits m cs else (n, (c :: cs).length)

/-- The greatest exponent that can be written. -/
def greatestExponent : Nat := 2147483647

/-- The greatest power of ten that is a double. -/
def greatestPower : Nat := 308

/-- A power of ten up to the greatest, as a double. -/
def powerOfTen (n : Nat) : Float :=
  Float.ofScientific 1 false n

/-- Divides a double by `10 ^ n`, in steps of the greatest power. -/
def scaleDown (x : Float) (n : Nat) : Float :=
  if n ≤ greatestPower then x / powerOfTen n
  else if x == 0.0 then x
  else scaleDown (x / powerOfTen greatestPower) (n - greatestPower)
termination_by n
decreasing_by simp_all [greatestPower]; omega

/-- Multiplies a double by `10 ^ n`. -/
def scaleUp (x : Float) (n : Nat) : Except Fault Float :=
  if n ≤ greatestPower then
    let y := x * powerOfTen n
    if y.isInf then .error .numberTooGreat else .ok y
  else if x == 0.0 then .ok x
  else .error .numberTooGreat

/-- Multiplies a double by a power of ten. -/
def scale (x : Float) : Int → Except Fault Float
  | .ofNat n => scaleUp x n
  | .negSucc n => .ok (scaleDown x (n + 1))

/-- A double from its leading digits, their power of ten and the written exponent. -/
def magnitude (significand : Nat) (power : Int) : Option WrittenExponent → Except Fault Float
  | none => scale (Float.ofNat significand) power
  | some e =>
    let (n, beyond) := appendDigits 0 e.digits
    if 0 < beyond ∨ greatestExponent < n then
      if significand = 0 ∨ e.negative then .ok 0.0 else .error .numberTooGreat
    else scale (Float.ofNat significand) (if e.negative then power - n else power + n)

namespace WrittenNumber

/-- The double that a number stands for. -/
def float (w : WrittenNumber) : Except Fault Float :=
  let (significand, beyond) := appendDigits 0 w.whole
  let (significand, dropped) := appendDigits significand w.fraction
  let power : Int := beyond - (w.fraction.length - dropped : Nat)
  match magnitude significand power w.exponent with
  | .ok x => .ok (if w.negative then -x else x)
  | .error fault => .error fault

/-- The integer that a number stands for, if it is one. -/
def integer? (w : WrittenNumber) : Option Int :=
  let (n, beyond) := appendDigits 0 w.whole
  if beyond != 0 || !w.fraction.isEmpty || w.exponent.isSome then none
  else if w.negative then if 0 < n ∧ 2 * n ≤ UInt64.size then some (-n) else none
  else some n

/-- The value of a number. -/
def value (w : WrittenNumber) : Except Fault Number :=
  match w.integer? with
  | some n => .ok (.integer n)
  | none => w.float.map .float

end WrittenNumber

/-- The value of a number, and what follows it. -/
def number (s : List Char) : Except Fault (Number × List Char) := do
  let (written, s) ← writtenNumber s
  return (← written.value, s)

/-- What follows a number of no concern. It must have the right shape. -/
def passNumber (s : List Char) : Except Fault (List Char) :=
  match writtenNumber s with
  | .ok (_, s) => .ok s
  | .error _ => .error .badNumber

/-- What follows a number is shorter than the text. -/
theorem length_lt_of_number {s rest : List Char} {n : Number} (h : number s = .ok (n, rest)) :
    rest.length < s.length := by
  simp only [number, bind, Except.bind, pure, Except.pure] at h
  split at h
  · simp at h
  · next hw =>
    split at h
    · simp at h
    · simp only [Except.ok.injEq, Prod.mk.injEq] at h
      exact h.2 ▸ length_lt_of_writtenNumber hw

/-- What follows a number of no concern is shorter than the text. -/
theorem length_lt_of_passNumber {s rest : List Char} (h : passNumber s = .ok rest) :
    rest.length < s.length := by
  unfold passNumber at h
  split at h
  · next hw => exact Except.ok.inj h ▸ length_lt_of_writtenNumber hw
  · simp at h

end Redraw.Json
