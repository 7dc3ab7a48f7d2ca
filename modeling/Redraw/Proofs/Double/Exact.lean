import Redraw.Proofs.Double.Value

/-!
# Exact conversions and products of doubles

Rounding a significand of more than 53 bits loses nothing when the bits beyond are zero. So whole
numbers below 2⁵³ become doubles without rounding, and so does the product of a normal double and a
power of two, as long as the exponent stays within its bounds.
-/

namespace Redraw.Double

open Float.Model
open Float.Model.UnpackedFloat (ExtendedMantissa roundWithAccuracy shiftToTargetExponent)

/-- Shifting zeros out leaves nothing to round. -/
theorem exact_shiftRight (m k : ℕ) :
    ExtendedMantissa.ofMantissaAndAccuracy (m * 2 ^ k) .exact >>> k =
      ExtendedMantissa.ofMantissaAndAccuracy m .exact := by
  induction k generalizing m with
  | zero => rw [pow_zero, mul_one]; rfl
  | succ k ih =>
    have hstep : ExtendedMantissa.ofMantissaAndAccuracy (m * 2 ^ (k + 1)) .exact >>> (k + 1) =
        (ExtendedMantissa.ofMantissaAndAccuracy (m * 2 ^ (k + 1)) .exact >>> k).shiftRightOne := rfl
    have hpower : m * 2 ^ (k + 1) = m * 2 * 2 ^ k := by ring
    rw [hstep, hpower, ih]
    simp [ExtendedMantissa.shiftRightOne, ExtendedMantissa.ofMantissaAndAccuracy]

/-- Zeros behind a number make it as much longer. -/
theorem log2_mul_two_pow {n : ℕ} (h : n ≠ 0) (k : ℕ) : (n * 2 ^ k).log2 = n.log2 + k := by
  induction k with
  | zero => rw [pow_zero, mul_one, Nat.add_zero]
  | succ k ih =>
    have hpos : n * 2 ^ k ≠ 0 := mul_ne_zero h (by positivity)
    rw [pow_succ', mul_left_comm, Nat.log2_two_mul hpos, ih, Nat.add_assoc]

namespace Normal

variable (x : Normal)

/-- Zeros behind the significand do not change which exponent is aimed at. -/
theorem targetExponent_scaled (k : ℕ) :
    Format.binary64.targetExponent (totalExponent (x.significand * 2 ^ k) (x.exponent - k)) =
      x.exponent := by
  have hlog : (x.significand * 2 ^ k).log2 = 52 + k := by
    rw [log2_mul_two_pow x.significand_pos.ne', log2_significand]
  have := x.least
  simp only [Format.targetExponent, totalExponent, hlog, Format.mantissaBits, Format.minExponent]
  omega

theorem shiftToTargetExponent_scaled (k : ℕ) :
    shiftToTargetExponent Format.binary64 (x.significand * 2 ^ k) (x.exponent - k) .exact =
      (ExtendedMantissa.ofMantissaAndAccuracy x.significand .exact, x.exponent) := by
  have hshift : (x.exponent - (x.exponent - k)).toNat = k := by omega
  simp only [shiftToTargetExponent, UnpackedFloat.shiftToExponent, targetExponent_scaled, hshift,
    exact_shiftRight, Int.sub_add_cancel]

/-- Rounding drops zeros behind the significand of a normal double, and nothing else. -/
theorem roundWithAccuracy_scaled (k : ℕ) :
    roundWithAccuracy Format.binary64 .positive (x.significand * 2 ^ k) (x.exponent - k) .exact =
      x.unpacked := by
  have hround : (ExtendedMantissa.ofMantissaAndAccuracy x.significand .exact).roundedMantissa =
      x.significand := rfl
  have hagain : shiftToTargetExponent Format.binary64 x.significand x.exponent .exact =
      (ExtendedMantissa.ofMantissaAndAccuracy x.significand .exact, x.exponent) := by
    simpa using x.shiftToTargetExponent_scaled 0
  simp only [roundWithAccuracy, shiftToTargetExponent_scaled, hround, hagain]
  exact dif_neg x.significand_pos.ne'

theorem roundWithAccuracy_self :
    roundWithAccuracy Format.binary64 .positive x.significand x.exponent .exact = x.unpacked := by
  simpa using x.roundWithAccuracy_scaled 0

/-- A whole number below 2⁵³, moved up until it has 53 bits. -/
theorem log2_aligned {n : ℕ} (hpos : 0 < n) (hlt : n < 2 ^ 53) :
    (n * 2 ^ (52 - n.log2)).log2 = 52 := by
  have hlog : n.log2 < 53 := (Nat.log2_lt hpos.ne').mpr hlt
  rw [log2_mul_two_pow hpos.ne']
  omega

theorem aligned_mem {n : ℕ} (hpos : 0 < n) (hlt : n < 2 ^ 53) :
    2 ^ 52 ≤ n * 2 ^ (52 - n.log2) ∧ n * 2 ^ (52 - n.log2) < 2 ^ 53 :=
  (Nat.log2_eq_iff (mul_ne_zero hpos.ne' (by positivity))).mp (log2_aligned hpos hlt)

/-- The normal double of a whole number. -/
def ofNat (n : ℕ) (hpos : 0 < n) (hlt : n < 2 ^ 53) : Normal where
  significand := n * 2 ^ (52 - n.log2)
  exponent := n.log2 - 52
  lower := (aligned_mem hpos hlt).1
  upper := (aligned_mem hpos hlt).2
  least := by omega
  greatest := by
    have hlog : n.log2 < 53 := (Nat.log2_lt hpos.ne').mpr hlt
    omega

theorem value_ofNat {n : ℕ} (hpos : 0 < n) (hlt : n < 2 ^ 53) : (ofNat n hpos hlt).value = n := by
  have hlog : n.log2 < 53 := (Nat.log2_lt hpos.ne').mpr hlt
  have hexponent : (n.log2 - 52 : ℤ) = -((52 - n.log2 : ℕ) : ℤ) := by omega
  simp only [value, ofNat, hexponent, Nat.cast_mul, Nat.cast_pow, Nat.cast_ofNat]
  rw [zpow_neg, zpow_natCast, mul_inv_cancel_right₀ (by positivity)]

/-- Converting a whole number rounds nothing. -/
theorem toFloat_ofNat {word : UInt64} (hpos : 0 < word.toNat) (hlt : word.toNat < 2 ^ 53) :
    word.toFloat = (ofNat word.toNat hpos hlt).toFloat := by
  have hlog : word.toNat.log2 < 53 := (Nat.log2_lt hpos.ne').mpr hlt
  have hsign : compare (word.toNat : ℤ) 0 = .gt := Int.compare_eq_gt.mpr (by omega)
  have htarget : Format.binary64.targetExponent (totalExponent word.toNat 0) =
      word.toNat.log2 - 52 := by
    simp only [Format.targetExponent, totalExponent, Format.mantissaBits, Format.minExponent]
    omega
  have hshift : (0 - (word.toNat.log2 - 52 : ℤ)).toNat = 52 - word.toNat.log2 := by omega
  have hexponent : (0 : ℤ) - (52 - word.toNat.log2 : ℕ) = word.toNat.log2 - 52 := by omega
  have hround : UnpackedFloat.round Format.binary64 .positive word.toNat 0 =
      (ofNat word.toNat hpos hlt).unpacked := by
    simp only [UnpackedFloat.round, htarget, UnpackedFloat.decreaseExponent, hshift, hexponent,
      Nat.shiftLeft_eq]
    exact (ofNat word.toNat hpos hlt).roundWithAccuracy_self
  have hmodel : UnpackedFloat.ofUInt64 Format.binary64 word =
      (ofNat word.toNat hpos hlt).unpacked := by
    simp only [UnpackedFloat.ofUInt64, UnpackedFloat.ofNat, UnpackedFloat.ofInt,
      UnpackedFloat.normalize, hsign, Int.toNat_natCast, hround]
  rw [UInt64.toFloat, Float.Model.ofUInt64, hmodel]
  rfl

/-- The power of two with a given exponent. -/
def power (e : ℤ) (least : -1022 ≤ e) (greatest : e ≤ 1023) : Normal where
  significand := 2 ^ 52
  exponent := e - 52
  lower := le_rfl
  upper := by decide
  least := by omega
  greatest := by omega

/-- The double whose exponent is greater by `e`. -/
def shift (e : ℤ) (least : -1074 ≤ x.exponent + e) (greatest : x.exponent + e ≤ 971) : Normal where
  significand := x.significand
  exponent := x.exponent + e
  lower := x.lower
  upper := x.upper
  least := least
  greatest := greatest

theorem value_power {e : ℤ} (least : -1022 ≤ e) (greatest : e ≤ 1023) :
    (power e least greatest).value = 2 ^ e := by
  simp only [value, power, Nat.cast_pow, Nat.cast_ofNat]
  rw [zpow_sub₀ two_ne_zero]
  exact mul_div_cancel₀ _ (by positivity)

theorem value_shift {e : ℤ} (least : -1074 ≤ x.exponent + e) (greatest : x.exponent + e ≤ 971) :
    (x.shift e least greatest).value = x.value * 2 ^ e := by
  simp only [value, shift]
  rw [zpow_add₀ two_ne_zero, mul_assoc]

/-- Multiplying by a power of two rounds nothing. -/
theorem mul_power {e : ℤ} (hleast : -1022 ≤ e) (hgreatest : e ≤ 1023)
    (least : -1074 ≤ x.exponent + e) (greatest : x.exponent + e ≤ 971) :
    x.toFloat * (power e hleast hgreatest).toFloat = (x.shift e least greatest).toFloat := by
  have hexponent : x.exponent + (e - 52) = x.exponent + e - (52 : ℕ) := by omega
  have hround : roundWithAccuracy Format.binary64 .positive (x.significand * 2 ^ 52)
      (x.exponent + (e - 52)) .exact = (x.shift e least greatest).unpacked := by
    rw [hexponent]
    exact (x.shift e least greatest).roundWithAccuracy_scaled 52
  change Float.ofModel (.pack (UnpackedFloat.mul Format.binary64 x.toFloat.toModel.unpack
    (power e hleast hgreatest).toFloat.toModel.unpack)) = _
  rw [unpack_toFloat, unpack_toFloat]
  exact congrArg (fun u => Float.ofModel (.pack u)) hround

end Normal

/-- A whole number below 2⁵³ becomes the double that stands for it. -/
theorem Stands.ofWord {word : UInt64} (h : word.toNat < 2 ^ 53) :
    Stands word.toFloat word.toNat := by
  rcases Nat.eq_zero_or_pos word.toNat with hzero | hpos
  · have hword : word = 0 := UInt64.toNat_inj.mp hzero
    subst hword
    exact .ofZero
  · rw [Normal.toFloat_ofNat hpos h, ← Normal.value_ofNat hpos h]
    exact .ofNormal _

end Redraw.Double
