import Mathlib
import Redraw.Decimal.Shortest

/-!
# The numbers that doubles stand for

The bits of a finite double stand for a sign and a magnitude. A double whose magnitude has 53
significant bits is normal: its bits are read back as the very significand and exponent that were
packed, and two such doubles compare as the numbers that they stand for.
-/

namespace Redraw

open Float.Model
open Float.Model.UnpackedFloat (Sign packComponents unpackSign)

/-- The number that a magnitude is. -/
def Decimal.Binary.value (x : Decimal.Binary) : ℚ :=
  x.significand * 2 ^ x.exponent

namespace Double

/-- The number that the bits of a double stand for. Infinities and what is no number, with all bits
of the scale set, stand for none. -/
def value? (bits : UInt64) : Option ℚ :=
  if (bits >>> 52) &&& 0x7FF = 0x7FF then none
  else some ((if bits >>> 63 = 0 then 1 else -1) * (Decimal.Binary.ofBits bits).value)

/-- A positive normal double: a significand of 53 bits and a power of two within the bounds of the
scale. -/
structure Normal where
  /-- The significand, its leading bit included. -/
  significand : ℕ
  /-- The power of two. -/
  exponent : ℤ
  /-- The leading bit is set. -/
  lower : 2 ^ 52 ≤ significand
  /-- There are no bits above it. -/
  upper : significand < 2 ^ 53
  /-- The scale is not that of the doubles without a leading bit. -/
  least : -1074 ≤ exponent
  /-- The scale is not that of the infinities. -/
  greatest : exponent ≤ 971

/-- The double zero. -/
def zero : Float :=
  .ofModel (.pack (.zero .positive))

theorem le_iff_unpack {x y : Float} : x ≤ y ↔ x.toModel.unpack.le y.toModel.unpack = true :=
  decide_eq_true_iff

theorem lt_iff_unpack {x y : Float} : x < y ↔ x.toModel.unpack.lt y.toModel.unpack = true :=
  decide_eq_true_iff

namespace Normal

variable (x y : Normal)

theorem significand_pos : 0 < x.significand :=
  Nat.lt_of_lt_of_le (by decide) x.lower

/-- The number that is packed into the double. -/
def unpacked : UnpackedFloat :=
  .finite .positive x.significand x.exponent x.significand_pos

/-- The double itself. -/
def toFloat : Float :=
  .ofModel (.pack x.unpacked)

/-- The number that it stands for. -/
def value : ℚ :=
  x.significand * 2 ^ x.exponent

/-- What the double shows of its exponent. -/
def scale : ℕ :=
  (x.exponent + 1075).toNat

theorem scale_pos : 0 < x.scale := by
  have := x.least
  unfold scale
  omega

theorem scale_lt : x.scale < 2047 := by
  have := x.greatest
  unfold scale
  omega

theorem exponent_eq : x.exponent = x.scale - 1075 := by
  have := x.least
  unfold scale
  omega

theorem value_pos : 0 < x.value := by
  have := x.significand_pos
  unfold value
  positivity

theorem log2_significand : x.significand.log2 = 52 :=
  (Nat.log2_eq_iff x.significand_pos.ne').mpr ⟨x.lower, x.upper⟩

/-- A normal double is packed from its scale and its significand without the leading bit. -/
theorem pack_unpacked : UnpackedFloat.pack Format.binary64 x.unpacked =
    packComponents Format.binary64 .positive (BitVec.ofNat 11 x.scale)
      (BitVec.ofNat 52 x.significand) := by
  have hbias : (x.exponent + Format.binary64.exponentBias + (52 : ℕ)).toNat = x.scale := by
    change (x.exponent + 1023 + 52).toNat = _
    unfold scale
    omega
  have hfits : ¬ 2 ^ Format.binary64.exponentBits ≤ x.scale + 1 := by
    have := x.scale_lt
    change ¬ 2048 ≤ _
    omega
  simp only [unpacked, UnpackedFloat.pack, hbias, if_neg hfits, x.log2_significand]
  rfl

theorem toNat_ofNat_scale : (BitVec.ofNat 11 x.scale).toNat = x.scale := by
  have := x.scale_lt
  rw [BitVec.toNat_ofNat, Nat.mod_eq_of_lt (by omega)]

/-- The leading bit in front of the others gives the significand. -/
theorem toNat_leadingBit_append :
    (1#1 ++ BitVec.ofNat 52 x.significand).toNat = x.significand := by
  have := x.lower
  have := x.upper
  rw [BitVec.toNat_append, ← Nat.shiftLeft_add_eq_or_of_lt (BitVec.isLt _), BitVec.toNat_ofNat,
    BitVec.toNat_ofNat, Nat.shiftLeft_eq]
  omega

/-- Taking a normal double apart gives what it was packed from. -/
theorem unpack_toFloat : x.toFloat.toModel.unpack = x.unpacked := by
  have hlt := x.scale_lt
  have hpos := x.scale_pos
  have hsign : ∀ (e : BitVec 11) (m : BitVec 52),
      unpackSign (packComponents Format.binary64 .positive e m) = 0#1 := by
    intro e m
    change (0#1 ++ e ++ m).extractLsb' 63 1 = 0#1
    rw [BitVec.extractLsb'_append_eq_of_le (by decide),
      BitVec.extractLsb'_append_eq_of_le (by decide)]
    rfl
  have hfinite : BitVec.ofNat 11 x.scale ≠ -1#11 := by
    intro h
    have hscale : x.scale = 2047 := x.toNat_ofNat_scale ▸ congrArg BitVec.toNat h
    omega
  have hnormal : BitVec.ofNat 11 x.scale ≠ 0#11 := by
    intro h
    have hscale : x.scale = 0 := x.toNat_ofNat_scale ▸ congrArg BitVec.toNat h
    omega
  have hexponent : (x.scale : ℤ) - (Format.binary64.exponentBias + (52 : ℕ)) = x.exponent := by
    change (x.scale : ℤ) - (1023 + 52) = _
    rw [x.exponent_eq]
    omega
  change UnpackedFloat.unpack Format.binary64 (UnpackedFloat.pack Format.binary64 x.unpacked) = _
  rw [pack_unpacked]
  simp only [UnpackedFloat.unpack, UnpackedFloat.unpackMantissa_packComponents,
    UnpackedFloat.unpackExponent_packComponents, hsign, if_neg hfinite, if_neg hnormal,
    toNat_ofNat_scale, toNat_leadingBit_append, hexponent]
  rfl

/-- The bits of a normal double are its scale and, behind it, the significand without its leading
bit. -/
theorem toNat_toBits :
    x.toFloat.toBits.toNat = x.scale * 2 ^ 52 + (x.significand - 2 ^ 52) := by
  have hscale := x.scale_lt
  have hfraction : x.significand % 2 ^ 52 = x.significand - 2 ^ 52 := by
    have := x.lower
    have := x.upper
    omega
  change (UnpackedFloat.pack Format.binary64 x.unpacked).toNat = _
  rw [pack_unpacked]
  change (0#1 ++ BitVec.ofNat 11 x.scale ++ BitVec.ofNat 52 x.significand).toNat = _
  simp only [BitVec.toNat_append, BitVec.toNat_ofNat]
  rw [Nat.mod_eq_of_lt (show x.scale < 2 ^ 11 by omega), hfraction,
    ← Nat.shiftLeft_add_eq_or_of_lt (by have := x.upper; omega)]
  simp [Nat.shiftLeft_eq]

theorem toNat_scaleBits : ((x.toFloat.toBits >>> 52) &&& 0x7FF).toNat = x.scale := by
  have hscale := x.scale_lt
  have hupper := x.upper
  rw [UInt64.toNat_and, UInt64.toNat_shiftRight, toNat_toBits]
  change _ >>> 52 &&& (2 ^ 11 - 1) = _
  rw [Nat.and_two_pow_sub_one_eq_mod, Nat.shiftRight_eq_div_pow]
  omega

/-- The significand and the exponent are read back off the bits. -/
theorem ofBits_toBits :
    Decimal.Binary.ofBits x.toFloat.toBits = ⟨x.significand, x.exponent⟩ := by
  have hpos := x.scale_pos
  have hfraction : (x.toFloat.toBits &&& 0xFFFFFFFFFFFFF).toNat = x.significand - 2 ^ 52 := by
    have hupper := x.upper
    rw [UInt64.toNat_and, toNat_toBits]
    change _ &&& (2 ^ 52 - 1) = _
    rw [Nat.and_two_pow_sub_one_eq_mod]
    omega
  have hwhole : Decimal.Binary.leadingBit + (x.significand - 2 ^ 52) = x.significand :=
    Nat.add_sub_of_le x.lower
  have hleast : Decimal.Binary.leastExponent + (x.scale - 1 : ℕ) = x.exponent := by
    rw [x.exponent_eq, Decimal.Binary.leastExponent]
    omega
  simp only [Decimal.Binary.ofBits, hfraction, toNat_scaleBits, if_neg hpos.ne', hwhole,
    hleast]

/-- The bits of a normal double stand for its value. -/
theorem value?_toBits : value? x.toFloat.toBits = some x.value := by
  have hbits := x.toNat_toBits
  have hlt := x.scale_lt
  have hupper := x.upper
  have hpositive : x.toFloat.toBits >>> 63 = 0 := by
    apply UInt64.toNat_inj.mp
    rw [UInt64.toNat_shiftRight, hbits]
    change _ >>> 63 = 0
    rw [Nat.shiftRight_eq_div_pow]
    omega
  have hfinite : (x.toFloat.toBits >>> 52) &&& 0x7FF ≠ 0x7FF := by
    intro h
    have hscale : x.scale = 2047 := x.toNat_scaleBits ▸ congrArg UInt64.toNat h
    omega
  rw [value?, if_neg hfinite, if_pos hpositive, ofBits_toBits, one_mul]
  rfl

/-- The number of a normal double lies in the range of its exponent. -/
theorem value_mem : 2 ^ (x.exponent + 52) ≤ x.value ∧ x.value < 2 ^ (x.exponent + 53) := by
  have hpos : (0 : ℚ) < 2 ^ x.exponent := by positivity
  have hlower : (2 ^ 52 : ℚ) ≤ x.significand := by exact_mod_cast x.lower
  have hupper : (x.significand : ℚ) < 2 ^ 53 := by exact_mod_cast x.upper
  rw [zpow_add₀ two_ne_zero, zpow_add₀ two_ne_zero, mul_comm, mul_comm (2 ^ x.exponent), value]
  constructor
  · exact mul_le_mul_of_nonneg_right hlower hpos.le
  · exact mul_lt_mul_of_pos_right hupper hpos

/-- A smaller exponent makes a smaller number. -/
theorem value_lt_of_exponent_lt {x y : Normal} (h : x.exponent < y.exponent) :
    x.value < y.value :=
  calc x.value < 2 ^ (x.exponent + 53) := x.value_mem.2
    _ ≤ 2 ^ (y.exponent + 52) := zpow_le_zpow_right₀ one_le_two (by omega)
    _ ≤ y.value := y.value_mem.1

/-- Normal doubles compare as the numbers that they stand for. -/
theorem compare_unpacked : x.unpacked.compare y.unpacked = some (compare x.value y.value) := by
  change some ((compare x.exponent y.exponent).then (compare x.significand y.significand)) = _
  rcases lt_trichotomy x.exponent y.exponent with h | h | h
  · have hlt := value_lt_of_exponent_lt h
    rw [compare_lt_iff_lt.mpr h, compare_lt_iff_lt.mpr hlt]
    rfl
  · have hmono : StrictMono fun m : ℕ => (m : ℚ) * 2 ^ y.exponent :=
      (Nat.strictMono_cast).mul_const (by positivity)
    have hvalue := hmono.cmp_map_eq x.significand y.significand
    rw [cmp_eq_compare, cmp_eq_compare] at hvalue
    rw [compare_eq_iff_eq.mpr h, value, value, h, hvalue]
    rfl
  · have hlt := value_lt_of_exponent_lt h
    rw [compare_gt_iff_gt.mpr h, compare_gt_iff_gt.mpr hlt]
    rfl

end Normal

/-- A double without a sign, zero or normal, and the number that it stands for. -/
inductive Stands : Float → ℚ → Prop
  /-- Zero stands for zero. -/
  | ofZero : Stands zero 0
  /-- A normal double stands for its value. -/
  | ofNormal (x : Normal) : Stands x.toFloat x.value

namespace Stands

variable {x y : Float} {p q : ℚ}

theorem value?_toBits (h : Stands x q) : value? x.toBits = some q := by
  cases h with
  | ofZero => decide +kernel
  | ofNormal x => exact x.value?_toBits

theorem compare_unpack (hx : Stands x p) (hy : Stands y q) :
    x.toModel.unpack.compare y.toModel.unpack = some (compare p q) := by
  have hzero : zero.toModel.unpack = .zero .positive := rfl
  cases hx with
  | ofZero =>
    cases hy with
    | ofZero => decide +kernel
    | ofNormal y =>
      rw [y.unpack_toFloat, compare_lt_iff_lt.mpr y.value_pos, hzero]
      rfl
  | ofNormal x =>
    cases hy with
    | ofZero =>
      rw [x.unpack_toFloat, compare_gt_iff_gt.mpr x.value_pos, hzero]
      rfl
    | ofNormal y => rw [x.unpack_toFloat, y.unpack_toFloat, Normal.compare_unpacked]

/-- Doubles without a sign are ordered as the numbers that they stand for. -/
theorem le_iff (hx : Stands x p) (hy : Stands y q) : x ≤ y ↔ p ≤ q := by
  rw [le_iff_unpack, UnpackedFloat.le, compare_unpack hx hy, Option.any_some,
    Ordering.isLE_iff_ne_gt]
  exact compare_le_iff_le

theorem lt_iff (hx : Stands x p) (hy : Stands y q) : x < y ↔ p < q := by
  rw [lt_iff_unpack, UnpackedFloat.lt, compare_unpack hx hy, beq_iff_eq, Option.some.injEq,
    compare_lt_iff_lt]

end Stands

end Double

end Redraw
