import Redraw.Proofs.Double.Exact
import Redraw.Proofs.Reduction.Counting
import Redraw.Reduction

/-!
# Evenly spread reals

A unit real is the fraction that the top 53 bits of its raw draw are, exactly: neither the
conversion nor the product rounds. So greater draws give no smaller reals, no real is as great as
one, and every fraction is given by as many draws as the bits that are dropped allow.
-/

namespace Redraw.Reduction

open Double (Normal Stands value?)

/-- The top 53 bits of a word, read as a fraction. -/
def fraction (raw : UInt64) : ℚ :=
  (raw.toNat / 2 ^ 11 : ℕ) / 2 ^ 53

theorem toNat_top (raw : UInt64) : (raw >>> 11).toNat = raw.toNat / 2 ^ 11 := by
  rw [UInt64.toNat_shiftRight, Nat.shiftRight_eq_div_pow]
  rfl

theorem toNat_top_lt (raw : UInt64) : (raw >>> 11).toNat < 2 ^ 53 := by
  have := raw.toNat_lt
  rw [toNat_top]
  omega

/-- The step between neighbouring reals is a power of two. -/
theorem unitStep_eq : unitStep = (Normal.power (-53) (by decide) (by decide)).toFloat := by
  decide +kernel

theorem stands_top (raw : UInt64) : Stands (raw >>> 11).toFloat (raw.toNat / 2 ^ 11 : ℕ) := by
  rw [← toNat_top]
  exact .ofWord (toNat_top_lt raw)

theorem stands_unitStep : Stands unitStep (1 / 2 ^ 53) := by
  have hvalue : (1 / 2 ^ 53 : ℚ) = (Normal.power (-53) (by decide) (by decide)).value := by
    rw [Normal.value_power, zpow_neg, one_div]
    rfl
  rw [unitStep_eq, hvalue]
  exact .ofNormal _

theorem stands_one : Stands 1 1 := by
  have hfloat : (1 : Float) = (Normal.power 0 (by decide) (by decide)).toFloat := by
    decide +kernel
  have hvalue : (Normal.power 0 (by decide) (by decide)).value = 1 := by
    rw [Normal.value_power, zpow_zero]
  rw [hfloat, ← hvalue]
  exact .ofNormal _

/-- A unit real stands for the fraction of its raw draw. -/
theorem stands_unit (raw : UInt64) : Stands (unit raw) (fraction raw) := by
  rcases Nat.eq_zero_or_pos (raw >>> 11).toNat with hzero | hpos
  · have htop : raw >>> 11 = 0 := UInt64.toNat_inj.mp hzero
    have hunit : unit raw = Double.zero := by
      rw [unit, htop]
      decide +kernel
    rw [hunit, fraction, ← toNat_top, hzero, Nat.cast_zero, zero_div]
    exact .ofZero
  · have hlt := toNat_top_lt raw
    let top := Normal.ofNat _ hpos hlt
    have hexponent : -52 ≤ top.exponent ∧ top.exponent ≤ 0 := by
      have hlog : (raw >>> 11).toNat.log2 < 53 := (Nat.log2_lt hpos.ne').mpr hlt
      have hexp : top.exponent = (raw >>> 11).toNat.log2 - 52 := rfl
      omega
    let real := top.shift (-53) (by omega) (by omega)
    have hunit : unit raw = real.toFloat := by
      rw [unit, Normal.toFloat_ofNat hpos hlt, unitStep_eq, Normal.mul_power]
    have hvalue : fraction raw = real.value := by
      rw [Normal.value_shift, Normal.value_ofNat, fraction, toNat_top, zpow_neg, div_eq_mul_inv]
      rfl
    rw [hunit, hvalue]
    exact .ofNormal _

/-- A word, read as a fraction itself, lies less than a step above the fraction of its top bits. -/
theorem fraction_mem (raw : UInt64) :
    fraction raw ≤ raw.toNat / 2 ^ 64 ∧ raw.toNat / 2 ^ 64 - fraction raw < 1 / 2 ^ 53 := by
  have hsplit : (raw.toNat : ℚ) = 2 ^ 11 * (raw.toNat / 2 ^ 11 : ℕ) + (raw.toNat % 2 ^ 11 : ℕ) := by
    exact_mod_cast (Nat.div_add_mod raw.toNat (2 ^ 11)).symm
  have hdropped : ((raw.toNat % 2 ^ 11 : ℕ) : ℚ) < 2 ^ 11 := by
    exact_mod_cast Nat.mod_lt _ (by decide)
  have hdifference : raw.toNat / 2 ^ 64 - fraction raw = (raw.toNat % 2 ^ 11 : ℕ) / 2 ^ 64 := by
    rw [fraction, hsplit]
    ring
  constructor
  · rw [← sub_nonneg, hdifference]
    positivity
  · calc _ = ((raw.toNat % 2 ^ 11 : ℕ) : ℚ) / 2 ^ 64 := hdifference
      _ < 2 ^ 11 / 2 ^ 64 := by gcongr
      _ = 1 / 2 ^ 53 := by norm_num

theorem fraction_nonneg (raw : UInt64) : 0 ≤ fraction raw := by
  unfold fraction
  positivity

theorem fraction_lt_one (raw : UInt64) : fraction raw < 1 := by
  have htop : ((raw.toNat / 2 ^ 11 : ℕ) : ℚ) < 2 ^ 53 := by
    rw [← toNat_top]
    exact_mod_cast toNat_top_lt raw
  rw [fraction, div_lt_one (by positivity)]
  exact htop

theorem fraction_mono {raw raw' : UInt64} (h : raw ≤ raw') : fraction raw ≤ fraction raw' := by
  have htop : raw.toNat / 2 ^ 11 ≤ raw'.toNat / 2 ^ 11 :=
    Nat.div_le_div_right (UInt64.le_iff_toNat_le.mp h)
  unfold fraction
  gcongr

theorem fraction_eq_iff {raw : UInt64} {k : ℕ} :
    fraction raw = k / 2 ^ 53 ↔ raw.toNat / 2 ^ 11 = k := by
  rw [fraction, div_left_inj' (by positivity), Nat.cast_inj]

/-- Every fraction is that of 2¹¹ words. -/
theorem card_fraction {k : ℕ} (h : k < 2 ^ 53) :
    Nat.card {raw : UInt64 // fraction raw = k / 2 ^ 53} = 2 ^ 11 := by
  have hle : (k + 1) * 2 ^ 11 ≤ 2 ^ 64 := by omega
  simp only [fraction_eq_iff]
  exact card_words_div (by decide) hle

/-- The bits of a unit real stand for the fraction that the top 53 bits of its raw draw are: neither
the conversion of these bits nor the product with the step is rounded. So unit reals reach from zero
to below one, each less than a step below its draw as a fraction, and greater draws give no smaller
ones; and every multiple of the step below one is given by 2¹¹ draws. -/
theorem unit_evenly_spread :
    (∀ raw : UInt64,
      value? (raw >>> 11).toFloat.toBits = some ((raw.toNat / 2 ^ 11 : ℕ) : ℚ) ∧
      value? unitStep.toBits = some (1 / 2 ^ 53) ∧
      value? (unit raw).toBits = some (fraction raw) ∧
      (0 ≤ fraction raw ∧ fraction raw < 1 ∧ 0 ≤ unit raw ∧ unit raw < 1) ∧
      fraction raw ≤ raw.toNat / 2 ^ 64 ∧ raw.toNat / 2 ^ 64 - fraction raw < 1 / 2 ^ 53) ∧
    (∀ raw raw' : UInt64, raw ≤ raw' → fraction raw ≤ fraction raw' ∧ unit raw ≤ unit raw') ∧
    ∀ k : ℕ, k < 2 ^ 53 →
      Nat.card {raw : UInt64 // value? (unit raw).toBits = some ((k : ℚ) / 2 ^ 53)} = 2 ^ 11 := by
  refine ⟨fun raw => ?_, fun raw raw' h => ?_, fun k h => ?_⟩
  · have hreal := stands_unit raw
    have hnonneg := fraction_nonneg raw
    have hlt := fraction_lt_one raw
    refine ⟨(stands_top raw).value?_toBits, stands_unitStep.value?_toBits, hreal.value?_toBits,
      ⟨hnonneg, hlt, ?_, ?_⟩, fraction_mem raw⟩
    · exact (Stands.le_iff .ofZero hreal).mpr hnonneg
    · exact (Stands.lt_iff hreal stands_one).mpr hlt
  · have hle := fraction_mono h
    exact ⟨hle, (Stands.le_iff (stands_unit raw) (stands_unit raw')).mpr hle⟩
  · have hsame : ∀ raw, value? (unit raw).toBits = some ((k : ℚ) / 2 ^ 53) ↔
        fraction raw = k / 2 ^ 53 := by
      intro raw
      rw [(stands_unit raw).value?_toBits, Option.some.injEq]
    simp only [hsame]
    exact card_fraction h

/-- The greatest unit real is given by the last 2¹¹ words. -/
theorem unit_evenly_spread_last :
    ((0xFFFFFFFFFFFFF7FF : UInt64) ≤ 0xFFFFFFFFFFFFFFFF ∧ 9007199254740991 < 2 ^ 53) ∧
    unit 0xFFFFFFFFFFFFF7FF ≤ unit 0xFFFFFFFFFFFFFFFF ∧
    Nat.card {raw : UInt64 //
      value? (unit raw).toBits = some (((9007199254740991 : ℕ) : ℚ) / 2 ^ 53)} = 2 ^ 11 := by
  have hinputs : (0xFFFFFFFFFFFFF7FF : UInt64) ≤ 0xFFFFFFFFFFFFFFFF ∧
      9007199254740991 < 2 ^ 53 := by decide
  exact ⟨hinputs, (unit_evenly_spread.2.1 _ _ hinputs.1).2, unit_evenly_spread.2.2 _ hinputs.2⟩

end Redraw.Reduction
