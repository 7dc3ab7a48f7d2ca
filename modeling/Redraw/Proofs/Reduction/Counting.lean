import Mathlib

/-!
# Counting words

How many 64-bit words leave a given remainder, and how many have a given quotient. The remainders
below what is left of 2⁶⁴ are those of one word more than the others.
-/

namespace Redraw.Reduction

/-- The words of a kind are as many as the numbers of that kind below 2⁶⁴. -/
theorem card_words (p : ℕ → Prop) [DecidablePred p] :
    Nat.card {word : UInt64 // p word.toNat} = Nat.count p (2 ^ 64) := by
  let number : {word : UInt64 // p word.toNat} ≃ {n // n ∈ (Finset.range (2 ^ 64)).filter p} :=
    { toFun := fun word => ⟨word.val.toNat,
        Finset.mem_filter.mpr ⟨Finset.mem_range.mpr word.val.toNat_lt, word.property⟩⟩
      invFun := fun n => ⟨UInt64.ofNat n.val, by
        obtain ⟨hlt, hp⟩ := Finset.mem_filter.mp n.property
        rwa [UInt64.toNat_ofNat_of_lt' (Finset.mem_range.mp hlt)]⟩
      left_inv := fun word => Subtype.ext UInt64.ofNat_toNat
      right_inv := fun n => by
        obtain ⟨hlt, _⟩ := Finset.mem_filter.mp n.property
        exact Subtype.ext (UInt64.toNat_ofNat_of_lt' (Finset.mem_range.mp hlt)) }
  rw [Nat.card_congr number, Nat.card_eq_fintype_card, Fintype.card_coe,
    Nat.count_eq_card_filter_range]

/-- The words that leave a given remainder. -/
theorem card_words_mod {bound rest : ℕ} (h : rest < bound) :
    Nat.card {word : UInt64 // word.toNat % bound = rest} =
      2 ^ 64 / bound + if rest < 2 ^ 64 % bound then 1 else 0 := by
  have hsame : ∀ n, n % bound = rest ↔ n ≡ rest [MOD bound] := by
    intro n
    rw [Nat.ModEq, Nat.mod_eq_of_lt h]
  have hcount := Nat.count_modEq_card (2 ^ 64) (Nat.zero_lt_of_lt h) rest
  rw [Nat.mod_eq_of_lt h] at hcount
  rw [card_words (· % bound = rest)]
  simpa only [hsame] using hcount

/-- The words that have a given quotient, if none of them is cut off. -/
theorem card_words_div {step quotient : ℕ} (hpos : 0 < step)
    (hle : (quotient + 1) * step ≤ 2 ^ 64) :
    Nat.card {word : UInt64 // word.toNat / step = quotient} = step := by
  have hrange : (Finset.range (2 ^ 64)).filter (· / step = quotient) =
      Finset.Ico (quotient * step) ((quotient + 1) * step) := by
    ext n
    rw [Finset.mem_filter, Finset.mem_range, Finset.mem_Ico, Nat.div_eq_iff hpos]
    constructor
    · rintro ⟨_, hlower, hupper⟩
      exact ⟨hlower, by rw [Nat.succ_mul]; omega⟩
    · rintro ⟨hlower, hupper⟩
      exact ⟨hupper.trans_le hle, hlower, by rw [Nat.succ_mul] at hupper; omega⟩
  rw [card_words (· / step = quotient), Nat.count_eq_card_filter_range, hrange, Nat.card_Ico,
    Nat.succ_mul, Nat.add_sub_cancel_left]

end Redraw.Reduction
