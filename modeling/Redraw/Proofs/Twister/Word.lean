import Redraw.Twister.Basic

/-!
# The linear step on words

A regenerated word takes the upper bits of one word and the lower bits of the next, spliced into one
word and shifted. Splicing loses exactly the other bits, and shifting loses nothing: the
coefficients have their top bit set, so that the bit shifted out can be read off the result.
-/

namespace Redraw.Block

/-- The upper bits of one word and the lower bits of another. -/
def splice (here next : UInt64) : UInt64 :=
  (here &&& upperMask) ||| (next &&& lowerMask)

/-- The upper bits of a splice are those of its first word. -/
@[simp] theorem splice_and_upperMask (here next : UInt64) :
    splice here next &&& upperMask = here &&& upperMask := by
  apply UInt64.toBitVec_inj.mp
  simp only [splice, UInt64.toBitVec_and, UInt64.toBitVec_or, BitVec.and_or_distrib_right,
    BitVec.and_assoc, BitVec.and_self]
  rw [show lowerMask.toBitVec &&& upperMask.toBitVec = 0#64 by decide, BitVec.and_zero,
    BitVec.or_zero]

/-- The lower bits of a splice are those of its second word. -/
@[simp] theorem splice_and_lowerMask (here next : UInt64) :
    splice here next &&& lowerMask = next &&& lowerMask := by
  apply UInt64.toBitVec_inj.mp
  simp only [splice, UInt64.toBitVec_and, UInt64.toBitVec_or, BitVec.and_or_distrib_right,
    BitVec.and_assoc, BitVec.and_self]
  rw [show upperMask.toBitVec &&& lowerMask.toBitVec = 0#64 by decide, BitVec.and_zero,
    BitVec.zero_or]

/-- A word is the splice of its own two parts. -/
theorem splice_self (word : UInt64) : splice word word = word := by
  apply UInt64.toBitVec_inj.mp
  simp only [splice, UInt64.toBitVec_and, UInt64.toBitVec_or]
  rw [← BitVec.and_or_distrib_left,
    show upperMask.toBitVec ||| lowerMask.toBitVec = BitVec.allOnes 64 by decide,
    BitVec.and_allOnes]

/-- Two splices agree exactly when the parts that they keep agree. -/
theorem splice_inj {here next here' next' : UInt64} :
    splice here next = splice here' next' ↔
      here &&& upperMask = here' &&& upperMask ∧ next &&& lowerMask = next' &&& lowerMask := by
  constructor
  · intro h
    have hu := congrArg (· &&& upperMask) h
    have hl := congrArg (· &&& lowerMask) h
    simpa only [splice_and_upperMask, splice_and_lowerMask] using And.intro hu hl
  · rintro ⟨hu, hl⟩
    rw [splice, splice, hu, hl]

/-- Two words are equal when both their parts are. -/
theorem eq_of_parts {word word' : UInt64} (hu : word &&& upperMask = word' &&& upperMask)
    (hl : word &&& lowerMask = word' &&& lowerMask) : word = word' := by
  rw [← splice_self word, ← splice_self word', splice, splice, hu, hl]

/-- The top bit after a shift is the bit that was shifted out. -/
theorem msb_shift (word : UInt64) : (shift word).toBitVec.msb = decide (word &&& 1 ≠ 0) := by
  have hhalf : (word >>> 1).toBitVec.msb = false := by simp [BitVec.msb_ushiftRight]
  unfold shift
  split <;> rename_i h
  · simp [h]
  · rw [UInt64.toBitVec_xor, BitVec.msb_xor, hhalf, Bool.false_xor, decide_eq_true h]
    decide

private theorem and_one_eq (word : UInt64) : word &&& 1 = 0 ∨ word &&& 1 = 1 := by
  rcases Nat.mod_two_eq_zero_or_one word.toNat with h | h
  · exact Or.inl (UInt64.toNat_inj.mp (by simpa [Nat.and_one_is_mod] using h))
  · exact Or.inr (UInt64.toNat_inj.mp (by simpa [Nat.and_one_is_mod] using h))

private theorem eq_of_halves {a b : UInt64} (hbit : a &&& 1 = b &&& 1)
    (hhalf : a >>> 1 = b >>> 1) : a = b := by
  apply UInt64.toNat_inj.mp
  have hb := congrArg UInt64.toNat hbit
  have hh := congrArg UInt64.toNat hhalf
  simp [Nat.and_one_is_mod, Nat.shiftRight_eq_div_pow] at hb hh
  omega

/-- Shifting loses nothing: the top bit tells whether the coefficients were added. -/
theorem shift_injective {a b : UInt64} (h : shift a = shift b) : a = b := by
  have hm := congrArg (fun word : UInt64 => word.toBitVec.msb) h
  simp only [msb_shift, decide_eq_decide] at hm
  have hbit : a &&& 1 = b &&& 1 := by
    rcases and_one_eq a with ha | ha <;> rcases and_one_eq b with hb | hb <;> simp_all
  apply eq_of_halves hbit
  by_cases ha : a &&& 1 = 0
  · simpa only [shift, ha, ← hbit, ite_true] using h
  · simpa only [shift, ha, ← hbit, ite_false, UInt64.xor_left_inj] using h

end Redraw.Block
