import Redraw.Twister.Basic

/-!
# Scrambled words

Tempering a word, and computing the next word of a seeded block, combine the word with a shifted and
masked copy of itself. The bits at the end from which the copy is moved away are kept as they are,
and each of the others is told by the bits before it. So nothing is lost in such a step, nor by
multiplying with an odd number, and a word can be told from the word it is scrambled to.
-/

namespace Redraw.Block

/-- Bits that are combined with masked bits from further up can be read off from the top. -/
theorem bits_eq_of_xor_ushiftRight_and {w k : Nat} (hk : 0 < k) (mask : BitVec w) {x y : BitVec w}
    (h : x ^^^ ((x >>> k) &&& mask) = y ^^^ ((y >>> k) &&& mask)) : x = y := by
  have hbits : ∀ d i, w ≤ i + d → x.getLsbD i = y.getLsbD i := by
    intro d
    induction d with
    | zero =>
      intro i hi
      rw [BitVec.getLsbD_of_ge x i hi, BitVec.getLsbD_of_ge y i hi]
    | succ d ih =>
      intro i hi
      have hbit := congrArg (BitVec.getLsbD · i) h
      have habove := ih (k + i) (by omega)
      simpa only [BitVec.getLsbD_xor, BitVec.getLsbD_and, BitVec.getLsbD_ushiftRight, habove,
        Bool.xor_left_inj] using hbit
  exact BitVec.eq_of_getLsbD_eq fun i _ => hbits w i (Nat.le_add_left _ _)

/-- Bits that are combined with masked bits from further down can be read off from the bottom. -/
theorem bits_eq_of_xor_shiftLeft_and {w k : Nat} (hk : 0 < k) (mask : BitVec w) {x y : BitVec w}
    (h : x ^^^ ((x <<< k) &&& mask) = y ^^^ ((y <<< k) &&& mask)) : x = y := by
  have hbits : ∀ i, x.getLsbD i = y.getLsbD i := by
    intro i
    induction i using Nat.strongRecOn with
    | ind i ih =>
      have hbit := congrArg (BitVec.getLsbD · i) h
      simp only [BitVec.getLsbD_xor, BitVec.getLsbD_and, BitVec.getLsbD_shiftLeft] at hbit
      by_cases hi : i < k
      · simpa only [hi, decide_true, Bool.not_true, Bool.and_false, Bool.false_and,
          Bool.xor_false] using hbit
      · have hbelow := ih (i - k) (by omega)
        simpa only [hbelow, Bool.xor_left_inj] using hbit
  exact BitVec.eq_of_getLsbD_eq fun i _ => hbits i

theorem eq_of_xor_shiftRight_and {k mask x y : UInt64} (hk : 0 < k.toNat % 64)
    (h : x ^^^ ((x >>> k) &&& mask) = y ^^^ ((y >>> k) &&& mask)) : x = y := by
  have hbits := congrArg UInt64.toBitVec h
  exact UInt64.toBitVec_inj.mp (bits_eq_of_xor_ushiftRight_and hk mask.toBitVec hbits)

theorem eq_of_xor_shiftLeft_and {k mask x y : UInt64} (hk : 0 < k.toNat % 64)
    (h : x ^^^ ((x <<< k) &&& mask) = y ^^^ ((y <<< k) &&& mask)) : x = y := by
  have hbits := congrArg UInt64.toBitVec h
  exact UInt64.toBitVec_inj.mp (bits_eq_of_xor_shiftLeft_and hk mask.toBitVec hbits)

theorem eq_of_xor_shiftRight {k x y : UInt64} (hk : 0 < k.toNat % 64)
    (h : x ^^^ (x >>> k) = y ^^^ (y >>> k)) : x = y := by
  rw [← UInt64.and_neg_one (a := x >>> k), ← UInt64.and_neg_one (a := y >>> k)] at h
  exact eq_of_xor_shiftRight_and hk h

/-- The word that was tempered can be told from the value that is given out. -/
theorem temper_injective {x y : UInt64} (h : temper x = temper y) : x = y := by
  have hfourth := eq_of_xor_shiftRight (by decide) h
  have hthird := eq_of_xor_shiftLeft_and (by decide) hfourth
  have hsecond := eq_of_xor_shiftLeft_and (by decide) hthird
  exact eq_of_xor_shiftRight_and (by decide) hsecond

/-- The word before can be told from a word of a seeded block: the multiplier is odd, so that it has
an inverse. -/
theorem seedStep_injective {x y : UInt64} {i : Nat} (h : seedStep x i = seedStep y i) : x = y := by
  have hproduct := (UInt64.add_left_inj _).mp h
  have hinverse : (13877824140714322085 : UInt64) * seedMultiplier = 1 := by decide
  have hmixed := congrArg ((13877824140714322085 : UInt64) * ·) hproduct
  simp only [← UInt64.mul_assoc, hinverse, UInt64.one_mul] at hmixed
  exact eq_of_xor_shiftRight (by decide) hmixed

end Redraw.Block
