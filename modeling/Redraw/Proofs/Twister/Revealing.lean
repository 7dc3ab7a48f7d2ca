import Redraw.Proofs.Twister.Seeding
import Redraw.Proofs.Twister.Temper

/-!
# What draws reveal

A draw reveals the word that was tempered. As many draws as a block has words reveal a whole window
of the sequence that the twister follows, and with it everything that regenerating reads of any
other window. For a fresh twister that is more than its second word, from which the seed can be
told; so no two seeds give the same block of draws.
-/

namespace Redraw.Twister

/-- Where two twisters give the same draws, the sequences that they follow have the same words. -/
theorem sequence_eq_of_next_skip {t u : Twister} {n : Nat}
    (h : ∀ j, j < n → (t.skip j).next.1 = (u.skip j).next.1) {j : Nat} (hj : j < n) :
    t.block.sequence (t.index + j) = u.block.sequence (u.index + j) := by
  have hequal := h j hj
  rw [fst_next_skip, fst_next_skip] at hequal
  exact Block.temper_injective hequal

/-- Two twisters with the same index that give the same draws for a block agree on what regenerating
reads of their blocks. -/
theorem agree_zero_of_next_skip {t u : Twister} (hindex : t.index = u.index)
    (h : ∀ j, j < blockSize → (t.skip j).next.1 = (u.skip j).next.1) :
    Agree t.block.sequence u.block.sequence 0 := by
  have hwindow : Agree t.block.sequence u.block.sequence t.index := by
    refine agree_of_eq fun k hk hkb => ?_
    have hword := sequence_eq_of_next_skip h (show k - t.index < blockSize by omega)
    rwa [← hindex, Nat.add_sub_cancel' hk] at hword
  exact (agree_iff_agree_zero t.block.recurrent_sequence u.block.recurrent_sequence _).mp hwindow

/-- The seed of a fresh twister can be told from its second word. -/
theorem eq_of_agree_ofSeed {s t : UInt64}
    (h : Agree (ofSeed s).block.sequence (ofSeed t).block.sequence 0) : s = t := by
  have hword : ∀ seed : UInt64, (ofSeed seed).block.sequence 1 = Block.seedStep seed 1 := by
    intro seed
    rw [Block.sequence_of_lt _ (show 1 < blockSize by decide)]
    exact Block.getElem_ofSeed seed (by decide)
  have hsecond := h.2 1 (by decide) (by decide)
  rw [hword s, hword t] at hsecond
  exact Block.seedStep_injective hsecond

/-- Two seeds give different draws among the first 312 exactly when they are different. -/
theorem exists_next_skip_ofSeed_ne_iff (s t : UInt64) :
    (∃ j, j < 312 ∧ ((ofSeed s).skip j).next.1 ≠ ((ofSeed t).skip j).next.1) ↔ s ≠ t := by
  constructor
  · rintro ⟨j, _, hne⟩ rfl
    exact hne rfl
  · intro hne
    refine Classical.byContradiction fun hnone => hne (eq_of_agree_ofSeed ?_)
    refine agree_zero_of_next_skip rfl fun j hj => ?_
    exact Classical.byContradiction fun hdiffer => hnone ⟨j, hj, hdiffer⟩

end Redraw.Twister
