import Redraw.Proofs.Twister.Forgetting
import Redraw.Proofs.Twister.Revealing

/-!
# Twisters in lockstep

As many draws as a block has words reveal a window of the sequence that a twister follows, and every
later word is made of those. The window need not be that of a block: when the draws begin inside
one, the rest of the next block is told by the words that were drawn before it. So two twisters that
stand at the same index and give the same draws for so long are the same from then on.
-/

namespace Redraw.Twister

/-- How far a block is used up hangs on the number of draws alone. -/
theorem index_skip_eq {t u : Twister} (h : t.index = u.index) (n : Nat) :
    (t.skip n).index = (u.skip n).index := by
  induction n generalizing t u with
  | zero => exact h
  | succ n ih =>
    refine ih ?_
    by_cases hi : t.index < blockSize
    · rw [snd_next_of_lt hi, snd_next_of_lt (h ▸ hi)]
      exact congrArg (· + 1) h
    · have hfull := index_eq_of_not_lt hi
      rw [snd_next_of_eq hfull, snd_next_of_eq (h ▸ hfull)]

/-- The words of a block after draws are those of the sequence from a place on that is not more than
a block behind the draws. -/
theorem exists_getElem_skip (t : Twister) (n : Nat) :
    ∃ start, start + (t.skip n).index = t.index + n ∧
      ∀ i (h : i < blockSize), (t.skip n).block[i] = t.block.sequence (start + i) := by
  obtain ⟨turns, hblock, hposition⟩ := t.follows_sequence.skip t.block.recurrent_sequence n
  exact ⟨turns * blockSize, hposition.symm, fun i h => hblock.getElem h⟩

/-- Two twisters with the same index that follow the same words from there on are the same after a
block of draws. -/
theorem skip_eq_of_sequence_eq {t u : Twister} (hindex : t.index = u.index)
    (h : ∀ k, t.index ≤ k → t.block.sequence k = u.block.sequence k) {n : Nat}
    (hn : blockSize ≤ n) : t.skip n = u.skip n := by
  have hsame := index_skip_eq hindex n
  obtain ⟨start, hstart, hwords⟩ := t.exists_getElem_skip n
  obtain ⟨start', hstart', hwords'⟩ := u.exists_getElem_skip n
  obtain rfl : start = start' := by omega
  have hle := (t.skip n).index_le
  rw [eq_iff_block_eq hsame]
  refine Vector.ext fun i hi => ?_
  rw [hwords i hi, hwords' i hi]
  exact h (start + i) (by omega)

/-- Two twisters with the same index that give the same 312 draws follow the same words. -/
theorem sequence_eq_of_le {t u : Twister} (hindex : t.index = u.index)
    (h : ∀ j, j < 312 → (t.skip j).next.1 = (u.skip j).next.1) {k : Nat} (hk : t.index ≤ k) :
    t.block.sequence k = u.block.sequence k := by
  rcases Nat.eq_or_lt_of_le hk with rfl | hlt
  · have hfirst := sequence_eq_of_next_skip h (show 0 < 312 by decide)
    rwa [Nat.add_zero, Nat.add_zero, ← hindex] at hfirst
  · have hx := t.block.recurrent_sequence
    have hy := u.block.recurrent_sequence
    have hagree := (agree_iff_agree_zero hx hy t.index).mpr (agree_zero_of_next_skip hindex h)
    exact hagree.eq_of_lt hx hy hlt

/-- Two twisters with the same index that give the same 312 draws are the same after these and any
later draw, and they never give different draws. -/
theorem skip_eq_of_next_skip {t u : Twister} (hindex : t.index = u.index)
    (h : ∀ j, j < 312 → (t.skip j).next.1 = (u.skip j).next.1) :
    (∀ n, 312 ≤ n → t.skip n = u.skip n) ∧ ∀ n, (t.skip n).next.1 = (u.skip n).next.1 := by
  have hwords : ∀ k, t.index ≤ k → t.block.sequence k = u.block.sequence k :=
    fun k hk => sequence_eq_of_le hindex h hk
  refine ⟨fun n hn => skip_eq_of_sequence_eq hindex hwords hn, fun n => ?_⟩
  rw [fst_next_skip, fst_next_skip, ← hindex, hwords _ (Nat.le_add_right _ _)]

theorem agree_lone {a b : UInt64} (h : a >>> 31 = b >>> 31) :
    Agree (lone a).block.sequence (lone b).block.sequence 0 := by
  rw [Block.agree_sequence_zero_iff, getElem_zero_lone, getElem_zero_lone]
  refine ⟨h, fun i hi hpos => ?_⟩
  rw [getElem_lone_of_pos a hi hpos, getElem_lone_of_pos b hi hpos]

/-- Two used-up twisters with different first words are the same after a block of draws that do not
tell them apart. -/
theorem skip_eq_lone :
    (lone 1).index = (lone 2).index ∧ lone 1 ≠ lone 2 ∧
      (∀ j, j < 312 → ((lone 1).skip j).next.1 = ((lone 2).skip j).next.1) ∧
      (lone 1).skip 312 = (lone 2).skip 312 := by
  have hagree : Agree (lone 1).block.sequence (lone 2).block.sequence 0 := agree_lone (by decide)
  have hdraws : ∀ j, j < 312 → ((lone 1).skip j).next.1 = ((lone 2).skip j).next.1 := by
    intro j _
    rw [fst_next_skip, fst_next_skip]
    refine congrArg Block.temper (hagree.eq_of_lt ?_ ?_ (Nat.add_pos_left (by decide) j))
    · exact (lone 1).block.recurrent_sequence
    · exact (lone 2).block.recurrent_sequence
  have hindex : (lone 1).index = (lone 2).index := rfl
  exact ⟨hindex, lone_ne (by decide), hdraws,
    (skip_eq_of_next_skip hindex hdraws).1 312 (Nat.le_refl _)⟩

end Redraw.Twister
