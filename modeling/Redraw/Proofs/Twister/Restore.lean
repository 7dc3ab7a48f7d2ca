import Redraw.Proofs.Twister.Decay
import Redraw.Twister.Restore

/-!
# Twisters put together again

The words and the index of a twister make that twister again, unless all words are zero. A twister
that was restored from words loses them all exactly when it is idle and its block is used up: what
was accepted can become what would be refused.
-/

namespace Redraw.Twister

theorem length_words (t : Twister) : t.words.length = blockSize :=
  t.block.size_toArray

/-- The words are all zero when there is a zero at every position. -/
theorem all_words_eq_zero_iff (t : Twister) :
    t.words.all (· = 0) = true ↔ ∀ i (hi : i < blockSize), t.block[i] = 0 := by
  rw [List.all_eq_true]
  constructor
  · intro h i hi
    have hmem : t.block[i] ∈ t.words := Vector.mem_toList_iff.mpr (Vector.getElem_mem hi)
    exact of_decide_eq_true (h _ hmem)
  · intro h word hword
    obtain ⟨i, hi, rfl⟩ := Vector.getElem_of_mem (Vector.mem_toList_iff.mp hword)
    exact decide_eq_true (h i hi)

/-- The words and the index of a twister make that twister, unless all words are zero. -/
theorem ofWords?_words (t : Twister) :
    ofWords? t.words t.index = if t.words.all (· = 0) then .error .allZero else .ok t := by
  rw [ofWords?, dif_pos t.length_words, dif_pos t.index_le]
  rfl

/-- What is restored has the given words and index, and not all of the words are zero. -/
theorem ofWords?_eq_ok {words : List UInt64} {index : Nat} {t : Twister}
    (h : ofWords? words index = .ok t) :
    t.words = words ∧ t.index = index ∧ ¬ words.all (· = 0) = true := by
  unfold ofWords? at h
  split at h
  · split at h
    · split at h
      · cases h
      · rename_i hzero
        cases h
        exact ⟨rfl, rfl, hzero⟩
    · cases h
  · cases h

/-- A twister can be restored from words and an index exactly when the words are those of a block,
the index lies within it, and some word is not zero. -/
theorem exists_ofWords?_eq_ok_iff {words : List UInt64} {index : Nat} :
    (∃ t, ofWords? words index = .ok t) ↔
      words.length = blockSize ∧ index ≤ blockSize ∧ ∃ word ∈ words, word ≠ 0 := by
  have hzero : (¬ words.all (· = 0) = true) ↔ ∃ word ∈ words, word ≠ 0 := by simp
  rw [← hzero]
  constructor
  · rintro ⟨t, h⟩
    obtain ⟨hwords, hindex, hsome⟩ := ofWords?_eq_ok h
    exact ⟨hwords ▸ t.length_words, hindex ▸ t.index_le, hsome⟩
  · rintro ⟨hlength, hindex, hsome⟩
    exact ⟨⟨⟨words.toArray, hlength⟩, index, hindex⟩, by
      rw [ofWords?, dif_pos hlength, dif_pos hindex, if_neg hsome]⟩

/-- A twister with a word other than zero is left with zeros alone exactly when its block is idle
and the draws go beyond it. -/
theorem all_words_skip_eq_zero_iff {t : Twister} (h : ¬ t.words.all (· = 0) = true) (n : Nat) :
    (t.skip n).words.all (· = 0) = true ↔ t.block.Idle ∧ blockSize < t.index + n := by
  rw [all_words_eq_zero_iff]
  constructor
  · intro hzero
    refine ⟨(t.idle_skip_iff n).mp (Block.idle_of_eq_zero hzero), Nat.lt_of_not_le fun hle => h ?_⟩
    rwa [block_skip_of_le hle, ← all_words_eq_zero_iff] at hzero
  · rintro ⟨hidle, hlt⟩ i hi
    exact getElem_skip_of_idle hidle hlt hi

end Redraw.Twister
