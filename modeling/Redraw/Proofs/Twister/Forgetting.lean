import Redraw.Proofs.Twister.Agreement

/-!
# What a draw forgets

A draw out of a block that is not used up moves the index on and forgets nothing. A used-up block is
regenerated, and then the lower bits of its first word are gone: those 31 bits are all that
regenerating does not read, and everything else can be told from the words that it puts there. So
two twisters with the same index become the same by a draw only if they differ in those bits alone.
-/

namespace Redraw

theorem blockSize_pos : 0 < blockSize := by
  decide

namespace Block

/-- The upper bits of a word are those that are left when the lower 31 are shifted out. -/
theorem and_upperMask_inj {a b : UInt64} :
    a &&& upperMask = b &&& upperMask ↔ a >>> 31 = b >>> 31 := by
  have hkeep : ∀ word : UInt64, (word &&& upperMask) >>> 31 = word >>> 31 := by
    intro word
    rw [UInt64.shiftRight_and, show upperMask >>> 31 = (-1 : UInt64) >>> 31 by decide,
      ← UInt64.shiftRight_and, UInt64.and_neg_one]
  have hclear : ∀ word : UInt64, (word >>> 31) <<< 31 = word &&& upperMask := by
    intro word
    have hmask : upperMask.toBitVec = BitVec.allOnes 64 <<< 31 := by decide
    apply UInt64.toBitVec_inj.mp
    rw [UInt64.toBitVec_and, hmask]
    exact BitVec.shiftLeft_ushiftRight
  constructor
  · intro h
    rw [← hkeep a, ← hkeep b, h]
  · intro h
    rw [← hclear a, ← hclear b, h]

/-- Regenerating two blocks puts the same words in them exactly when they agree on what it reads. -/
theorem twist_eq_iff (a b : Block) : a.twist = b.twist ↔ Agree a.sequence b.sequence 0 := by
  have hx := a.recurrent_sequence
  have hy := b.recurrent_sequence
  have hwords : ∀ block : Block, block.twist.Holds block.sequence (1 * blockSize) := by
    intro block
    have hstart : block.Holds block.sequence (0 * blockSize) := block.holds_sequence
    exact hstart.twist block.recurrent_sequence
  constructor
  · intro h
    rw [← agree_iff_agree_zero hx hy (1 * blockSize)]
    refine agree_of_eq fun k hk hkb => ?_
    rw [← hwords a k hk hkb, ← hwords b k hk hkb, h]
  · intro h
    refine Vector.ext fun i hi => ?_
    rw [(hwords a).getElem hi, (hwords b).getElem hi]
    exact h.eq_of_lt hx hy (by simp only [blockSize]; omega)

/-- The first window of a block's own sequence is the block. -/
theorem agree_sequence_zero_iff (a b : Block) : Agree a.sequence b.sequence 0 ↔
    a[0] >>> 31 = b[0] >>> 31 ∧ ∀ i (h : i < blockSize), 0 < i → a[i] = b[i] := by
  unfold Agree
  rw [and_upperMask_inj, sequence_of_lt a blockSize_pos, sequence_of_lt b blockSize_pos,
    Nat.zero_add]
  refine and_congr_right fun _ => ⟨fun h i hi hpos => ?_, fun h k hpos hk => ?_⟩
  · rw [← sequence_of_lt a hi, ← sequence_of_lt b hi]
    exact h i hpos hi
  · rw [sequence_of_lt a hk, sequence_of_lt b hk]
    exact h k hk hpos

end Block

namespace Twister

/-- Two twisters with the same index are the same exactly when their blocks are. -/
theorem eq_iff_block_eq {t u : Twister} (h : t.index = u.index) : t = u ↔ t.block = u.block := by
  obtain ⟨a, i, _⟩ := t
  obtain ⟨b, j, _⟩ := u
  obtain rfl : i = j := h
  rw [mk.injEq, and_iff_left rfl]

/-- Two twisters with the same index are the same after a draw exactly when they were the same
before, or they are used up and differ in the lower 31 bits of the first word alone. -/
theorem snd_next_eq_iff {t u : Twister} (h : t.index = u.index) :
    t.next.2 = u.next.2 ↔ t = u ∨ (t.index = 312 ∧ t.block[0] >>> 31 = u.block[0] >>> 31 ∧
      ∀ i (hi : i < 312), 0 < i → t.block[i] = u.block[i]) := by
  rw [eq_iff_block_eq h]
  by_cases hi : t.index < blockSize
  · have hu : u.index < blockSize := h ▸ hi
    rw [snd_next_of_lt hi, snd_next_of_lt hu, mk.injEq, h, and_iff_left rfl]
    exact (or_iff_left fun hfull => Nat.ne_of_lt hu hfull.1).symm
  · have hfull := index_eq_of_not_lt hi
    rw [snd_next_of_eq hfull, snd_next_of_eq (h ▸ hfull), mk.injEq, and_iff_left rfl,
      Block.twist_eq_iff, Block.agree_sequence_zero_iff]
    refine ⟨fun hagree => Or.inr ⟨hfull, hagree⟩, ?_⟩
    rintro (hsame | ⟨_, hagree⟩)
    · rw [hsame]
      exact ⟨rfl, fun _ _ _ => rfl⟩
    · exact hagree

/-- A used-up twister with the given first word, whose other words are zero. -/
def lone (word : UInt64) : Twister :=
  ⟨(Vector.replicate blockSize 0).set 0 word blockSize_pos, blockSize, Nat.le_refl _⟩

theorem getElem_zero_lone (word : UInt64) : (lone word).block[0] = word :=
  Vector.getElem_set_self blockSize_pos

theorem getElem_lone_of_pos (word : UInt64) {i : Nat} (hi : i < blockSize) (hpos : 0 < i) :
    (lone word).block[i] = 0 := by
  rw [lone, Vector.getElem_set_ne _ _ (Nat.ne_of_lt hpos), Vector.getElem_replicate]

theorem lone_ne {a b : UInt64} (h : a ≠ b) : lone a ≠ lone b := by
  intro he
  rw [← getElem_zero_lone a, ← getElem_zero_lone b, he] at h
  exact h rfl

/-- A draw forgets whether the first word was one or two, but not whether its lowest upper bit was
set. -/
theorem snd_next_lone :
    (lone 1).index = (lone 2).index ∧ (lone 1).index = (lone 0x80000000).index ∧
      lone 1 ≠ lone 2 ∧ (lone 1).next.2 = (lone 2).next.2 ∧
      (lone 1).next.2 ≠ (lone 0x80000000).next.2 := by
  have hindex : ∀ a b, (lone a).index = (lone b).index := fun _ _ => rfl
  refine ⟨hindex 1 2, hindex 1 0x80000000, lone_ne (by decide),
    (snd_next_eq_iff (hindex 1 2)).mpr (Or.inr ⟨rfl, ?_, ?_⟩), ?_⟩
  · rw [getElem_zero_lone, getElem_zero_lone]
    decide
  · intro i hi hpos
    rw [getElem_lone_of_pos 1 hi hpos, getElem_lone_of_pos 2 hi hpos]
  · rw [ne_eq, snd_next_eq_iff (hindex 1 0x80000000), getElem_zero_lone, getElem_zero_lone]
    rintro (hsame | ⟨_, hupper, _⟩)
    · exact lone_ne (by decide) hsame
    · exact absurd hupper (by decide)

end Twister

end Redraw
