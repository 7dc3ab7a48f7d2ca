import Redraw.Proofs.Twister.Word

/-!
# The recurrence behind blocks

The words of a block continue to an endless sequence, in which each word is the successor of words
that lie a block, a block less one, and half a block before it. A block that is regenerated in place
is a window of this sequence at every step: its positions, taken cyclically, hold as many
consecutive words as the block is long, and each step moves the window on by one word. So a twister
follows the sequence through any number of blocks, and its draws are the words of the sequence,
tempered.
-/

namespace Redraw

/-- Every word is the successor of the words before it. -/
def Recurrent (x : Nat → UInt64) : Prop :=
  ∀ k, x (k + blockSize) = Block.successor (x k) (x (k + 1)) (x (k + Block.middle))

namespace Block

/-- The sequence that continues the words of a block. -/
def sequence (block : Block) (k : Nat) : UInt64 :=
  if h : k < blockSize then block[k]
  else successor (sequence block (k - blockSize)) (sequence block (k - blockSize + 1))
    (sequence block (k - blockSize + middle))
termination_by k
decreasing_by all_goals simp only [blockSize, middle] at *; omega

theorem sequence_of_lt (block : Block) {k : Nat} (h : k < blockSize) :
    block.sequence k = block[k] := by
  rw [sequence, dif_pos h]

theorem recurrent_sequence (block : Block) : Recurrent block.sequence := by
  intro k
  rw [sequence, dif_neg (Nat.not_lt.mpr (Nat.le_add_left _ _)), Nat.add_sub_cancel]

/-- A cyclic position within the block is that position. -/
theorem cyclic_of_lt (block : Block) {i : Nat} (h : i < blockSize) : block.cyclic i = block[i] := by
  simp only [cyclic, Nat.mod_eq_of_lt h]
  rfl

/-- Only the remainder of a cyclic position counts. -/
theorem cyclic_congr (block : Block) {i j : Nat} (h : i % blockSize = j % blockSize) :
    block.cyclic i = block.cyclic j := by
  simp only [cyclic, h]

/-- Regenerating one word changes its cyclic position only. -/
theorem cyclic_twistAt (block : Block) {i : Nat} (hi : i < blockSize) (k : Nat) :
    (twistAt i hi block).cyclic k = if k % blockSize = i then
      successor (block.cyclic i) (block.cyclic (i + 1)) (block.cyclic (i + middle))
    else block.cyclic k := by
  rw [← cyclic_congr _ (Nat.mod_mod k blockSize),
    cyclic_of_lt _ (Nat.mod_lt k (by decide)), twistAt, Vector.getElem_set,
    cyclic_of_lt block hi, ← cyclic_of_lt block (Nat.mod_lt k (by decide)),
    cyclic_congr block (Nat.mod_mod k blockSize)]
  simp only [eq_comm]

/-- The block holds consecutive words of a sequence, each at its cyclic position. -/
def Holds (block : Block) (x : Nat → UInt64) (start : Nat) : Prop :=
  ∀ k, start ≤ k → k < start + blockSize → block.cyclic k = x k

/-- A block holds the beginning of its own sequence. -/
theorem holds_sequence (block : Block) : block.Holds block.sequence 0 := by
  intro k _ hk
  rw [Nat.zero_add] at hk
  rw [cyclic_of_lt block hk, sequence_of_lt block hk]

/-- A block that starts on a multiple of its size holds the words in their order. -/
theorem Holds.getElem {block : Block} {x : Nat → UInt64} {turns : Nat}
    (h : block.Holds x (turns * blockSize)) {i : Nat} (hi : i < blockSize) :
    block[i] = x (turns * blockSize + i) := by
  rw [← h _ (Nat.le_add_right _ _) (Nat.add_lt_add_left hi _), ← cyclic_of_lt block hi]
  exact cyclic_congr block (by rw [Nat.mul_add_mod'])

theorem Holds.getElem_zero {block : Block} {x : Nat → UInt64} {turns : Nat}
    (h : block.Holds x (turns * blockSize)) : block[0] = x (turns * blockSize) := by
  have hword := h.getElem (i := 0) (by decide)
  rwa [Nat.add_zero] at hword

/-- Regenerating the first word of the window moves the window on by one word. -/
theorem Holds.twistAt {block : Block} {x : Nat → UInt64} (hx : Recurrent x) {start i : Nat}
    (h : block.Holds x start) (hi : i < blockSize) (hs : start % blockSize = i) :
    (twistAt i hi block).Holds x (start + 1) := by
  have hread : ∀ j, j < blockSize → block.cyclic (i + j) = x (start + j) := by
    intro j hj
    rw [← h (start + j) (Nat.le_add_right _ _) (Nat.add_lt_add_left hj _)]
    exact cyclic_congr block (by rw [← hs, Nat.mod_add_mod])
  intro k hlow hhigh
  rw [cyclic_twistAt]
  -- The regenerated position held the word that leaves the window. Now it holds the one
  -- that enters.
  by_cases hk : k % blockSize = i
  · have he : k = start + blockSize := by
      simp only [blockSize] at *
      omega
    rw [if_pos hk, he, hx start, hread 1 (by decide), hread middle (by decide)]
    exact congrArg (successor · _ _) (hread 0 (by decide))
  · have hne : k ≠ start + blockSize := by
      rintro rfl
      exact hk (by rw [Nat.add_mod_right, hs])
    rw [if_neg hk]
    exact h k (Nat.le_of_succ_le hlow) (by omega)

private theorem Holds.fold_twistAt {block : Block} {x : Nat → UInt64} (hx : Recurrent x)
    {start : Nat} (h : block.Holds x start) (hs : start % blockSize = 0) (n : Nat)
    (hn : n ≤ blockSize) :
    (n.fold (fun i hi => Block.twistAt i (Nat.lt_of_lt_of_le hi hn)) block).Holds x
      (start + n) := by
  induction n with
  | zero => exact h
  | succ n ih =>
    rw [Nat.fold_succ]
    refine (ih (Nat.le_of_succ_le hn)).twistAt hx _ ?_
    rw [← Nat.mod_add_mod, hs, Nat.zero_add, Nat.mod_eq_of_lt hn]

/-- Regenerating a block moves its window on by the whole block. -/
theorem Holds.twist {block : Block} {x : Nat → UInt64} (hx : Recurrent x) {turns : Nat}
    (h : block.Holds x (turns * blockSize)) : block.twist.Holds x ((turns + 1) * blockSize) := by
  rw [Nat.succ_mul]
  exact h.fold_twistAt hx (Nat.mul_mod_left _ _) blockSize (Nat.le_refl _)

end Block

namespace Twister

/-- The next word that a twister gives out stands at the given position of a sequence, and its block
is the window of the sequence in which that position lies. -/
def Follows (t : Twister) (x : Nat → UInt64) (position : Nat) : Prop :=
  ∃ turns, t.block.Holds x (turns * blockSize) ∧ position = turns * blockSize + t.index

/-- A draw out of a block that is not used up moves the index on. -/
theorem snd_next_of_lt {t : Twister} (h : t.index < blockSize) :
    t.next.2 = ⟨t.block, t.index + 1, h⟩ := by
  rw [next, dif_pos h]

/-- A draw out of a used-up block regenerates it and takes the first word. -/
theorem snd_next_of_eq {t : Twister} (h : t.index = blockSize) :
    t.next.2 = ⟨t.block.twist, 1, by decide⟩ := by
  rw [next, dif_neg (Nat.not_lt.mpr (Nat.le_of_eq h.symm))]

/-- A block of which no word is left is used up. -/
theorem index_eq_of_not_lt {t : Twister} (h : ¬ t.index < blockSize) : t.index = blockSize :=
  Nat.le_antisymm t.index_le (Nat.not_lt.mp h)

/-- A twister follows the sequence of its block from its index on. -/
theorem follows_sequence (t : Twister) : t.Follows t.block.sequence t.index :=
  ⟨0, by simpa using t.block.holds_sequence, by simp⟩

/-- A draw gives out the word at the position, tempered, and moves on by one word. -/
theorem Follows.next {t : Twister} {x : Nat → UInt64} (hx : Recurrent x) {position : Nat}
    (h : t.Follows x position) :
    t.next.1 = Block.temper (x position) ∧ t.next.2.Follows x (position + 1) := by
  obtain ⟨turns, hblock, rfl⟩ := h
  by_cases hi : t.index < blockSize
  · rw [Twister.next, dif_pos hi, hblock.getElem hi]
    exact ⟨rfl, turns, hblock, by rw [Nat.add_assoc]⟩
  · have hnext := hblock.twist hx
    rw [Twister.next, dif_neg hi, index_eq_of_not_lt hi, ← Nat.succ_mul, ← hnext.getElem_zero]
    exact ⟨rfl, turns + 1, hnext, rfl⟩

/-- Any number of draws moves on by as many words. -/
theorem Follows.skip {t : Twister} {x : Nat → UInt64} (hx : Recurrent x) {position : Nat}
    (h : t.Follows x position) (n : Nat) : (t.skip n).Follows x (position + n) := by
  induction n generalizing t position with
  | zero => exact h
  | succ n ih =>
    rw [Nat.add_comm n 1, ← Nat.add_assoc, Nat.add_comm 1 n]
    exact ih (h.next hx).2

/-- The next draws are the words of the sequence from the position on, tempered. -/
theorem Follows.draws {t : Twister} {x : Nat → UInt64} (hx : Recurrent x) {position : Nat}
    (h : t.Follows x position) (n : Nat) :
    (t.draws n).1 = (List.range n).map fun j => Block.temper (x (position + j)) := by
  induction n generalizing t position with
  | zero => rfl
  | succ n ih =>
    rw [Twister.draws, List.range_succ_eq_map, List.map_cons, List.map_map]
    simp only [ih (h.next hx).2, (h.next hx).1, Nat.add_zero, Function.comp_def,
      Nat.add_right_comm position 1, Nat.add_assoc position]

/-- The draw after so many others is the word of a block's own sequence at its place, tempered. -/
theorem fst_next_skip (t : Twister) (n : Nat) :
    (t.skip n).next.1 = Block.temper (t.block.sequence (t.index + n)) := by
  have hx := t.block.recurrent_sequence
  exact ((t.follows_sequence.skip hx n).next hx).1

end Twister

end Redraw
