import Redraw.Proofs.Twister.Recurrence

/-!
# Twisters refine the recurrence

The reference is the recurrence written out, with its masks, its coefficients and its distances, and
tempering written out with its shifts and its masks. It is compared with twisters twice: with the
draws of a twister, whose type keeps every position in its block, and with a run over a plain array,
in which each position is looked up and may turn out not to be there. Both give out the tempered
words of the recurrence, and no lookup fails.
-/

namespace Redraw

namespace Block

/-- Half of a word, with the coefficients added when the word is odd. -/
def halve (word : UInt64) : UInt64 :=
  (word >>> 1) ^^^ if word.toNat % 2 = 1 then 0xB5026F5AA96619E9 else 0

/-- Testing the lowest bit is testing for an odd word. -/
theorem shift_eq_halve (word : UInt64) : shift word = halve word := by
  have hbit : word &&& 1 = 0 ↔ word.toNat % 2 = 0 := by
    rw [← UInt64.toNat_inj]
    simp [Nat.and_one_is_mod]
  unfold shift halve
  by_cases h : word.toNat % 2 = 0
  · rw [if_pos (hbit.mpr h), if_neg (by omega), UInt64.xor_zero]
  · rw [if_neg (mt hbit.mp h), if_pos (by omega), coefficients]

/-- The sequence of a block satisfies the recurrence as it is published. -/
theorem sequence_add_blockSize (block : Block) (k : Nat) :
    block.sequence (k + 312) = block.sequence (k + 156) ^^^
      halve ((block.sequence k &&& 0xFFFFFFFF80000000) |||
        (block.sequence (k + 1) &&& 0x7FFFFFFF)) := by
  rw [← shift_eq_halve]
  exact recurrent_sequence block k

/-- Tempering as it is published: a word is combined with itself shifted to the right, twice to the
left and to the right again, and what is shifted is masked but for the last time. -/
theorem exists_temper_eq (word : UInt64) : ∃ first second third : UInt64,
    first = word ^^^ ((word >>> 29) &&& 0x5555555555555555) ∧
    second = first ^^^ ((first <<< 17) &&& 0x71D67FFFEDA60000) ∧
    third = second ^^^ ((second <<< 37) &&& 0xFFF7EEE000000000) ∧
    temper word = third ^^^ (third >>> 43) :=
  ⟨_, _, _, rfl, rfl, rfl, rfl⟩

end Block

/-- Words and an index that are not known to fit together. -/
structure Tape where
  /-- The state words. -/
  words : Array UInt64
  /-- The position of the next word to give out. -/
  index : Nat

namespace Tape

/-- The words and the index of a twister. -/
def ofTwister (t : Twister) : Tape :=
  ⟨t.block.toArray, t.index⟩

/-- Regenerates the word at a position. Every position that is read or written must be there. -/
def twistAt? (words : Array UInt64) (i : Nat) : Option (Array UInt64) := do
  let here ← words[i]?
  let next ← words[(i + 1) % 312]?
  let ahead ← words[(i + 156) % 312]?
  if h : i < words.size then some (words.set i (Block.successor here next ahead)) else none

/-- Regenerates the words in place, from the first to the last. -/
def twist? (words : Array UInt64) : Option (Array UInt64) :=
  (List.range 312).foldlM twistAt? words

/-- One raw draw; used-up words are regenerated first. -/
def next? (tape : Tape) : Option (UInt64 × Tape) := do
  let tape ← if tape.index < 312 then some tape else (twist? tape.words).map (⟨·, 0⟩)
  let word ← tape.words[tape.index]?
  return (Block.temper word, ⟨tape.words, tape.index + 1⟩)

/-- The next `n` draws, and the tape after them. -/
def draws? : Nat → Tape → Option (List UInt64 × Tape)
  | 0, tape => some ([], tape)
  | n + 1, tape => do
    let (word, tape) ← tape.next?
    let (words, tape) ← draws? n tape
    return (word :: words, tape)

private theorem getElem?_block (block : Block) {i : Nat} (hi : i < blockSize) :
    block.toArray[i]? = some block[i] := by
  rw [Array.getElem?_eq_getElem (by rwa [Vector.size_toArray])]
  rfl

/-- Regenerating a word of a block looks up positions of the block only. -/
theorem twistAt?_toArray (block : Block) {i : Nat} (hi : i < blockSize) :
    twistAt? block.toArray i = some (Block.twistAt i hi block).toArray := by
  have hread : ∀ j, j < blockSize → block.toArray[j]? = some (block.cyclic j) := by
    intro j hj
    rw [Block.cyclic_of_lt block hj, getElem?_block block hj]
  have hmod : ∀ j, block.cyclic (j % blockSize) = block.cyclic j :=
    fun j => block.cyclic_congr (Nat.mod_mod j blockSize)
  unfold twistAt?
  rw [hread i hi, hread _ (Nat.mod_lt (i + 1) (by decide)),
    hread _ (Nat.mod_lt (i + 156) (by decide)), hmod, hmod, Block.cyclic_of_lt block hi]
  simp only [Option.bind_eq_bind, Option.bind_some, Vector.size_toArray, hi, dite_true]
  rfl

theorem twist?_toArray (block : Block) : twist? block.toArray = some block.twist.toArray := by
  have hloop : ∀ n (hn : n ≤ blockSize), (List.range n).foldlM twistAt? block.toArray =
      some (n.fold (fun i hi => Block.twistAt i (Nat.lt_of_lt_of_le hi hn)) block).toArray := by
    intro n
    induction n with
    | zero => intro hn; rfl
    | succ n ih =>
      intro hn
      rw [List.range_succ, List.foldlM_append, ih (Nat.le_of_succ_le hn), Nat.fold_succ,
        Option.bind_eq_bind, Option.bind_some, List.foldlM_cons, twistAt?_toArray _ hn]
      rfl
  exact hloop blockSize (Nat.le_refl _)

/-- A draw with lookups succeeds, and is the twister's draw. -/
theorem next?_ofTwister (t : Twister) :
    (ofTwister t).next? = some (t.next.1, ofTwister t.next.2) := by
  by_cases hi : t.index < blockSize
  · simp only [next?, ofTwister, Twister.next, hi, ite_true, dite_true, Option.bind_eq_bind,
      Option.bind_some, getElem?_block t.block hi]
    rfl
  · simp only [next?, ofTwister, Twister.next, hi, ite_false, dite_false, Option.bind_eq_bind,
      twist?_toArray, Option.map_some, Option.bind_some,
      getElem?_block t.block.twist (Nat.zero_lt_succ _)]
    rfl

/-- Any number of draws with lookups succeed, and are the twister's draws. -/
theorem draws?_ofTwister (n : Nat) (t : Twister) :
    (ofTwister t).draws? n = some ((t.draws n).1, ofTwister (t.skip n)) := by
  induction n generalizing t with
  | zero => rfl
  | succ n ih =>
    simp only [draws?, next?_ofTwister, Option.bind_eq_bind, Option.bind_some, ih]
    rfl

end Tape

namespace Twister

/-- Draws are the tempered words of the recurrence that continues the block, from the index on and
through any number of blocks, where the recurrence and tempering are the published ones; and a run
that looks every position up finds all of them. -/
theorem next_skip_eq_temper_sequence (t : Twister) :
    (∀ k (h : k < blockSize), t.block.sequence k = t.block[k]) ∧
    (∀ k, t.block.sequence (k + 312) = t.block.sequence (k + 156) ^^^
      Block.halve ((t.block.sequence k &&& 0xFFFFFFFF80000000) |||
        (t.block.sequence (k + 1) &&& 0x7FFFFFFF))) ∧
    (∀ word : UInt64, ∃ first second third : UInt64,
      first = word ^^^ ((word >>> 29) &&& 0x5555555555555555) ∧
      second = first ^^^ ((first <<< 17) &&& 0x71D67FFFEDA60000) ∧
      third = second ^^^ ((second <<< 37) &&& 0xFFF7EEE000000000) ∧
      Block.temper word = third ^^^ (third >>> 43)) ∧
    ∀ n, (t.skip n).next.1 = Block.temper (t.block.sequence (t.index + n)) ∧
      (Tape.ofTwister t).draws? n =
        some ((List.range n).map fun j => Block.temper (t.block.sequence (t.index + j)),
          Tape.ofTwister (t.skip n)) := by
  have hx := t.block.recurrent_sequence
  have hfollows := t.follows_sequence
  refine ⟨fun k h => t.block.sequence_of_lt h, t.block.sequence_add_blockSize,
    Block.exists_temper_eq, fun n => ⟨?_, ?_⟩⟩
  · exact ((hfollows.skip hx n).next hx).1
  · rw [Tape.draws?_ofTwister, hfollows.draws hx]

end Twister

end Redraw
