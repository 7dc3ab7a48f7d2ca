import Redraw.Twister.Basic

/-!
# Restoring a twister from its words

A list of words and an index make a twister when there are exactly as many words as a block holds,
the index lies within the block, and some word is not zero: a block of zeros regenerates itself and
gives out nothing but zeros. The three conditions are checked in this order.
-/

namespace Redraw

/-- Why words and an index are no twister. -/
inductive BlockFault where
  /-- The number of words is not the size of a block. -/
  | wrongLength (found : Nat)
  /-- The index lies beyond the end of the block. -/
  | indexOutOfRange (index : Nat)
  /-- All words are zero. -/
  | allZero
  deriving DecidableEq, Repr

namespace BlockFault

/-- The wording of a fault. -/
def message : BlockFault → String
  | wrongLength found => s!"expected {blockSize} state words, found {found}"
  | indexOutOfRange index => s!"state index {index} exceeds {blockSize}"
  | allZero => "state words are all zero"

end BlockFault

namespace Twister

/-- The twister with the given words and index, or the first condition that they fail. -/
def ofWords? (words : List UInt64) (index : Nat) : Except BlockFault Twister :=
  if size_eq : words.length = blockSize then
    if index_le : index ≤ blockSize then
      if words.all (· = 0) then .error .allZero
      else .ok ⟨⟨words.toArray, size_eq⟩, index, index_le⟩
    else .error (.indexOutOfRange index)
  else .error (.wrongLength words.length)

/-- The state words of a twister, first to last. -/
def words (t : Twister) : List UInt64 :=
  t.block.toList

end Twister

end Redraw
