/-!
# The 64-bit twister

A block of 312 words is seeded from one word, and regenerated in place once all of its words have
been given out. Each draw gives out one tempered word. The index says how many words of the block
are used up; it never exceeds the block's size, and the type keeps that.
-/

namespace Redraw

/-- The number of words in a block. -/
abbrev blockSize : Nat := 312

/-- The state words of a twister. -/
abbrev Block := Vector UInt64 blockSize

namespace Block

/-- How far ahead the word lies that is combined into a regenerated word. -/
abbrev middle : Nat := 156

/-- The 33 bits that a regenerated word takes from its own position. -/
def upperMask : UInt64 := 0xFFFFFFFF80000000

/-- The 31 bits that a regenerated word takes from the position after it. -/
def lowerMask : UInt64 := 0x7FFFFFFF

/-- The coefficients of the linear step, added when the shifted-out bit is one. -/
def coefficients : UInt64 := 0xB5026F5AA96619E9

/-- One linear step: shift right, and add the coefficients if a one was shifted out. -/
def shift (x : UInt64) : UInt64 :=
  if x &&& 1 = 0 then x >>> 1 else (x >>> 1) ^^^ coefficients

/-- The word one block after `here`, from it, the word after it and the word half a block ahead. -/
def successor (here next ahead : UInt64) : UInt64 :=
  ahead ^^^ shift ((here &&& upperMask) ||| (next &&& lowerMask))

/-- The word at a position, where positions count cyclically. -/
def cyclic (block : Block) (i : Nat) : UInt64 :=
  block.get ⟨i % blockSize, Nat.mod_lt _ (by decide)⟩

/-- Regenerates the word at position `i`. -/
def twistAt (i : Nat) (h : i < blockSize) (block : Block) : Block :=
  block.set i (successor block[i] (block.cyclic (i + 1)) (block.cyclic (i + middle)))

/-- Regenerates the words in place, from the first to the last. -/
def twist (block : Block) : Block :=
  blockSize.fold twistAt block

/-- The multiplier of seeding. -/
def seedMultiplier : UInt64 := 6364136223846793005

/-- The word at position `i` of a fresh block, from the word before it. -/
def seedStep (previous : UInt64) (i : Nat) : UInt64 :=
  seedMultiplier * (previous ^^^ (previous >>> 62)) + i.toUInt64

/-- A fresh block: the seed is its first word, and each word determines the next. -/
def ofSeed (seed : UInt64) : Block :=
  (blockSize - 1).fold (fun i h block => block.set (i + 1) (seedStep block[i] (i + 1)))
    (Vector.replicate blockSize seed)

/-- Spreads the bits of a state word over the value that is given out. -/
def temper (word : UInt64) : UInt64 :=
  let y := word ^^^ ((word >>> 29) &&& 0x5555555555555555)
  let y := y ^^^ ((y <<< 17) &&& 0x71D67FFFEDA60000)
  let y := y ^^^ ((y <<< 37) &&& 0xFFF7EEE000000000)
  y ^^^ (y >>> 43)

end Block

/-- A source of raw draws: a block and the number of its words that are used up. -/
structure Twister where
  /-- The state words. -/
  block : Block
  /-- The position of the next word to give out; the block's size when none is left. -/
  index : Nat
  /-- No more words are used up than there are. -/
  index_le : index ≤ blockSize
  deriving DecidableEq

namespace Twister

/-- The least value a draw can give. -/
def least : UInt64 := 0

/-- The greatest value a draw can give. -/
def greatest : UInt64 := 0xFFFFFFFFFFFFFFFF

/-- A fresh twister: its first draw regenerates the seeded block. -/
def ofSeed (seed : UInt64) : Twister where
  block := Block.ofSeed seed
  index := blockSize
  index_le := Nat.le_refl _

/-- One raw draw: the next word, tempered. A used-up block is regenerated first. -/
def next (t : Twister) : UInt64 × Twister :=
  if h : t.index < blockSize then
    (Block.temper t.block[t.index], ⟨t.block, t.index + 1, h⟩)
  else
    let block := Block.twist t.block
    (Block.temper block[0], ⟨block, 1, by decide⟩)

/-- The twister after `n` draws. -/
def skip : Nat → Twister → Twister
  | 0, t => t
  | n + 1, t => skip n t.next.2

/-- The next `n` draws, and the twister after them. -/
def draws : Nat → Twister → List UInt64 × Twister
  | 0, t => ([], t)
  | n + 1, t =>
    let (x, t) := t.next
    let (xs, t) := draws n t
    (x :: xs, t)

end Twister

end Redraw
