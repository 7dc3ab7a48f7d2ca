import Redraw.Generator.Basic
import Redraw.Twister.Restore

/-!
# Snapshots

A snapshot is a generator written down: its seed, its index and its state words. Not every snapshot
is one of a generator, since what is read back may hold any number of words and any index.
-/

namespace Redraw

/-- A seed, an index and any number of words. -/
structure Snapshot where
  /-- The seed. -/
  seed : UInt64
  /-- The position of the next word to give out. -/
  index : UInt64
  /-- The state words. -/
  words : List UInt64
  deriving DecidableEq, Repr

namespace Snapshot

/-- The snapshot of a generator. -/
def ofGenerator (g : Generator) : Snapshot where
  seed := g.seed
  index := g.twister.index.toUInt64
  words := g.twister.words

/-- The generator that a snapshot is of, or why there is none. -/
def toGenerator? (s : Snapshot) : Except BlockFault Generator :=
  (Twister.ofWords? s.words s.index.toNat).map (⟨s.seed, ·⟩)

end Snapshot

end Redraw
