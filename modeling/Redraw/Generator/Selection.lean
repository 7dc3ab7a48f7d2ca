import Redraw.Generator.Basic
import Redraw.Sampling

/-!
# Generators as sources of positions

A generator answers a question for a position by the remainder of one raw draw. Shuffles and
samples drawn from a generator are those of this source.
-/

namespace Redraw.Generator

/-- The source whose answers are remainders of raw draws. -/
def positions : IndexSource Generator where
  draw n g :=
    let (word, g) := raw g
    (IndexSource.reduce n word.toNat, g)

/-- A random order of the items. -/
def shuffle {α : Type u} (items : List α) (g : Generator) : List α × Generator :=
  positions.shuffle items g

/-- A random selection of `n` items in random order. -/
def sample {α : Type u} (population : List α) (n : Nat) (g : Generator) :
    Except Shortage (List α) × Generator :=
  positions.sample population n g

/-- Overwrites all choices by a random selection of as many items. -/
def sampleInto {α : Type u} (population choices : List α) (g : Generator) :
    (Except Shortage Unit × List α) × Generator :=
  positions.sampleInto population choices g

end Redraw.Generator
