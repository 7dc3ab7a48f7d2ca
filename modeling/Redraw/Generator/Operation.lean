import Redraw.Generator.Selection
import Redraw.Generator.Stream

/-!
# Operations on generators

What can be done with a generator, as data, so that one can speak of any sequence of operations.
Each operation has a cost in raw draws that is known beforehand: it hangs on bounds and lengths and
never on what is drawn.
-/

namespace Redraw

/-- One thing to do with a generator, with items of type `α`. -/
inductive Operation (α : Type) where
  /-- Draw an integer below a 32-bit bound. -/
  | below (bound : UInt32)
  /-- Draw an integer below a 32-bit bound by way of the generator as a function. -/
  | asFunction (bound : UInt32)
  /-- Draw an integer below a 64-bit bound. -/
  | position (bound : UInt64)
  /-- Draw an integer below the greatest 32-bit bound. -/
  | next32
  /-- Draw the low half of a word. -/
  | lowHalf
  /-- Draw a word. -/
  | raw
  /-- Draw a real. -/
  | real
  /-- Draw bytes. -/
  | fill (n : Nat)
  /-- Draw bytes by a draw that might be refused. -/
  | tryFill (n : Nat)
  /-- Shuffle items. -/
  | shuffle (items : List α)
  /-- Select items. -/
  | sample (population : List α) (n : Nat)
  /-- Overwrite choices by selected items. -/
  | sampleInto (population choices : List α)
  /-- Write the state as text. -/
  | save
  /-- Write the state as JSON. -/
  | toJson
  /-- Make a checkpoint. -/
  | checkpoint
  /-- Make a copy, and go on with the copy. -/
  | copy
  /-- Compare with a generator. -/
  | compare (other : Generator)
  /-- Write the state as text and load it again. -/
  | reload

namespace Operation

variable {α : Type}

/-- The generator after an operation, whether the operation is refused or not. -/
def apply (g : Generator) : Operation α → Generator
  | below bound => ((Generator.below bound).run.run g).2
  | asFunction bound => ((Generator.asBoundedFunction bound).run.run g).2
  | position bound => ((Generator.position bound).run.run g).2
  | next32 => (Generator.next32.run g).2
  | lowHalf => (Generator.lowHalf.run g).2
  | raw => (Generator.raw.run g).2
  | real => (Generator.real.run g).2
  | fill n => ((Generator.fill n).run g).2
  | tryFill n => ((Generator.tryFill n : Draw Bytes).run.run g).2
  | shuffle items => (g.shuffle items).2
  | sample population n => (g.sample population n).2
  | sampleInto population choices => (g.sampleInto population choices).2
  | save => g
  | toJson => g
  | checkpoint => g
  | copy => g
  | compare _ => g
  | reload => ((((Generator.load.run.run g).run (.ofBytes (Snapshot.ofGenerator g).encode)).run
      []).1).1.2

/-- The generator after a sequence of operations. -/
def applyAll (operations : List (Operation α)) (g : Generator) : Generator :=
  operations.foldl apply g

/-- The number of raw draws that a selection of `n` from `length` items costs. -/
def sampleCost (length n : Nat) : Nat :=
  if n = 0 ∨ length < n then 0 else length - 1

/-- The number of raw draws that an operation costs. -/
def cost : Operation α → Nat
  | below bound => if bound = 0 then 0 else 1
  | asFunction bound => if bound = 0 then 0 else 1
  | position _ => 1
  | next32 => 1
  | lowHalf => 1
  | raw => 1
  | real => 1
  | fill n => (n + 7) / 8
  | tryFill n => (n + 7) / 8
  | shuffle items => items.length - 1
  | sample population n => sampleCost population.length n
  | sampleInto population choices => sampleCost population.length choices.length
  | save => 0
  | toJson => 0
  | checkpoint => 0
  | copy => 0
  | compare _ => 0
  | reload => 0

/-- The number of raw draws that a sequence of operations costs. -/
def costAll : List (Operation α) → Nat
  | [] => 0
  | operation :: operations => operation.cost + costAll operations

end Operation

end Redraw
