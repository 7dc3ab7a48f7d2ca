import Redraw.Dynamic.Value
import Redraw.Generator.Selection
import Redraw.Generator.Stream
import Redraw.SeedProvider.Basic

/-!
# Generators for callers without types

The operations of generators, taking arguments of any type. Items are never looked at: a list is
shuffled or sampled by its positions, so that it may hold anything, and anything twice.
-/

namespace Redraw.Dynamic

/-- A call on a generator, which is kept where a refusal left it. -/
abbrev Call (α : Type) := ExceptT Refusal (StateT Generator Logged) α

/-- Fails as a result does. -/
def orRefuse {α : Type} : Except Refusal α → Call α
  | .ok a => return a
  | .error refusal => throw refusal

/-- A generator from a seed, or, if none is passed, from the next seed of a provider. -/
def make (arguments : List Value) :
    ExceptT Refusal (StateT SeedProvider Logged) Generator :=
  match onlyArgument arguments with
  | .error refusal => throw refusal
  | .ok none | .ok (some .null) => ExceptT.lift Generator.ofProvider
  | .ok (some value) =>
    match value.below UInt64.size with
    | .ok seed => return .ofSeed (.ofNat seed)
    | .error refusal => throw refusal

/-- The bound that is passed, or the greatest if none is. -/
def bound (arguments : List Value) : Except Refusal UInt32 := do
  match ← onlyArgument arguments with
  | none => return Generator.widest
  | some value => return .ofNat (← value.below UInt32.size)

/-- An integer below a bound. A zero bound is refused before anything is drawn. -/
def integerBelow (arguments : List Value) : Call UInt32 := do
  let bound ← orRefuse (bound arguments)
  if bound = 0 then throw .zeroBound
  match ← modifyGetThe Generator (Generator.below bound).run with
  | .ok value => return value
  | .error fault => throw (.aborted fault)

/-- A real in [0, 1). -/
def real : Call Float :=
  modifyGetThe Generator Generator.real

/-- The seed that a generator was made from. -/
def seed : Call UInt64 :=
  return (← getThe Generator).seed

/-- The positions of `n` items in random order. -/
def shuffledPositions (n : Nat) (g : Generator) : Vector (Fin n) n × Generator :=
  Generator.positions.shuffleVector (.ofFn id) g

/-- Overwrites the items one after the other, each by the one that was at the drawn position. -/
def rearrange {α : Type} {n : Nat} (items : Vector α n) (order : Vector (Fin n) n) : Vector α n :=
  n.fold (fun i h written => written.set i (items.get order[i])) items

/-- Puts the items of a list in random order. -/
def shuffle {α : Type} (items : Items α) : Call (List α) := do
  let items := (← orRefuse items.toList).toArray.toVector
  let order ← modifyGetThe Generator (shuffledPositions _)
  return (rearrange items order).toList

/-- A random selection of items in random order. -/
def sample {α : Type} (population : Items α) (choices : Value) : Call (List α) := do
  let population := (← orRefuse population.toList).toArray.toVector
  let n ← orRefuse (choices.below UInt64.size)
  match ← modifyGetThe Generator fun g => g.sample (List.finRange _) n with
  | .ok picked => return picked.map population.get
  | .error shortage => throw (.refused (.shortage shortage))

/-- The state of a generator in its text form. -/
def save : Call String := do
  let g ← getThe Generator
  let (result, sink) ← (g.save.run.run {} : Logged _)
  match result with
  | .ok () =>
    match Bytes.text? sink.written with
    | some text => return text
    | none => throw (.refused (.io .invalidData))
  | .error fault => throw (.refused fault)

/-- Replaces a generator by the one whose text form is passed. -/
def load (text : String) : Call Unit := do
  let ((result, g), _) ←
    (((Generator.load.run (← getThe Generator)).run (.ofBytes (Bytes.ofText text))) : Logged _)
  set g
  match result with
  | .ok () => return ()
  | .error fault => throw (.refused fault)

/-- The state of a generator as JSON text. -/
def toJson : Call String :=
  return (← getThe Generator).toJson

/-- The generator whose JSON text is passed. -/
def ofJson (text : String) : Except Refusal Generator :=
  (Generator.ofJson? text).mapError (.refused ∘ .malformed)

/-- What a generator shows of itself. -/
def description (g : Generator) : String :=
  s!"Random(seed={g.seed})"

end Redraw.Dynamic
