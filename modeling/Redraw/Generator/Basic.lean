import Redraw.Bytes
import Redraw.Reduction
import Redraw.Twister.Basic

/-!
# Generators

A generator is a twister together with the seed it was made from. Every draw takes its value from
raw draws alone, so equal generators that are asked the same questions give the same answers.

A draw that can be refused keeps the generator in both cases: what was drawn before the refusal
stays drawn.
-/

namespace Redraw

/-- A seeded source of draws. -/
structure Generator where
  /-- The seed that the generator was made from. -/
  seed : UInt64
  /-- The source of its raw draws. -/
  twister : Twister
  deriving DecidableEq

/-- A draw that may be refused. The generator is kept in both cases. -/
abbrev Draw (α : Type) := ExceptT DrawFault (StateM Generator) α

namespace Generator

/-- The greatest bound of a 32-bit draw. -/
def widest : UInt32 := 0xFFFFFFFF

/-- A fresh generator. -/
def ofSeed (seed : UInt64) : Generator :=
  ⟨seed, Twister.ofSeed seed⟩

/-- One raw draw. -/
def raw : StateM Generator UInt64 := fun g =>
  let (word, twister) := g.twister.next
  (word, ⟨g.seed, twister⟩)

/-- The generator after `n` raw draws. -/
def skip (n : Nat) (g : Generator) : Generator :=
  ⟨g.seed, g.twister.skip n⟩

/-- An integer below a 32-bit bound. A zero bound is refused before anything is drawn. -/
def below (bound : UInt32) : Draw UInt32 := do
  if bound = 0 then throw .zeroBound
  let word ← raw
  return (← (Reduction.below word bound.toUInt64)).toUInt32

/-- An integer below a 64-bit bound. The raw draw comes first, so that it is spent on a zero bound
too. -/
def position (bound : UInt64) : Draw UInt64 := do
  let word ← raw
  Reduction.below word bound

/-- A generator as a function from bounds to integers below them. -/
def asBoundedFunction : UInt32 → Draw UInt32 :=
  below

/-- An integer below the greatest 32-bit bound; it is never refused. -/
def next32 : StateM Generator UInt32 :=
  return ((← raw) % widest.toUInt64).toUInt32

/-- The low half of a raw draw. -/
def lowHalf : StateM Generator UInt32 :=
  return (← raw).toUInt32

/-- A real in [0, 1). -/
def real : StateM Generator Float :=
  return Reduction.unit (← raw)

/-- Repeats a draw and collects its values. -/
def repeated {m : Type → Type} [Monad m] {α : Type} (draw : m α) : Nat → m (List α)
  | 0 => pure []
  | n + 1 => do
    let value ← draw
    let values ← repeated draw n
    return value :: values

/-- The bytes of `n` raw draws, each least significant byte first. -/
def wholeWords : Nat → StateM Generator Bytes
  | 0 => pure []
  | n + 1 => do
    let word ← raw
    let bytes ← wholeWords n
    return Bytes.littleEndian 8 word ++ bytes

/-- Fewer than eight bytes: more than four come from a raw draw, up to four from the low half of
one, none from nothing. -/
def lastBytes (n : Nat) : StateM Generator Bytes := do
  if n = 0 then return []
  else if n ≤ 4 then return (Bytes.littleEndian 4 (← lowHalf).toUInt64).take n
  else return (Bytes.littleEndian 8 (← raw)).take n

/-- The next `n` bytes: whole words while eight or more are wanted, then the rest. -/
def fill (n : Nat) : StateM Generator Bytes := do
  let bytes ← wholeWords (n / 8)
  return bytes ++ (← lastBytes (n % 8))

/-- The next `n` bytes as a draw that might be refused; it never is. -/
def tryFill {ε : Type} (n : Nat) : ExceptT ε (StateM Generator) Bytes :=
  ExceptT.lift (fill n)

end Generator

end Redraw
