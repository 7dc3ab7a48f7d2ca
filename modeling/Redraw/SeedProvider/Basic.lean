import Redraw.Fault
import Redraw.Generator.Basic
import Redraw.Journal

/-!
# Seed providers

A provider issues seeds. A seed function may be bound to it once, and then every seed is from that
function. Until then seeds are draws of a default generator, which is made from a word of entropy
when the first such seed is asked for.

Issuing a seed and binding a function are made of the steps that callers who share a provider take
one at a time; each of these steps is a function of its own.
-/

namespace Redraw

/-- A seed function: the seeds that it answers its calls with. -/
structure Seeder where
  /-- The answer to the call after `n` others. -/
  answer : (n : Nat) → UInt32

/-- A source of seeds. -/
structure SeedProvider where
  /-- The bound seed function. -/
  seeder : Option Seeder := none
  /-- The number of calls that the bound function has answered. -/
  calls : Nat := 0
  /-- The default generator, once it is made. -/
  fallback : Option Generator := none
  /-- What the default generator is made from. -/
  entropy : UInt64

namespace SeedProvider

/-- A provider without a seed function. -/
def unbound (entropy : UInt64) : SeedProvider where
  entropy := entropy

/-- A provider that a seed function is bound to from the start. -/
def withSeeder (seeder : Seeder) (entropy : UInt64) : SeedProvider where
  seeder := some seeder
  entropy := entropy

/-- Whether a seed function is bound. -/
def isBound (p : SeedProvider) : Bool :=
  p.seeder.isSome

/-- Binds a seed function if none is bound, and says whether it did. -/
def install (seeder : Seeder) (p : SeedProvider) : Bool × SeedProvider :=
  match p.seeder with
  | none => (true, { p with seeder := some seeder })
  | some _ => (false, p)

/-- Calls a seed function that is bound. -/
def call (seeder : Seeder) (p : SeedProvider) : UInt32 × SeedProvider :=
  (seeder.answer p.calls, { p with calls := p.calls + 1 })

/-- The default generator, or the one that will be made. -/
def fallbackGenerator (p : SeedProvider) : Generator :=
  p.fallback.getD (.ofSeed p.entropy)

/-- Makes the default generator unless it is there. -/
def prepare (p : SeedProvider) : SeedProvider :=
  { p with fallback := some p.fallbackGenerator }

/-- Draws a seed from the default generator. -/
def drawFallback (p : SeedProvider) : UInt32 × SeedProvider :=
  let (seed, g) := p.fallbackGenerator.next32
  (seed, { p with fallback := some g })

/-- Issues a seed. -/
def next : StateT SeedProvider Logged UInt32 := do
  match (← get).seeder with
  | some seeder =>
    let seed ← modifyGet (call seeder)
    report (.seedIssued seed .bound)
    return seed
  | none =>
    modify prepare
    let seed ← modifyGet drawFallback
    report (.seedIssued seed .fallback)
    return seed

/-- Binds a seed function. A function that is bound already stays, and the new one is refused. -/
def bind (seeder : Seeder) : ExceptT Fault (StateT SeedProvider Logged) Unit := do
  if ← modifyGet (install seeder) then report .seederBound
  else throw .alreadyBound

/-- What a provider shows of itself. -/
def description (p : SeedProvider) : String :=
  s!"SeedProvider \x7b bound: {p.isBound}, default_rng_initialized: {p.fallback.isSome} \x7d"

end SeedProvider

namespace Generator

/-- A generator from the next seed of a provider. -/
def ofProvider : StateT SeedProvider Logged Generator :=
  return ofSeed (← SeedProvider.next).toUInt64

end Generator

end Redraw
