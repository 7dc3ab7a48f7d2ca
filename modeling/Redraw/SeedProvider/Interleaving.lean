import Redraw.SeedProvider.Basic

/-!
# Sharing a provider

Callers who share a provider take the steps of its operations one at a time. A schedule says, step
by step, whose turn it is; a caller between two operations starts the one that the schedule names,
and any other goes on with the one that it has started. Every order of the callers' steps is the run
of some schedule.

What happens is kept as a history, oldest first. A caller's look at the seed function and its step
after that are apart, and others may come between them.
-/

namespace Redraw.SeedProvider

/-- An operation that a caller may start. -/
inductive Request where
  /-- Ask for a seed. -/
  | next
  /-- Bind a seed function. -/
  | bind (seeder : Seeder)
  /-- Ask whether a seed function is bound. -/
  | isBound

/-- Where a caller stands. -/
inductive Stage where
  /-- Between two operations. -/
  | idle
  /-- It found a seed function and is about to call it. -/
  | calling (seeder : Seeder)
  /-- It found no seed function and is about to see to the default generator. -/
  | preparing
  /-- It is about to draw from the default generator. -/
  | drawing

/-- Something that a caller did. -/
inductive Deed where
  /-- It asked whether a seed function is bound and was told. -/
  | asked (caller : Nat) (bound : Bool)
  /-- It bound a seed function, or was refused. -/
  | bound (caller : Nat) (accepted : Bool)
  /-- It looked for a seed function, to get a seed. -/
  | looked (caller : Nat) (present : Bool)
  /-- It saw to the default generator, which was there or was made. -/
  | prepared (caller : Nat) (made : Bool)
  /-- It got a seed. -/
  | issued (caller : Nat) (seed : UInt32) (source : SeedSource)
  deriving DecidableEq, Repr

/-- A provider, the callers who share it, and what has happened. -/
structure Sharing where
  /-- The provider. -/
  provider : SeedProvider
  /-- Where each caller stands. -/
  stage : Nat → Stage := fun _ => .idle
  /-- What has happened, oldest first. -/
  history : List Deed := []

namespace Sharing

/-- Records what a caller did and where it stands then. -/
def record (s : Sharing) (caller : Nat) (stage : Stage) (deed : Deed) : Sharing where
  provider := s.provider
  stage other := if other = caller then stage else s.stage other
  history := s.history ++ [deed]

/-- A caller's first step of an operation. -/
def start (s : Sharing) (caller : Nat) : Request → Sharing
  | .isBound => s.record caller .idle (.asked caller s.provider.isBound)
  | .bind seeder =>
    let (accepted, provider) := s.provider.install seeder
    { s with provider := provider }.record caller .idle (.bound caller accepted)
  | .next =>
    match s.provider.seeder with
    | some seeder => s.record caller (.calling seeder) (.looked caller true)
    | none => s.record caller .preparing (.looked caller false)

/-- A caller's next step. The request counts only if the caller is between two operations. -/
def step (s : Sharing) (caller : Nat) (request : Request) : Sharing :=
  match s.stage caller with
  | .idle => s.start caller request
  | .calling seeder =>
    let (seed, provider) := s.provider.call seeder
    { s with provider := provider }.record caller .idle (.issued caller seed .bound)
  | .preparing =>
    { s with provider := s.provider.prepare }.record caller .drawing
      (.prepared caller s.provider.fallback.isNone)
  | .drawing =>
    let (seed, provider) := s.provider.drawFallback
    { s with provider := provider }.record caller .idle (.issued caller seed .fallback)

/-- The steps of a schedule. -/
def run (s : Sharing) (schedule : List (Nat × Request)) : Sharing :=
  schedule.foldl (fun s (caller, request) => s.step caller request) s

end Sharing

end Redraw.SeedProvider
