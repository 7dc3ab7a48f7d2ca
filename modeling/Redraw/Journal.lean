/-!
# The journal

On the way operations report what they do. The journal is the list of these reports, oldest first;
no result depends on it.
-/

namespace Redraw

/-- How much a report matters. -/
inductive Level where
  /-- A detail for those who look for it. -/
  | debug
  /-- Something to know. -/
  | info
  deriving DecidableEq, Repr

namespace Level

/-- The name of a level. -/
def text : Level → String
  | debug => "DEBUG"
  | info => "INFO"

end Level

/-- Where an issued seed is from. -/
inductive SeedSource where
  /-- The bound seed function. -/
  | bound
  /-- The default generator. -/
  | fallback
  deriving DecidableEq, Repr

namespace SeedSource

/-- The name of a source. -/
def text : SeedSource → String
  | bound => "bound"
  | fallback => "default"

end SeedSource

/-- Something that happened. -/
inductive Event where
  /-- A seed function was bound to a provider. -/
  | seederBound
  /-- A provider issued a seed. -/
  | seedIssued (seed : UInt32) (source : SeedSource)
  /-- A generator was made from an issued seed, as none was configured. -/
  | freshSeed (seed : UInt64)
  /-- The state of a generator was written. -/
  | stateSaved (seed : UInt64)
  /-- The state of a generator was read. -/
  | stateLoaded (seed : UInt64)
  /-- A configuration is going to be read. -/
  | configurationNamed (path : String)
  /-- A command wrote the state of a generator to a file. -/
  | checkpointWritten (seed : UInt64) (skip : Nat) (path : String)
  /-- A command read the state of a generator from a file. -/
  | checkpointResumed (seed : UInt64) (path : String)
  deriving DecidableEq, Repr

namespace Event

/-- How much an event matters. -/
def level : Event → Level
  | seederBound => .info
  | seedIssued .. => .debug
  | freshSeed _ => .info
  | stateSaved _ => .debug
  | stateLoaded _ => .debug
  | configurationNamed _ => .info
  | checkpointWritten .. => .info
  | checkpointResumed .. => .info

/-- What an event says, with its details. -/
def message : Event → String
  | seederBound => "seed function bound to provider"
  | seedIssued seed source => s!"issued random seed seed={seed} source={source.text}"
  | freshSeed seed => s!"no seed configured, using fresh seed seed={seed}"
  | stateSaved seed => s!"saved random state seed={seed}"
  | stateLoaded seed => s!"loaded random state seed={seed}"
  | configurationNamed path => s!"Loading configuration from: {path}"
  | checkpointWritten seed skip path => s!"checkpoint written seed={seed} skip={skip} path={path}"
  | checkpointResumed seed path => s!"resumed from checkpoint seed={seed} path={path}"

/-- The line of the journal for an event. -/
def text (e : Event) : String :=
  s!"{e.level.text} {e.message}"

end Event

/-- What was reported, oldest first. -/
abbrev Journal := List Event

/-- A computation that reports. -/
abbrev Logged := StateM Journal

/-- Reports an event. -/
def report {m : Type → Type} [MonadLiftT Logged m] (e : Event) : m Unit :=
  liftM (modify (· ++ [e]) : Logged Unit)

end Redraw
