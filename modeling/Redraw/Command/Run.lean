import Redraw.Command.Basic
import Redraw.Config
import Redraw.Decimal.Form
import Redraw.Generator.Selection
import Redraw.Generator.Stream

/-!
# Running commands

A command works on files, on a provider of seeds and on the lines that it prints, and reports on
the way. What it printed and wrote before it failed stays.
-/

namespace Redraw

/-- What a command works on. -/
structure World where
  /-- The files. -/
  files : FileStore := {}
  /-- The provider of seeds. -/
  provider : SeedProvider
  /-- The lines printed so far. -/
  out : List String := []

/-- Why a command failed. -/
inductive Failure where
  /-- Something was refused while something else was being done. -/
  | refused (context : Option String) (fault : Fault)
  /-- A draw was asked for that there is not. -/
  | aborted (fault : DrawFault)

/-- A computation of a command. -/
abbrev Running (α : Type) := ExceptT Failure (StateT World Logged) α

namespace Running

/-- Prints lines. -/
def print (lines : List String) : Running Unit :=
  modify fun world => { world with out := world.out ++ lines }

/-- Refuses what an operation refuses. -/
def orRefuse {α : Type} (context : Option String) : Except Fault α → Running α
  | .ok a => return a
  | .error fault => throw (.refused context fault)

/-- Asks the provider. -/
def withProvider {α : Type} (ask : StateT SeedProvider Logged α) : Running α := do
  let (a, provider) ← (ask.run (← get).provider : Logged _)
  modify fun world => { world with provider := provider }
  return a

/-- Works on the files. -/
def withFiles {α : Type} (context : Option String)
    (work : ExceptT Fault (StateT FileStore Logged) α) : Running α := do
  let (result, files) ← (work.run.run (← get).files : Logged _)
  modify fun world => { world with files := files }
  orRefuse context result

end Running

namespace Command

open Running

/-- The generator of a command: from its own seed, or else from the configuration. -/
def generator (seed : Option UInt64) (config : Config) : Running Generator :=
  match seed with
  | some seed => return .ofSeed seed
  | none => withProvider config.build

/-- The line that a draw prints: a real, or else an integer below a bound. -/
def drawLine (bound : UInt32) (real : Bool) : Draw String := do
  if real then return Decimal.plain (← Generator.real)
  else return Numeral.text (← Generator.below bound).toNat

/-- Prints draws. -/
def printDraws (g : Generator) (count : Nat) (bound : UInt32) (real : Bool) : Running Unit :=
  match (Generator.repeated (drawLine bound real) count).run.run g with
  | (.ok lines, _) => print lines
  | (.error fault, _) => throw (.aborted fault)

/-- The line of several items. -/
def itemLine (items : List String) : String :=
  " ".intercalate items

/-- Writes the state of a generator to a file. -/
def write (g : Generator) (path : String) (json : Bool) : Running Unit :=
  withFiles (some s!"writing {path}") <|
    if json then do
      match (← get).write path (Bytes.ofText g.toJson) with
      | .ok files => set files
      | .error fault => throw (.io fault)
    else g.saveFile path

/-- Reads the generator that a file holds in JSON. -/
def readJson (path : String) : Running Generator := do
  let text ← orRefuse (some s!"reading {path}") <|
    ((← get).files.readText path).mapError .io
  orRefuse none <| (Generator.ofJson? text).mapError .malformed

/-- Reads the generator that a file holds in text form. -/
def readText (path : String) : Running Generator := do
  let load := Generator.loadFile (← get).files path
  let (result, g) ← (load.run.run (.ofSeed 0) : Logged _)
  orRefuse (some s!"reading {path}") result
  return g

/-- Runs a command. -/
def run (config : Config) : Command → Running Unit
  | .issue => do
    let seed ← withProvider SeedProvider.next
    print [Numeral.text seed.toNat]
  | .draw seed count bound real => do
    printDraws (← generator seed config) count bound real
  | .shuffle seed items => do
    let g ← generator seed config
    print [itemLine (g.shuffle items).1]
  | .sample seed choices items => do
    let g ← generator seed config
    let picked ← orRefuse none <| (g.sample items choices).1.mapError .shortage
    print [itemLine picked]
  | .checkpoint seed skip path json => do
    let g := (← generator seed config).skip skip
    write g path json
    report (.checkpointWritten g.seed skip path)
    print [path]
  | .resume path json count bound => do
    let g ← if json then readJson path else readText path
    report (.checkpointResumed g.seed path)
    printDraws g count bound false

end Command

end Redraw
