import Redraw.Command.Arguments
import Redraw.Command.Run

/-!
# The program

The program reads its arguments and its configuration and runs the command. It ends with a code:
zero when all went well, one when the command or the configuration failed, two when the arguments
are not as they should be. A failure is reported with its cause.
-/

namespace Redraw

namespace Failure

/-- What failed and, after it, why. -/
def chain : Failure → List String
  | refused (some context) fault => [context, fault.message]
  | refused none fault => [fault.message]
  | aborted fault => [fault.message]

/-- What failed and why, on one line. -/
def message (failure : Failure) : String :=
  ": ".intercalate failure.chain

/-- The lines of a text, each with an indent. -/
def indented (text : String) : List String :=
  (text.splitOn "\n").map fun line => "    " ++ line

/-- The lines that report a failure. -/
def report (failure : Failure) : List String :=
  match failure.chain with
  | [] => []
  | what :: causes =>
    let first := ("Error: " ++ what).splitOn "\n"
    if causes.isEmpty then first else first ++ "" :: "Caused by:" :: causes.flatMap indented

end Failure

namespace Invocation

/-- The configuration that an invocation names, or else the one that fixes nothing. -/
def loadConfig (invocation : Invocation) (files : FileStore) : Except Fault Config :=
  match invocation.config with
  | some path => Config.load files path
  | none => .ok {}

/-- Runs the command of an invocation under the configuration that it names. -/
def run (invocation : Invocation) : Running Unit := do
  if let some path := invocation.config then report (.configurationNamed path)
  let config ← Running.orRefuse none (invocation.loadConfig (← get).files)
  invocation.command.run config

/-- The paths that an invocation names. -/
def paths (invocation : Invocation) : List String :=
  invocation.config.toList ++
    match invocation.command with
    | .checkpoint _ _ path _ => [path]
    | .resume path _ _ _ => [path]
    | _ => []

end Invocation

/-- How the program ends. -/
structure Outcome where
  /-- The code that it ends with. -/
  code : UInt32
  /-- The lines that it printed. -/
  out : List String
  /-- The lines that report a failure. -/
  failure : List String

namespace Program

/-- The name and version of the program. -/
def versionLine : String := "repro-random 0.1.0"

/-- What is shown of the arguments that the program takes. -/
def usageLine : String :=
  "Usage: repro-random [OPTIONS] <seed|draw|shuffle|sample|checkpoint|resume>"

/-- The end of a program whose arguments ask for nothing to be done. -/
def refuse : Usage → Outcome
  | .version => ⟨0, [versionLine], []⟩
  | .help => ⟨0, [usageLine], []⟩
  | _ => ⟨2, [], [usageLine]⟩

/-- Runs an invocation to the end of the program, with what was reported and the world after it. -/
def run (invocation : Invocation) (world : World) : (Outcome × World) × Journal :=
  let ((result, world), journal) := (invocation.run.run.run world).run []
  match result with
  | .ok () => ((⟨0, world.out, []⟩, world), journal)
  | .error failure => ((⟨1, world.out, failure.report⟩, world), journal)

end Program

end Redraw
