import Redraw.Command.Program

/-!
# The executable

Looks up the files that the arguments name, runs the program on them, and carries out what it wrote
and printed.
-/

namespace Redraw

/-- The path of a route. -/
def routePath (route : Route) : String :=
  "/".intercalate route

/-- What stands at a path, if anything does. -/
def lookAt (path : String) : IO (Option Node) := do
  try
    if ← (← IO.FS.realPath path).isDir then return some .directory
    return some (.file (← IO.FS.readBinFile path).data.toList)
  catch _ => return none

/-- Looks up all that stands on the way along a path. -/
def lookAlong (store : FileStore) (path : String) : IO FileStore :=
  (FileStore.routes path).foldlM (fun store route => do
    match ← lookAt (routePath route) with
    | some node => return store.insert route node
    | none => return store) store

/-- Writes the files that a program wrote. -/
def writeBack (old new : FileStore) : IO Unit := do
  for (route, node) in (new.nodes.take (new.nodes.length - old.nodes.length)).reverse do
    if let .file content := node then
      IO.FS.writeBinFile (routePath route) ⟨content.toArray⟩

/-- Prints lines to an output. -/
def printTo (output : IO.FS.Stream) (lines : List String) : IO Unit := do
  for line in lines do output.putStrLn line
  output.flush

/-- Whether an event is reported. -/
def isReported (verbose : Bool) (e : Event) : Bool :=
  verbose || e.level == .info

/-- A word of entropy. -/
def drawEntropy : IO UInt64 :=
  return (← IO.getRandomBytes 8).data.foldl (fun word byte => (word <<< 8) ||| byte.toUInt64) 0

/-- Runs an invocation on the files that it names. -/
def perform (invocation : Invocation) : IO Outcome := do
  let files ← invocation.paths.foldlM lookAlong {}
  let ((outcome, world), journal) :=
    Program.run invocation { files := files, provider := .unbound (← drawEntropy) }
  writeBack files world.files
  printTo (← IO.getStderr) <| (journal.filter (isReported invocation.verbose)).map Event.text
  return outcome

end Redraw

open Redraw in
/-- Runs the program on the arguments of the command line. -/
def main (arguments : List String) : IO UInt32 := do
  let outcome ← match Invocation.ofArguments arguments with
    | .ok invocation => perform invocation
    | .error usage => pure (Program.refuse usage)
  printTo (← IO.getStdout) outcome.out
  printTo (← IO.getStderr) outcome.failure
  return outcome.code
