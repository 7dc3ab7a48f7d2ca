import Redraw.Checkpoint.Json
import Redraw.FileStore
import Redraw.Journal
import Redraw.Snapshot.Decode
import Redraw.Stream.Sink

/-!
# Generators in streams and files

A generator is saved to a sink or file in its text form, and loaded from an input or file that
holds one. Loading replaces a generator only when everything read is in order; otherwise the
generator is kept as it was.
-/

namespace Redraw

/-- Replacing a generator by one that is read from an input. Both are kept where a fault left
them. -/
abbrev Loading (α : Type) := ExceptT Fault (StateT Generator (StateT Input Logged)) α

namespace Generator

/-- Writes the state of a generator, by whatever writes pieces of text one after the other. -/
def saveBy {σ : Type} (writeAll : List Bytes → σ → Except IoFault Unit × σ) (g : Generator) :
    ExceptT Fault (StateT σ Logged) Unit := do
  match ← modifyGet (writeAll (Snapshot.ofGenerator g).pieces) with
  | .ok () => report (.stateSaved g.seed)
  | .error fault => throw (.io fault)

/-- Writes the state of a generator to a sink. -/
def save : Generator → ExceptT Fault (StateT Sink Logged) Unit :=
  saveBy Sink.writeAll

/-- Reads a generator from an input. -/
def ofInput : Reading Generator := do
  match (← Snapshot.decode).toGenerator? with
  | .ok g => return g
  | .error fault => throw (.malformed (.block fault))

/-- Replaces a generator by one that is read from an input. -/
def load : Loading Unit := do
  match ← modifyGetThe Input ofInput.run with
  | .ok g =>
    set g
    report (.stateLoaded g.seed)
  | .error fault => throw fault

/-- Writes the state of a generator to a file, whatever the file held before. -/
def saveFile (g : Generator) (path : String) : ExceptT Fault (StateT FileStore Logged) Unit := do
  match (← get).write path (Snapshot.ofGenerator g).encode with
  | .ok store =>
    set store
    report (.stateSaved g.seed)
  | .error fault => throw (.io fault)

/-- The number of bytes that are read from a file at a time. -/
def fileBuffer : Nat := 8192

/-- Replaces a generator by one that is read from a file. -/
def loadFile (store : FileStore) (path : String) : ExceptT Fault (StateT Generator Logged) Unit :=
  match store.read path with
  | .ok content => ExceptT.mk fun g => do
    let ((result, g), _) ← (load.run g).run (.buffered fileBuffer content .closed)
    return (result, g)
  | .error fault => throw (.io fault)

end Generator

end Redraw
