import Redraw.Bytes
import Redraw.Stream.Fault

/-!
# Inputs

An input hands out its bytes in chunks and then either ends or fails. How the bytes are cut into
chunks is the business of whoever buffers them.
-/

namespace Redraw

/-- How an input ends. -/
inductive Ending where
  /-- There is nothing more. -/
  | closed
  /-- Reading on fails. -/
  | failed (fault : IoFault)
  deriving DecidableEq, Repr

/-- Bytes that are read in chunks. -/
structure Input where
  /-- The chunks still to be read. An empty one holds nothing and is passed over. -/
  chunks : List Bytes
  /-- How the input ends after its last chunk. -/
  ending : Ending := .closed
  deriving DecidableEq, Repr

namespace Input

/-- An input that hands out all bytes at once. -/
def ofBytes (bytes : Bytes) : Input where
  chunks := [bytes]

/-- An input that hands out as many bytes at a time as a buffer of the given size holds. A buffer
that holds none takes none of the bytes that are there, which looks like their end. -/
def buffered (size : Nat) (bytes : Bytes) (ending : Ending) : Input :=
  if size = 0 ∧ !bytes.isEmpty then { chunks := [] }
  else { chunks := Bytes.pieces size bytes, ending := ending }

/-- The bytes still to be read. -/
def rest (input : Input) : Bytes :=
  input.chunks.flatten

end Input

end Redraw
