import Redraw.Bytes
import Redraw.Stream.Fault

/-!
# Sinks

A sink takes bytes for as long as it has room, and then refuses them. Of a piece that does not fit
it takes what fits.
-/

namespace Redraw

/-- A place that bytes are written to. -/
structure Sink where
  /-- The bytes taken so far. -/
  written : Bytes := []
  /-- The number of bytes that it still takes, if that is limited. -/
  room : Option Nat := none
  /-- The fault with which it refuses more than that. -/
  refusal : IoFault := .writeZero
  deriving DecidableEq, Repr

namespace Sink

/-- Writes a piece, or what fits of it. -/
def write (bytes : Bytes) (sink : Sink) : Except IoFault Unit × Sink :=
  match sink.room with
  | none => (.ok (), { sink with written := sink.written ++ bytes })
  | some room =>
    let taken := bytes.take room
    (if bytes.length ≤ room then .ok () else .error sink.refusal,
      { sink with written := sink.written ++ taken, room := some (room - taken.length) })

/-- Writes pieces one after the other, up to the first that does not fit. -/
def writeAll : List Bytes → Sink → Except IoFault Unit × Sink
  | [], sink => (.ok (), sink)
  | piece :: pieces, sink =>
    match sink.write piece with
    | (.ok (), sink) => writeAll pieces sink
    | (.error fault, sink) => (.error fault, sink)

end Sink

end Redraw
