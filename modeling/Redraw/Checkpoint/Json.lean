import Redraw.Checkpoint.Basic
import Redraw.Json.Record
import Redraw.Json.Writer

/-!
# The JSON form of checkpoints

A checkpoint is written without blanks, its fields in their order. Any JSON text of the same fields
is read, with blanks, in any order and with further fields, which are passed over.
-/

namespace Redraw

namespace Snapshot

/-- The JSON form of a snapshot. -/
def json (s : Snapshot) : List Char :=
  Json.object
    [Json.member "seed" (Numeral.digits s.seed.toNat),
      Json.member "index" (Numeral.digits s.index.toNat),
      Json.member "words" (Json.list (s.words.map fun word => Numeral.digits word.toNat))]

/-- The fields of a snapshot that have been read. -/
structure Draft where
  /-- The seed. -/
  seed : Option UInt64 := none
  /-- The index. -/
  index : Option UInt64 := none
  /-- The state words. -/
  words : Option (List UInt64) := none

/-- How a snapshot is read from JSON text. -/
def layout : Json.Layout Draft Snapshot where
  title := "RandomSnapshot"
  fields :=
    [{ name := "seed"
       isFilled := fun d => d.seed.isSome
       fill := Json.Reader.word.map fun seed d => { d with seed := some seed } },
     { name := "index"
       isFilled := fun d => d.index.isSome
       fill := Json.Reader.size.map fun index d => { d with index := some index } },
     { name := "words"
       isFilled := fun d => d.words.isSome
       fill := Json.Reader.word.list.map fun words d => { d with words := some words } }]
  closed := false
  blank := {}
  complete := fun missing d =>
    match d.seed, d.index, d.words with
    | some seed, some index, some words => .ok ⟨seed, index, words⟩
    | none, _, _ => .error (missing "seed")
    | _, none, _ => .error (missing "index")
    | _, _, none => .error (missing "words")

/-- The snapshot that a JSON text stands for. -/
def ofJson? (text : String) : Except Json.Fault Snapshot :=
  layout.reader.whole text

end Snapshot

namespace Checkpoint

/-- The JSON form of a checkpoint. -/
def json (c : Checkpoint) : List Char :=
  Json.object
    [Json.member "format_version" (Numeral.digits c.version.toNat),
      Json.member "snapshot" c.snapshot.json,
      Json.member "state_hash" (Json.quote c.fingerprint.toList)]

/-- The JSON text of a checkpoint. -/
def toJson (c : Checkpoint) : String :=
  String.ofList c.json

/-- The fields of a checkpoint that have been read. -/
structure Draft where
  /-- The version. -/
  version : Option UInt32 := none
  /-- The snapshot. -/
  snapshot : Option Snapshot := none
  /-- The fingerprint. -/
  fingerprint : Option String := none

/-- How a checkpoint is read from JSON text. -/
def layout : Json.Layout Draft Checkpoint where
  title := "RandomCheckpoint"
  fields :=
    [{ name := "format_version"
       isFilled := fun d => d.version.isSome
       fill := Json.Reader.halfWord.map fun version d => { d with version := some version } },
     { name := "snapshot"
       isFilled := fun d => d.snapshot.isSome
       fill := Snapshot.layout.reader.map fun snapshot d => { d with snapshot := some snapshot } },
     { name := "state_hash"
       isFilled := fun d => d.fingerprint.isSome
       fill := Json.Reader.string.map fun text d => { d with fingerprint := some text } }]
  closed := false
  blank := {}
  complete := fun missing d =>
    match d.version, d.snapshot, d.fingerprint with
    | some version, some snapshot, some fingerprint => .ok ⟨version, snapshot, fingerprint⟩
    | none, _, _ => .error (missing "format_version")
    | _, none, _ => .error (missing "snapshot")
    | _, _, none => .error (missing "state_hash")

/-- The checkpoint that a JSON text stands for. -/
def ofJson? (text : String) : Except Json.Fault Checkpoint :=
  layout.reader.whole text

end Checkpoint

namespace Generator

/-- The JSON text of a generator's checkpoint. -/
def toJson (g : Generator) : String :=
  (Checkpoint.ofGenerator g).toJson

/-- The generator of the valid checkpoint that a JSON text stands for. -/
def ofJson? (text : String) : Except Malformed Generator :=
  match Checkpoint.ofJson? text with
  | .ok checkpoint => checkpoint.toGenerator?
  | .error fault => .error (.json fault)

end Generator

end Redraw
