import Redraw.Fault
import Redraw.Snapshot.Text

/-!
# Checkpoints

A checkpoint is a snapshot with a version and a fingerprint. It is valid when its version is the
current one and its fingerprint is that of its snapshot; only then is the snapshot looked at.
-/

namespace Redraw

/-- A snapshot with a version and a fingerprint. -/
structure Checkpoint where
  /-- The version of the form. -/
  version : UInt32
  /-- The snapshot. -/
  snapshot : Snapshot
  /-- What is recorded as the snapshot's fingerprint. -/
  fingerprint : String
  deriving DecidableEq, Repr

namespace Checkpoint

/-- The version that is written and read. -/
def currentVersion : UInt32 := 1

/-- The checkpoint of a snapshot. -/
def ofSnapshot (s : Snapshot) : Checkpoint :=
  ⟨currentVersion, s, s.fingerprint⟩

/-- The checkpoint of a generator. -/
def ofGenerator (g : Generator) : Checkpoint :=
  ofSnapshot (.ofGenerator g)

/-- Checks the version, then the fingerprint. -/
def validate (c : Checkpoint) : Except Malformed Unit :=
  if c.version ≠ currentVersion then .error (.unsupportedVersion c.version currentVersion)
  else if c.snapshot.fingerprint ≠ c.fingerprint then
    .error (.hashMismatch c.fingerprint c.snapshot.fingerprint)
  else .ok ()

/-- The generator of a valid checkpoint. -/
def toGenerator? (c : Checkpoint) : Except Malformed Generator :=
  match c.validate with
  | .error cause => .error cause
  | .ok () => c.snapshot.toGenerator?.mapError .block

end Checkpoint

end Redraw
