import Redraw.Numeral
import Redraw.Sha256
import Redraw.Snapshot.Basic

/-!
# The text form of snapshots

A snapshot is written as tokens: a begin marker, the seed, the index, the words, and an end marker.
One space follows each token, the last one too, so that whatever follows in the same stream is kept
apart from it. The fingerprint of a snapshot is the digest of its text form.
-/

namespace Redraw.Snapshot

/-- The first token. -/
def beginMarker : String := "random-v2"

/-- The last token. -/
def endMarker : String := "endrandom-v2"

/-- The space that follows each token. -/
def space : UInt8 := 32

/-- The token of a number. -/
def numberToken (word : UInt64) : Bytes :=
  Bytes.ofText (Numeral.text word.toNat)

/-- The tokens of a snapshot in their order. -/
def tokens (s : Snapshot) : List Bytes :=
  Bytes.ofText beginMarker :: numberToken s.seed :: numberToken s.index ::
    s.words.map numberToken ++ [Bytes.ofText endMarker]

/-- The pieces of the text form: each token with its space. -/
def pieces (s : Snapshot) : List Bytes :=
  s.tokens.map (· ++ [space])

/-- The text form. -/
def encode (s : Snapshot) : Bytes :=
  s.pieces.flatten

/-- The digest of the text form in hexadecimal digits. -/
def fingerprint (s : Snapshot) : String :=
  Bytes.hex (Sha256.digest s.encode)

end Redraw.Snapshot
