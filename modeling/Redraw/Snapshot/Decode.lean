import Redraw.Snapshot.Text
import Redraw.Stream.Token

/-!
# Reading snapshots from a stream

The text form is read token by token, each part checked as soon as it is read. Nothing after the
blank that ends the last token is taken, so that whatever follows can be read next. What is read is
a snapshot of as many words as a block holds; whether it is that of a generator is asked later.
-/

namespace Redraw.Snapshot

/-- Reads a marker. -/
def readMarker (part expected : String) : Reading Unit := do
  let token ← Token.next part
  if token ≠ expected then throw (.malformed (.wrongMarker expected token))

/-- The number that a token stands for. -/
def number (part token : String) : Reading UInt64 :=
  match Numeral.word? token with
  | some word => pure word
  | none => throw (.malformed (.badNumber part token))

/-- Reads a number. -/
def readNumber (part : String) : Reading UInt64 := do
  number part (← Token.next part)

/-- What messages call a state word. -/
def wordPart : String := "state word"

/-- Reads a state word, after the given number of them. An end marker in its place says that there
are too few. -/
def readWord (before : Nat) : Reading UInt64 := do
  let token ← Token.next wordPart
  if token = endMarker then throw (.malformed (.endedEarly before))
  number wordPart token

/-- Reads `n` state words, after the given number of them. -/
def readWords (before : Nat) : (n : Nat) → Reading (List UInt64)
  | 0 => return []
  | n + 1 => do
    let word ← readWord before
    let words ← readWords (before + 1) n
    return word :: words

/-- Reads the text form of a snapshot. -/
def decode : Reading Snapshot := do
  readMarker "begin marker" beginMarker
  let seed ← readNumber "seed"
  let index ← readNumber "index"
  let words ← readWords 0 blockSize
  readMarker "end marker" endMarker
  return ⟨seed, index, words⟩

end Redraw.Snapshot
