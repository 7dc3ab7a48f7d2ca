import Redraw.Fault
import Redraw.Stream.Input

/-!
# Tokens

A token is a run of bytes without blanks. Reading one takes the bytes up to the single blank that
ends it, and no more; blanks before a token are taken with it. A chunk is taken only once it is
scanned, so that a token that grows too long leaves the chunk in which it does.
-/

namespace Redraw

/-- Reading from an input. The input is kept where a fault left it. -/
abbrev Reading (α : Type) := ExceptT Fault (StateM Input) α

namespace Token

/-- The greatest length of a token in bytes. -/
def limit : Nat := 32

/-- Whether a byte separates tokens: space, tab, line feed, form feed or carriage return. -/
def isBlank (byte : UInt8) : Bool :=
  byte == 32 || byte == 9 || byte == 10 || byte == 12 || byte == 13

/-- What scanning a chunk for the rest of a token comes to. -/
inductive Scan where
  /-- The token ends in the chunk; the bytes after its blank are left. -/
  | ended (token left : Bytes)
  /-- The chunk is used up. -/
  | unfinished (token : Bytes)
  /-- The token grows too long. -/
  | tooLong
  deriving DecidableEq, Repr

/-- Scans a chunk for the rest of a token of which some bytes are read already. -/
def scan (token : Bytes) : Bytes → Scan
  | [] => .unfinished token
  | byte :: bytes =>
    if isBlank byte then if token.isEmpty then scan [] bytes else .ended token bytes
    else if token.length < limit then scan (token ++ [byte]) bytes
    else .tooLong

/-- The rest of a token of which some bytes are read already, and the chunks left. There is no
token when the input ends before one starts. -/
def collect (ending : Ending) (token : Bytes) :
    List Bytes → Except Fault (Option Bytes) × List Bytes
  | [] =>
    match ending with
    | .closed => (.ok (if token.isEmpty then none else some token), [])
    | .failed fault => (.error (.io fault), [])
  | chunk :: chunks =>
    match scan token chunk with
    | .ended token left => (.ok (some token), left :: chunks)
    | .unfinished token => collect ending token chunks
    | .tooLong => (.error (.malformed (.tokenTooLong limit)), chunk :: chunks)

/-- The next token of an input as bytes. -/
def nextBytes : Reading (Option Bytes) := fun input =>
  let (result, chunks) := collect input.ending [] input.chunks
  (result, { input with chunks := chunks })

/-- The next token of an input, which must be text. -/
def next (part : String) : Reading String := do
  match ← nextBytes with
  | none => throw (.malformed (.endOfInput part))
  | some bytes =>
    match Bytes.text? bytes with
    | some text => return text
    | none => throw (.malformed .tokenNotText)

end Token

end Redraw
