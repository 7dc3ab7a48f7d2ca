import Redraw.Json.Fault
import Redraw.Sampling
import Redraw.Stream.Fault
import Redraw.Twister.Restore

/-!
# Faults

Everything that can be refused, apart from draws below a zero bound. Faults are causes; their
wording is in one place.
-/

namespace Redraw

/-- Why something that was read is not the state of a generator. -/
inductive Malformed where
  /-- The input ends before a part of the text form. -/
  | endOfInput (part : String)
  /-- A marker of the text form is something else. -/
  | wrongMarker (expected found : String)
  /-- A part of the text form is no 64-bit number. -/
  | badNumber (part found : String)
  /-- The text form ends before its last word. -/
  | endedEarly (words : Nat)
  /-- A token is longer than any token of the text form. -/
  | tokenTooLong (limit : Nat)
  /-- A token is no text. -/
  | tokenNotText
  /-- The words and the index are those of no twister. -/
  | block (fault : BlockFault)
  /-- A checkpoint has another version. -/
  | unsupportedVersion (found expected : UInt32)
  /-- A checkpoint's fingerprint is not that of its snapshot. -/
  | hashMismatch (recorded computed : String)
  /-- A text is not the JSON form of a checkpoint. -/
  | json (fault : Json.Fault)

namespace Malformed

/-- A token as messages show it. -/
def quoted (token : String) : String :=
  "'" ++ token ++ "'"

/-- The wording of a cause. -/
def message : Malformed → String
  | endOfInput part => s!"unexpected end of input, expected {part}"
  | wrongMarker expected found => s!"expected {quoted expected}, found {quoted found}"
  | badNumber part found => s!"invalid {part}: {quoted found}"
  | endedEarly words => s!"state ended after {words} of {blockSize} words"
  | tokenTooLong limit => s!"token longer than {limit} bytes"
  | tokenNotText => "token is not valid UTF-8"
  | block fault => fault.message
  | unsupportedVersion found expected =>
    s!"unsupported checkpoint version {found} (expected {expected})"
  | hashMismatch recorded computed =>
    s!"state hash mismatch: recorded {recorded}, computed {computed}"
  | json fault => s!"invalid checkpoint JSON: {fault.message}"

end Malformed

/-- Why an operation is refused. -/
inductive Fault where
  /-- More items are asked for than there are. -/
  | shortage (shortage : Shortage)
  /-- What was read is not the state of a generator. -/
  | malformed (cause : Malformed)
  /-- A text is no configuration; the file it is from, if it is from one. -/
  | config (file : Option String) (fault : Json.Fault)
  /-- A provider has a seed function already. -/
  | alreadyBound
  /-- A stream or file cannot be read or written. -/
  | io (fault : IoFault)

namespace Fault

/-- The wording of a fault. -/
def message : Fault → String
  | shortage s => s.message
  | malformed cause => s!"Malformed random state: {cause.message}"
  | config none fault => s!"Invalid config: {fault.message}"
  | config (some file) fault => s!"Invalid config: {file}: {fault.message}"
  | alreadyBound => "A seed function is already bound to this provider"
  | io fault => fault.message

end Fault

end Redraw
