import Redraw.Decimal.Form
import Redraw.Text.Visible

/-!
# Faults in JSON text

A text is read from the front, and the first fault met is the one reported. Faults of form concern
the grammar; faults of content concern what a well-formed value is expected to be.
-/

namespace Redraw.Json

/-- What stands where something else was expected. -/
inductive Found where
  /-- The word for no value. -/
  | null
  /-- A truth value. -/
  | boolean (value : Bool)
  /-- A whole number of at most 64 bits. -/
  | integer (value : Int)
  /-- A number with a point or an exponent, or one too great for 64 bits. -/
  | float (value : Float)
  /-- A string. -/
  | string (value : String)
  /-- A list. -/
  | sequence
  /-- An object. -/
  | map

namespace Found

/-- How a message names what was found. -/
def text : Found → String
  | null => "null"
  | boolean value => s!"boolean `{value}`"
  | integer value => s!"integer `{value}`"
  | float value => s!"floating point `{Decimal.marked value}`"
  | string value => s!"string {Text.visible value}"
  | sequence => "sequence"
  | map => "map"

end Found

/-- Why a text is not the JSON form of what is read. -/
inductive Fault where
  /-- The text ends where a value is expected. -/
  | endInValue
  /-- The text ends inside a list. -/
  | endInList
  /-- The text ends inside an object. -/
  | endInObject
  /-- The text ends inside a string. -/
  | endInString
  /-- No value starts here. -/
  | noValue
  /-- A word is neither `null` nor a truth value. -/
  | unknownWord
  /-- No colon follows a key. -/
  | noColon
  /-- A member of an object is followed by neither a comma nor the end. -/
  | noCommaInObject
  /-- An item of a list is followed by neither a comma nor the end. -/
  | noCommaInList
  /-- A key is not a string. -/
  | keyNotString
  /-- A comma stands before the end of a list or object. -/
  | trailingComma
  /-- Something follows the value. -/
  | trailingCharacters
  /-- A number is ill-formed. -/
  | badNumber
  /-- A number is too great for a double. -/
  | numberTooGreat
  /-- A backslash is followed by no escape. -/
  | badEscape
  /-- Half of a surrogate pair stands alone. -/
  | loneSurrogate
  /-- The second half of a surrogate pair is missing. -/
  | halfPair
  /-- A control character stands in a string. -/
  | controlCharacter
  /-- A value of another type is expected. -/
  | wrongType (found : Found) (expected : String)
  /-- Another value of this type is expected. -/
  | wrongValue (found : Found) (expected : String)
  /-- A list has too few items. -/
  | wrongLength (found : Nat) (expected : String)
  /-- A field is not there. -/
  | missingField (name : String)
  /-- A field is there twice. -/
  | duplicateField (name : String)
  /-- A field is not one of those that can be there. -/
  | unknownField (name : String) (expected : String)

namespace Fault

/-- The wording of a fault. -/
def message : Fault → String
  | endInValue => "EOF while parsing a value"
  | endInList => "EOF while parsing a list"
  | endInObject => "EOF while parsing an object"
  | endInString => "EOF while parsing a string"
  | noValue => "expected value"
  | unknownWord => "expected ident"
  | noColon => "expected `:`"
  | noCommaInObject => "expected `,` or `\x7d`"
  | noCommaInList => "expected `,` or `]`"
  | keyNotString => "key must be a string"
  | trailingComma => "trailing comma"
  | trailingCharacters => "trailing characters"
  | badNumber => "invalid number"
  | numberTooGreat => "number out of range"
  | badEscape => "invalid escape"
  | loneSurrogate => "lone leading surrogate in hex escape"
  | halfPair => "unexpected end of hex escape"
  | controlCharacter => "control character (\\u0000-\\u001F) found while parsing a string"
  | wrongType found expected => s!"invalid type: {found.text}, expected {expected}"
  | wrongValue found expected => s!"invalid value: {found.text}, expected {expected}"
  | wrongLength found expected => s!"invalid length {found}, expected {expected}"
  | missingField name => s!"missing field `{name}`"
  | duplicateField name => s!"duplicate field `{name}`"
  | unknownField name expected => s!"unknown field `{name}`, expected {expected}"

end Fault

end Redraw.Json
