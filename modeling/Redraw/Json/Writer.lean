import Redraw.Json.Quoted

/-!
# Writing JSON

Lists and objects are written without blanks, from the written forms of their parts.
-/

namespace Redraw.Json

/-- The written form of a member of an object. -/
def member (name : String) (value : List Char) : List Char :=
  quote name.toList ++ ':' :: value

/-- The written form of an object. -/
def object (members : List (List Char)) : List Char :=
  '\x7b' :: (List.intercalate [','] members ++ ['\x7d'])

/-- The written form of a list. -/
def list (items : List (List Char)) : List Char :=
  '[' :: (List.intercalate [','] items ++ [']'])

end Redraw.Json
