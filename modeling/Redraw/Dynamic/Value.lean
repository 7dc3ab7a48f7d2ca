import Redraw.Fault
import Redraw.Reduction

/-!
# Values of any type

Callers who know no types pass any value for any parameter. A parameter takes the values of its
type and refuses all others, by their type or by their size.
-/

namespace Redraw.Dynamic

/-- A value that is passed for a parameter. -/
inductive Value where
  /-- No value. -/
  | null
  /-- A truth value, which counts as the integer zero or one. -/
  | boolean (value : Bool)
  /-- An integer of any size. -/
  | integer (value : Int)
  /-- Anything else. -/
  | other
  deriving DecidableEq, Repr

/-- Why a call fails. -/
inductive Refusal where
  /-- An argument is of another type, or there are too many. -/
  | wrongType
  /-- An integer is negative or too great. -/
  | outOfRange
  /-- A bound is zero. -/
  | zeroBound
  /-- The operation is refused. -/
  | refused (fault : Fault)
  /-- A draw was asked for that there is not. -/
  | aborted (fault : DrawFault)

/-- The kinds of refusals that callers tell apart. -/
inductive RefusalKind where
  /-- An argument is of another type, or there are too many. -/
  | wrongType
  /-- An integer is outside its type. -/
  | overflow
  /-- A value is of its type, and refused. -/
  | badValue
  /-- The operation cannot be done any more. -/
  | runtime
  /-- A stream or file cannot be read or written. -/
  | system
  /-- The operation broke off. -/
  | abort
  deriving DecidableEq, Repr

namespace RefusalKind

/-- The name by which callers know a kind. -/
def name : RefusalKind → String
  | wrongType => "TypeError"
  | overflow => "OverflowError"
  | badValue => "ValueError"
  | runtime => "RuntimeError"
  | system => "OSError"
  | abort => "PanicException"

end RefusalKind

namespace Refusal

/-- The kind of a refusal. -/
def kind : Refusal → RefusalKind
  | wrongType => .wrongType
  | outOfRange => .overflow
  | zeroBound => .badValue
  | refused .alreadyBound => .runtime
  | refused (.io _) => .system
  | refused _ => .badValue
  | aborted _ => .abort

/-- What a refusal says, when it says more than its kind. -/
def message? : Refusal → Option String
  | wrongType => none
  | outOfRange => none
  | zeroBound => some DrawFault.zeroBound.message
  | refused fault => some fault.message
  | aborted fault => some fault.message

end Refusal

namespace Value

/-- The integer that a value counts as. -/
def integer? : Value → Option Int
  | integer n => some n
  | boolean value => some value.toInt
  | null => none
  | other => none

/-- The natural number below a limit that a value counts as. -/
def below (limit : Nat) (value : Value) : Except Refusal Nat :=
  match value.integer? with
  | none => .error .wrongType
  | some (.ofNat n) => if n < limit then .ok n else .error .outOfRange
  | some (.negSucc _) => .error .outOfRange

end Value

/-- What is passed where a list is taken. -/
inductive Items (α : Type) where
  /-- A list. -/
  | list (items : List α)
  /-- Anything else. -/
  | other
  deriving DecidableEq, Repr

namespace Items

/-- The list that is passed. -/
def toList {α : Type} : Items α → Except Refusal (List α)
  | list items => .ok items
  | other => .error .wrongType

end Items

/-- The value passed for the only parameter, which may be left out. -/
def onlyArgument : List Value → Except Refusal (Option Value)
  | [] => .ok none
  | [value] => .ok (some value)
  | _ => .error .wrongType

end Redraw.Dynamic
