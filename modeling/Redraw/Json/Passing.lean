import Redraw.Json.Number
import Redraw.Json.Quoted
import Redraw.Json.Scan

/-!
# Passing over JSON values

A value of no concern is passed over without being kept. The brackets that are open are held in a
list, so that nesting has no limit. Only the shape of numbers and escapes is checked.
-/

namespace Redraw.Json

/-- What follows a value that has no parts. -/
def passScalar (c : Char) (s : List Char) : Except Fault (List Char) :=
  if c = '"' then passString s
  else if startsNumber c then passNumber (c :: s)
  else match wordAfter? c with
    | some letters => word letters s
    | none => .error .noValue

/-- What follows a value that has no parts is shorter than the text. -/
theorem length_lt_of_passScalar {c : Char} {s rest : List Char}
    (h : passScalar c s = .ok rest) : rest.length < (c :: s).length := by
  unfold passScalar at h
  split at h
  · exact Nat.lt_succ_of_lt (length_lt_of_passString h)
  · split at h
    · exact length_lt_of_passNumber h
    · split at h
      · exact Nat.lt_succ_of_le (length_le_of_word h)
      · simp at h

/-- An open bracket. -/
inductive Bracket where
  /-- The bracket of a list. -/
  | list
  /-- The bracket of an object. -/
  | object
  deriving DecidableEq

namespace Bracket

/-- The bracket that a character opens. -/
def opened? : Char → Option Bracket
  | '[' => some .list
  | '\x7b' => some .object
  | _ => none

/-- The character that closes a bracket. -/
def closing : Bracket → Char
  | list => ']'
  | object => '\x7d'

/-- The fault of a text that ends inside a bracket. -/
def endFault : Bracket → Fault
  | list => .endInList
  | object => .endInObject

/-- The fault of an item that is followed by neither a comma nor the end. -/
def commaFault : Bracket → Fault
  | list => .noCommaInList
  | object => .noCommaInObject

end Bracket

/-- What comes before an item inside a bracket: nothing in a list, a key and a colon in an
object. -/
def passKey : Bracket → List Char → Except Fault (List Char)
  | .list, s => .ok s
  | .object, s =>
    match afterBlanks s with
    | '"' :: s =>
      match passString s with
      | .error fault => .error fault
      | .ok s => afterColon s
    | [] => .error .endInObject
    | _ => .error .keyNotString

/-- What follows a key is no longer than the text. -/
theorem length_le_of_passKey {bracket : Bracket} {s rest : List Char}
    (h : passKey bracket s = .ok rest) : rest.length ≤ s.length := by
  have blanks := length_afterBlanks_le s
  unfold passKey at h
  split at h
  · simp_all
  · split at h
    · next hs =>
      split at h
      · simp at h
      · next hr =>
        have := length_lt_of_passString hr
        have := length_lt_of_afterColon h
        simp only [hs, List.length_cons] at blanks
        omega
    · simp at h
    · simp at h

/-- What is looked for next. -/
inductive Awaited where
  /-- A value. -/
  | value
  /-- The first item of the innermost bracket, or its end. -/
  | first
  /-- A comma, or the end of the innermost bracket. -/
  | comma
  deriving DecidableEq

/-- One stage of passing over a value: what is awaited next, the open brackets from the innermost
on, and what is left of the text. -/
structure Passing where
  /-- What is looked for next. -/
  awaited : Awaited
  /-- The open brackets, the innermost first. -/
  opened : List Bracket
  /-- What is left of the text. -/
  left : List Char

namespace Passing

/-- Looks for a value. -/
def value (opened : List Bracket) (s : List Char) : Except Fault Passing :=
  match afterBlanks s with
  | [] => .error .endInValue
  | c :: s =>
    match Bracket.opened? c with
    | some bracket => .ok ⟨.first, bracket :: opened, s⟩
    | none => (passScalar c s).map (⟨.comma, opened, ·⟩)

/-- Looks for an item of a bracket that has just been entered or continued. -/
def item (bracket : Bracket) (opened : List Bracket) (s : List Char) : Except Fault Passing :=
  (passKey bracket s).map (⟨.value, bracket :: opened, ·⟩)

/-- Looks for the first item of a bracket, or its end. -/
def first (bracket : Bracket) (opened : List Bracket) (s : List Char) : Except Fault Passing :=
  match afterBlanks s with
  | [] => .error bracket.endFault
  | c :: rest =>
    if c = bracket.closing then .ok ⟨.comma, opened, rest⟩ else item bracket opened s

/-- Looks for a comma and the item after it, or the end of a bracket. -/
def comma (bracket : Bracket) (opened : List Bracket) (s : List Char) : Except Fault Passing :=
  match afterBlanks s with
  | [] => .error bracket.endFault
  | c :: rest =>
    if c = ',' then item bracket opened rest
    else if c = bracket.closing then .ok ⟨.comma, opened, rest⟩
    else .error bracket.commaFault

/-- The next stage, none when the value is over. -/
def next (p : Passing) : Except Fault (Option Passing) :=
  match p.awaited, p.opened with
  | .value, opened => (value opened p.left).map some
  | _, [] => .ok none
  | .first, bracket :: opened => (first bracket opened p.left).map some
  | .comma, bracket :: opened => (comma bracket opened p.left).map some

/-- Twice the length of what is left, one more before the first item of a bracket. -/
def weight (p : Passing) : Nat :=
  2 * p.left.length + if p.awaited = .first then 1 else 0

/-- Looking for a value uses up some of the text. -/
theorem weight_lt_of_value {opened : List Bracket} {s : List Char} {q : Passing}
    (h : value opened s = .ok q) : q.weight < 2 * s.length := by
  have blanks := length_afterBlanks_le s
  unfold value at h
  split at h
  · simp at h
  · next hs =>
    simp only [hs, List.length_cons] at blanks
    split at h
    · cases h
      simp only [weight, ↓reduceIte]
      omega
    · obtain ⟨rest, hr, rfl⟩ := map_eq_ok_iff.1 h
      have := length_lt_of_passScalar hr
      simp only [List.length_cons] at this
      simp only [weight, reduceCtorEq, ↓reduceIte]
      omega

/-- Looking for an item uses up nothing or some of the text. -/
theorem weight_le_of_item {bracket : Bracket} {opened : List Bracket} {s : List Char}
    {q : Passing} (h : item bracket opened s = .ok q) : q.weight ≤ 2 * s.length := by
  obtain ⟨rest, hr, rfl⟩ := map_eq_ok_iff.1 h
  have := length_le_of_passKey hr
  simp only [weight, reduceCtorEq, ↓reduceIte]
  omega

/-- Every stage comes closer to the end. -/
theorem weight_lt_of_next {p q : Passing} (h : p.next = .ok (some q)) : q.weight < p.weight := by
  have blanks := length_afterBlanks_le p.left
  unfold next at h
  split at h
  · obtain ⟨r, hr, hq⟩ := map_eq_ok_iff.1 h
    cases hq
    have := weight_lt_of_value hr
    simp only [weight] at this ⊢
    omega
  · simp at h
  · next hw _ =>
    obtain ⟨r, hr, hq⟩ := map_eq_ok_iff.1 h
    cases hq
    unfold first at hr
    split at hr
    · simp at hr
    · next hs =>
      simp only [hs, List.length_cons] at blanks
      split at hr
      · cases hr
        simp only [weight, hw, reduceCtorEq, ↓reduceIte]
        omega
      · have := weight_le_of_item hr
        simp only [weight, hw, ↓reduceIte] at this ⊢
        omega
  · obtain ⟨r, hr, hq⟩ := map_eq_ok_iff.1 h
    cases hq
    unfold comma at hr
    split at hr
    · simp at hr
    · next hs =>
      simp only [hs, List.length_cons] at blanks
      split at hr
      · have := weight_le_of_item hr
        simp only [weight] at this ⊢
        omega
      · split at hr
        · cases hr
          simp only [weight, reduceCtorEq, ↓reduceIte]
          omega
        · simp at hr

/-- What follows the value that is being passed over. -/
def finish (p : Passing) : Except Fault (List Char) :=
  match h : p.next with
  | .error fault => .error fault
  | .ok none => .ok p.left
  | .ok (some q) =>
    have := weight_lt_of_next h
    q.finish
termination_by p.weight

/-- What follows a value that is being passed over is no longer than what was left. -/
theorem length_le_of_finish {p : Passing} {rest : List Char} (h : p.finish = .ok rest) :
    2 * rest.length ≤ p.weight := by
  fun_induction finish p with
  | case1 => simp at h
  | case2 p =>
    cases h
    simp only [weight]
    omega
  | case3 p q hq _ ih => exact Nat.le_of_lt (Nat.lt_of_le_of_lt (ih h) (weight_lt_of_next hq))

end Passing

/-- What follows a value of no concern. -/
def passValue (s : List Char) : Except Fault (List Char) :=
  Passing.finish ⟨.value, [], s⟩

/-- What follows a value of no concern is shorter than the text. -/
theorem length_lt_of_passValue {s rest : List Char} (h : passValue s = .ok rest) :
    rest.length < s.length := by
  unfold passValue Passing.finish at h
  split at h
  · simp at h
  · next hn =>
    obtain ⟨q, _, hq⟩ := map_eq_ok_iff.1 hn
    simp at hq
  · next q hn =>
    obtain ⟨r, hr, hq⟩ := map_eq_ok_iff.1 hn
    cases hq
    have used : _ < 2 * s.length := Passing.weight_lt_of_value hr
    have := Passing.length_le_of_finish h
    omega

end Redraw.Json
