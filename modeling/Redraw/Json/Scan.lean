import Redraw.Json.Fault

/-!
# Blanks, words and colons

The smallest parts of a JSON text, and the lemmas that say what reading them leaves.
-/

namespace Redraw.Json

/-- A mapped result is a value exactly when it is the image of one. -/
theorem map_eq_ok_iff {ε α β : Type} {f : α → β} {x : Except ε α} {b : β} :
    x.map f = .ok b ↔ ∃ a, x = .ok a ∧ f a = b := by
  cases x <;> simp [Except.map]

/-- Whether a character may stand between the parts of a text. -/
def isBlank (c : Char) : Bool :=
  c == ' ' || c == '\n' || c == '\t' || c == '\r'

/-- The text from its first character on that is no blank. -/
def afterBlanks (s : List Char) : List Char :=
  s.dropWhile isBlank

/-- Dropping blanks makes no text longer. -/
theorem length_afterBlanks_le (s : List Char) : (afterBlanks s).length ≤ s.length :=
  (List.dropWhile_sublist isBlank).length_le

/-- What follows the given letters, when the text starts with them. -/
def word : (letters s : List Char) → Except Fault (List Char)
  | [], s => .ok s
  | _ :: _, [] => .error .endInValue
  | letter :: letters, c :: s => if c = letter then word letters s else .error .unknownWord

/-- What follows the letters of a word is no longer than the text. -/
theorem length_le_of_word {letters s rest : List Char} (h : word letters s = .ok rest) :
    rest.length ≤ s.length := by
  fun_induction word letters s with
  | case1 => simp_all
  | case2 => simp at h
  | case3 _ _ _ ih => exact Nat.le_succ_of_le (ih h)
  | case4 => simp at h

/-- The letters of a word after its first one, when a word starts with it. -/
def wordAfter? : Char → Option (List Char)
  | 'n' => some ['u', 'l', 'l']
  | 't' => some ['r', 'u', 'e']
  | 'f' => some ['a', 'l', 's', 'e']
  | _ => none

/-- Whether a number starts with a character. -/
def startsNumber (c : Char) : Bool :=
  c == '-' || c.isDigit

/-- What follows the colon after a key. -/
def afterColon (s : List Char) : Except Fault (List Char) :=
  match afterBlanks s with
  | ':' :: s => .ok s
  | [] => .error .endInObject
  | _ => .error .noColon

/-- What follows a colon is shorter than the text. -/
theorem length_lt_of_afterColon {s rest : List Char} (h : afterColon s = .ok rest) :
    rest.length < s.length := by
  have blanks := length_afterBlanks_le s
  unfold afterColon at h
  split at h
  · next hs =>
    cases h
    simp only [hs, List.length_cons] at blanks
    omega
  · simp at h
  · simp at h

end Redraw.Json
