import Redraw.Json.Passing

/-!
# Reading JSON values

A reader takes a value of one type from the front of a text. It knows what it reads, so that a
value of another type is refused where it starts. Every reader uses up some of the text.
-/

namespace Redraw.Json

/-- A way to take a value from the front of a text. -/
structure Reader (α : Type) where
  /-- The value at the front of a text, and what follows it. -/
  read : List Char → Except Fault (α × List Char)
  /-- What follows a value is shorter than the text. -/
  length_lt : ∀ {s a rest}, read s = .ok (a, rest) → rest.length < s.length

/-- What starts at the front of a text. Lists and objects are not entered. -/
def found : List Char → Except Fault Found
  | [] => .error .endInValue
  | c :: s =>
    if c = '"' then (unquote [] s).map fun (cs, _) => .string (String.ofList cs)
    else if c = '[' then .ok .sequence
    else if c = '\x7b' then .ok .map
    else if startsNumber c then (number (c :: s)).map fun (n, _) => n.found
    else match wordAfter? c with
      | none => .error .noValue
      | some letters => (word letters s).map fun _ =>
          if c = 'n' then .null else .boolean (c == 't')

/-- Refuses what starts at the front of a text. A fault inside it is reported first. -/
def refuse (expected : String) (s : List Char) : Fault :=
  match found s with
  | .ok what => .wrongType what expected
  | .error fault => fault

/-- Accepts an integer from zero to below a limit. -/
def acceptBelow (limit : Nat) (expected : String) : Number → Except Fault Nat
  | .integer (.ofNat n) =>
    if n < limit then .ok n else .error (.wrongValue (.integer n) expected)
  | .integer n => .error (.wrongValue (.integer n) expected)
  | .float x => .error (.wrongType (.float x) expected)

/-- Reads an integer below a limit, where the text starts with it. -/
def readBelow (limit : Nat) (expected : String) (s : List Char) :
    Except Fault (Nat × List Char) :=
  if s.head?.any startsNumber then do
    let (n, rest) ← number s
    return (← acceptBelow limit expected n, rest)
  else .error (refuse expected s)

/-- Reads a string, where the text starts with it. -/
def readString : List Char → Except Fault (String × List Char)
  | '"' :: s => (unquote [] s).map fun (cs, rest) => (String.ofList cs, rest)
  | s => .error (refuse "a string" s)

/-- What comes next in a list. -/
inductive Item where
  /-- The end; this follows it. -/
  | done (rest : List Char)
  /-- An item, which starts here. -/
  | value (s : List Char)

/-- The item after the opening bracket of a list. -/
def firstItem (s : List Char) : Except Fault Item :=
  match afterBlanks s with
  | ']' :: rest => .ok (.done rest)
  | [] => .error .endInList
  | _ => .ok (.value s)

/-- The item after another one of a list. -/
def nextItem (s : List Char) : Except Fault Item :=
  match afterBlanks s with
  | ']' :: rest => .ok (.done rest)
  | ',' :: rest =>
    if (afterBlanks rest).head? = some ']' then .error .trailingComma else .ok (.value rest)
  | [] => .error .endInList
  | _ => .error .noCommaInList

/-- The next item of a list, from after its opening bracket or after an item on. -/
def item (isFirst : Bool) (s : List Char) : Except Fault Item :=
  if isFirst then firstItem s else nextItem s

/-- What follows the end of a list is shorter than the text. -/
theorem length_lt_of_item_done {isFirst : Bool} {s rest : List Char}
    (h : item isFirst s = .ok (.done rest)) : rest.length < s.length := by
  have blanks := length_afterBlanks_le s
  unfold item at h
  split at h
  · unfold firstItem at h
    split at h
    case h_1 hs =>
      cases h
      simp only [hs, List.length_cons] at blanks
      omega
    all_goals simp at h
  · unfold nextItem at h
    split at h
    case h_1 hs =>
      cases h
      simp only [hs, List.length_cons] at blanks
      omega
    case h_2 => split at h <;> simp at h
    all_goals simp at h

/-- An item starts no earlier than the text. -/
theorem length_le_of_item_value {isFirst : Bool} {s t : List Char}
    (h : item isFirst s = .ok (.value t)) : t.length ≤ s.length := by
  have blanks := length_afterBlanks_le s
  unfold item at h
  split at h
  · unfold firstItem at h
    split at h <;> simp_all
  · unfold nextItem at h
    split at h
    case h_2 hs =>
      split at h
      · simp at h
      · cases h
        simp only [hs, List.length_cons] at blanks
        omega
    all_goals simp at h

namespace Reader

/-- Lets blanks stand in front of a value. -/
def blankable {α : Type} (r : Reader α) : Reader α where
  read s := r.read (afterBlanks s)
  length_lt h := Nat.lt_of_lt_of_le (r.length_lt h) (length_afterBlanks_le _)

/-- Maps the values that are read. -/
def map {α β : Type} (f : α → β) (r : Reader α) : Reader β where
  read s := (r.read s).map fun (a, rest) => (f a, rest)
  length_lt h := by
    obtain ⟨⟨a, rest⟩, hr, he⟩ := map_eq_ok_iff.1 h
    cases he
    exact r.length_lt hr

/-- Reads an integer below a limit. -/
def below (limit : Nat) (expected : String) : Reader Nat :=
  blankable {
    read := readBelow limit expected
    length_lt := by
      intro s a rest h
      unfold readBelow at h
      split at h
      · simp only [bind, Except.bind, pure, Except.pure] at h
        split at h
        · simp at h
        · next hn =>
          split at h
          · simp at h
          · cases h
            exact length_lt_of_number hn
      · simp at h }

/-- Reads a 64-bit word. -/
def word : Reader UInt64 :=
  (below UInt64.size "u64").map UInt64.ofNat

/-- Reads a 64-bit word that counts or places something. -/
def size : Reader UInt64 :=
  (below UInt64.size "usize").map UInt64.ofNat

/-- Reads a 32-bit word. -/
def halfWord : Reader UInt32 :=
  (below UInt32.size "u32").map UInt32.ofNat

/-- Reads a string. -/
def string : Reader String :=
  blankable {
    read := readString
    length_lt := by
      intro s a rest h
      unfold readString at h
      split at h
      · obtain ⟨⟨cs, r⟩, hr, he⟩ := map_eq_ok_iff.1 h
        cases he
        exact Nat.lt_succ_of_lt (length_lt_of_unquote hr)
      · simp at h }

/-- Reads a value or the word for none. -/
def optional {α : Type} (r : Reader α) : Reader (Option α) :=
  blankable {
    read := fun
      | 'n' :: s => (Json.word ['u', 'l', 'l'] s).map fun rest => (none, rest)
      | s => (r.read s).map fun (a, rest) => (some a, rest)
    length_lt := by
      intro s a rest h
      split at h
      · obtain ⟨r, hr, he⟩ := map_eq_ok_iff.1 h
        cases he
        exact Nat.lt_succ_of_le (length_le_of_word hr)
      · obtain ⟨⟨b, t⟩, hr, he⟩ := map_eq_ok_iff.1 h
        cases he
        exact r.length_lt hr }

/-- Reads the items of a list. The items already read are given last to first. -/
def items {α : Type} (r : Reader α) (isFirst : Bool) (taken : List α) (s : List Char) :
    Except Fault (List α × List Char) :=
  match hi : item isFirst s with
  | .error fault => .error fault
  | .ok (.done rest) => .ok (taken.reverse, rest)
  | .ok (.value t) =>
    match hr : r.read t with
    | .error fault => .error fault
    | .ok (a, rest) =>
      have := length_le_of_item_value hi
      have := r.length_lt hr
      items r false (a :: taken) rest
termination_by s.length

/-- What follows the items of a list is shorter than the text. -/
theorem length_lt_of_items {α : Type} {r : Reader α} {isFirst : Bool} {taken as : List α}
    {s rest : List Char} (h : items r isFirst taken s = .ok (as, rest)) :
    rest.length < s.length := by
  fun_induction items r isFirst taken s with
  | case1 => simp at h
  | case2 _ _ _ _ hi =>
    cases h
    exact length_lt_of_item_done hi
  | case3 => simp at h
  | case4 _ _ _ _ hi _ _ hr _ _ ih =>
    have := length_le_of_item_value hi
    have := r.length_lt hr
    have := ih h
    omega

/-- Reads a list. -/
def list {α : Type} (r : Reader α) : Reader (List α) :=
  blankable {
    read := fun
      | '[' :: s => items r true [] s
      | s => .error (refuse "a sequence" s)
    length_lt := by
      intro s as rest h
      split at h
      · exact Nat.lt_succ_of_lt (length_lt_of_items h)
      · simp at h }

/-- The value that a whole text stands for. Only blanks may follow it. -/
def whole {α : Type} (r : Reader α) (text : String) : Except Fault α :=
  match r.read text.toList with
  | .error fault => .error fault
  | .ok (a, rest) => if (afterBlanks rest).isEmpty then .ok a else .error .trailingCharacters

end Reader

end Redraw.Json
