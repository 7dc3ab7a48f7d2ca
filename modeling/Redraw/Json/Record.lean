import Redraw.Json.Reader

/-!
# Reading JSON records

A record has named fields in a fixed order. It may be written as an object, whose members may come
in any order, or as a list of the fields' values in their order. Fields are collected in a draft,
which is completed to a record at the end. A closed record has no members but its fields; an open
one passes over any others.
-/

namespace Redraw.Json

/-- A field of a record that is collected in drafts of type `δ`. -/
structure Field (δ : Type) where
  /-- The name of the field. -/
  name : String
  /-- Whether a draft has the field already. -/
  isFilled : δ → Bool
  /-- Reads the field's value and says how it is put into a draft. -/
  fill : Reader (δ → δ)

/-- How records of type `α` are read by way of drafts of type `δ`. -/
structure Layout (δ α : Type) where
  /-- What messages call the record. -/
  title : String
  /-- The fields in their order. -/
  fields : List (Field δ)
  /-- Whether members other than the fields are refused. -/
  closed : Bool
  /-- The draft that has no field yet. -/
  blank : δ
  /-- The record that a draft stands for, or the fault for the name of a field that it lacks. -/
  complete : (String → Fault) → δ → Except Fault α

/-- What comes next in an object. -/
inductive Entry where
  /-- The end; this follows it. -/
  | done (rest : List Char)
  /-- A key; this follows its opening quote. -/
  | key (s : List Char)

/-- What is left of the text after an entry. -/
def Entry.left : Entry → List Char
  | done rest => rest
  | key s => s

/-- The entry after the opening bracket of an object. -/
def firstEntry (s : List Char) : Except Fault Entry :=
  match afterBlanks s with
  | '\x7d' :: rest => .ok (.done rest)
  | '"' :: rest => .ok (.key rest)
  | [] => .error .endInObject
  | _ => .error .keyNotString

/-- The entry after a member of an object. -/
def nextEntry (s : List Char) : Except Fault Entry :=
  match afterBlanks s with
  | '\x7d' :: rest => .ok (.done rest)
  | ',' :: rest =>
    match afterBlanks rest with
    | '"' :: rest => .ok (.key rest)
    | '\x7d' :: _ => .error .trailingComma
    | [] => .error .endInValue
    | _ => .error .keyNotString
  | [] => .error .endInObject
  | _ => .error .noCommaInObject

/-- The next entry of an object, from after its opening bracket or after a member on. -/
def entry (isFirst : Bool) (s : List Char) : Except Fault Entry :=
  if isFirst then firstEntry s else nextEntry s

/-- What follows an entry is shorter than the text. -/
theorem length_lt_of_entry {isFirst : Bool} {s : List Char} {e : Entry}
    (h : entry isFirst s = .ok e) : e.left.length < s.length := by
  have blanks := length_afterBlanks_le s
  unfold entry at h
  split at h
  · unfold firstEntry at h
    split at h
    case h_1 hs | h_2 hs =>
      cases h
      simp only [hs, List.length_cons] at blanks
      simp only [Entry.left]
      omega
    all_goals simp at h
  · unfold nextEntry at h
    split at h
    case h_1 hs =>
      cases h
      simp only [hs, List.length_cons] at blanks
      simp only [Entry.left]
      omega
    case h_2 rest hs =>
      have more := length_afterBlanks_le rest
      simp only [hs, List.length_cons] at blanks
      split at h
      case h_1 hr =>
        cases h
        simp only [hr, List.length_cons] at more
        simp only [Entry.left]
        omega
      all_goals simp at h
    all_goals simp at h

/-- What follows the end of a list of which all items are read. -/
def afterItems (s : List Char) : Except Fault (List Char) :=
  match afterBlanks s with
  | ']' :: rest => .ok rest
  | ',' :: rest =>
    .error (if (afterBlanks rest).head? = some ']' then .trailingComma else .trailingCharacters)
  | [] => .error .endInList
  | _ => .error .trailingCharacters

/-- What follows the end of a list is shorter than the text. -/
theorem length_lt_of_afterItems {s rest : List Char} (h : afterItems s = .ok rest) :
    rest.length < s.length := by
  have blanks := length_afterBlanks_le s
  unfold afterItems at h
  split at h
  case h_1 hs =>
    cases h
    simp only [hs, List.length_cons] at blanks
    omega
  all_goals simp at h

namespace Layout

variable {δ α : Type} (layout : Layout δ α)

/-- The names of the fields, as messages list them. -/
def fieldNames : String :=
  ", ".intercalate (layout.fields.map fun field => s!"`{field.name}`")

/-- How messages name the record where another type is found. -/
def kind : String :=
  s!"struct {layout.title}"

/-- How messages name the record where a list is too short. -/
def kindWithLength : String :=
  let n := layout.fields.length
  s!"struct {layout.title} with {n} " ++ if n = 1 then "element" else "elements"

/-- Reads a member of an object into a draft, from after the opening quote of its key on. A field
that is there twice and a member that is no field are refused before their values are looked
at. -/
def member (draft : δ) (s : List Char) : Except Fault (δ × List Char) := do
  let (key, s) ← unquote [] s
  match layout.fields.find? fun field => field.name.toList == key with
  | some field =>
    if field.isFilled draft then throw (.duplicateField field.name)
    let s ← afterColon s
    let (put, s) ← field.fill.read s
    return (put draft, s)
  | none =>
    if layout.closed then throw (.unknownField (String.ofList key) layout.fieldNames)
    let s ← afterColon s
    return (draft, ← passValue s)

/-- What follows a member is shorter than the text. -/
theorem length_lt_of_member {draft draft' : δ} {s rest : List Char}
    (h : layout.member draft s = .ok (draft', rest)) : rest.length < s.length := by
  simp only [member, bind, Except.bind, pure, Except.pure, throw, throwThe,
    MonadExceptOf.throw] at h
  split at h
  · simp at h
  · next hk =>
    have := length_lt_of_unquote hk
    split at h
    · split at h
      · simp at h
      · split at h
        · simp at h
        · next hc =>
          have := length_lt_of_afterColon hc
          split at h
          · simp at h
          · next field _ _ _ _ _ _ hr =>
            have := field.fill.length_lt hr
            cases h
            omega
    · split at h
      · simp at h
      · split at h
        · simp at h
        · next hc =>
          have := length_lt_of_afterColon hc
          split at h
          · simp at h
          · next hp =>
            have := length_lt_of_passValue hp
            cases h
            omega

/-- Reads the members of an object into a draft, and completes the draft at its end. -/
def members (isFirst : Bool) (draft : δ) (s : List Char) : Except Fault (α × List Char) :=
  match he : entry isFirst s with
  | .error fault => .error fault
  | .ok (.done rest) => (layout.complete .missingField draft).map (·, rest)
  | .ok (.key t) =>
    match hm : layout.member draft t with
    | .error fault => .error fault
    | .ok (draft, rest) =>
      have : t.length < s.length := length_lt_of_entry he
      have := layout.length_lt_of_member hm
      members false draft rest
termination_by s.length

/-- Reads the fields that remain from a list, after the first `n` ones. -/
def inOrder : (n : Nat) → List (Field δ) → δ → List Char → Except Fault (α × List Char)
  | _, [], draft, s =>
    match afterItems s with
    | .error fault => .error fault
    | .ok rest => (layout.complete .missingField draft).map (·, rest)
  | n, field :: fields, draft, s =>
    match item (n == 0) s with
    | .error fault => .error fault
    | .ok (.done rest) =>
      (layout.complete (fun _ => .wrongLength n layout.kindWithLength) draft).map (·, rest)
    | .ok (.value t) =>
      match field.fill.read t with
      | .error fault => .error fault
      | .ok (put, rest) => inOrder (n + 1) fields (put draft) rest

/-- What follows the members of an object is shorter than the text. -/
theorem length_lt_of_members {isFirst : Bool} {draft : δ} {s rest : List Char} {a : α}
    (h : layout.members isFirst draft s = .ok (a, rest)) : rest.length < s.length := by
  fun_induction members layout isFirst draft s with
  | case1 => simp at h
  | case2 _ _ _ _ he =>
    obtain ⟨_, _, hr⟩ := map_eq_ok_iff.1 h
    cases hr
    exact length_lt_of_entry he
  | case3 => simp at h
  | case4 _ _ s t he _ _ hm _ _ ih =>
    have : t.length < s.length := length_lt_of_entry he
    have := layout.length_lt_of_member hm
    have := ih h
    omega

/-- What follows the fields in a list is shorter than the text. -/
theorem length_lt_of_inOrder {n : Nat} {fields : List (Field δ)} {draft : δ}
    {s rest : List Char} {a : α} (h : layout.inOrder n fields draft s = .ok (a, rest)) :
    rest.length < s.length := by
  fun_induction inOrder layout n fields draft s with
  | case1 => simp at h
  | case2 _ _ _ _ hr =>
    obtain ⟨_, _, he⟩ := map_eq_ok_iff.1 h
    cases he
    exact length_lt_of_afterItems hr
  | case3 => simp at h
  | case4 _ _ _ _ _ _ hi =>
    obtain ⟨_, _, he⟩ := map_eq_ok_iff.1 h
    cases he
    exact length_lt_of_item_done hi
  | case5 => simp at h
  | case6 n field fields _ s t hi _ _ hr ih =>
    have := length_le_of_item_value hi
    have := field.fill.length_lt hr
    have := ih h
    omega

/-- Reads a record. -/
def reader : Reader α :=
  Reader.blankable {
    read := fun
      | '\x7b' :: s => layout.members true layout.blank s
      | '[' :: s => layout.inOrder 0 layout.fields layout.blank s
      | s => .error (refuse layout.kind s)
    length_lt := by
      intro s a rest h
      split at h
      · exact Nat.lt_succ_of_lt (layout.length_lt_of_members h)
      · exact Nat.lt_succ_of_lt (layout.length_lt_of_inOrder h)
      · simp at h }

end Layout

end Redraw.Json
