import Redraw.Json.Record
import Redraw.Proofs.Json.Reading

/-!
# Records read back

A record is written as an object. Its members are read one after the other into a draft, each of
them as the field of its name; when the draft that they fill is complete, the object is taken for
the record. Which records these are is up to the layout.
-/

namespace Redraw.Json.Layout

variable {δ α : Type} {layout : Layout δ α}

/-- Written members fill a draft, one after the other: each is of a field that the draft does not
have yet, and its text is taken by the field's reader. -/
inductive Fills (layout : Layout δ α) : δ → List (List Char) → δ → Prop where
  /-- No members leave the draft as it is. -/
  | nil {draft : δ} : Fills layout draft [] draft
  /-- A member puts its value into the draft. -/
  | cons {draft filled : δ} {field : Field δ} {name : String} {text : List Char} {put : δ → δ}
      {members : List (List Char)}
      (hfield : layout.fields.find? (fun field => field.name.toList == name.toList) = some field)
      (hnew : field.isFilled draft = false) (htext : field.fill.Takes text put)
      (hrest : Fills layout (put draft) members filled) :
    Fills layout draft (Json.member name text :: members) filled

/-- Behind its opening quote a member is its name, a colon and its value. -/
theorem member_eq_cons (name : String) (text : List Char) : Json.member name text =
    '"' :: (name.toList.flatMap quoteChar ++ '"' :: ':' :: text) := by
  simp only [Json.member, quote, List.cons_append, List.append_assoc, List.nil_append]

/-- A member is read into the draft as the field of its name. -/
theorem member_written {draft : δ} {field : Field δ} {name : String} {text : List Char}
    {put : δ → δ}
    (hfield : layout.fields.find? (fun field => field.name.toList == name.toList) = some field)
    (hnew : field.isFilled draft = false) (htext : field.fill.Takes text put) {rest : List Char}
    (hrest : StopsNumber rest) :
    layout.member draft (name.toList.flatMap quoteChar ++ '"' :: ':' :: (text ++ rest)) =
      .ok (put draft, rest) := by
  have hcolon : afterColon (':' :: (text ++ rest)) = .ok (text ++ rest) := rfl
  simp only [Layout.member, unquote_flatMap_quoteChar, List.reverse_nil, List.nil_append, hfield,
    hnew, Bool.false_eq_true, if_false, hcolon, htext.read hrest, bind, Except.bind, pure,
    Except.pure]

/-- At the end of an object the draft is completed. -/
theorem members_of_done {isFirst : Bool} {draft : δ} {s rest : List Char}
    (h : entry isFirst s = .ok (.done rest)) :
    layout.members isFirst draft s = (layout.complete .missingField draft).map (·, rest) := by
  rw [members]
  split <;> rename_i heq <;> rw [h] at heq <;> cases heq
  rfl

/-- Behind a member the rest of the object is read. -/
theorem members_of_key {isFirst : Bool} {draft draft' : δ} {s t rest : List Char}
    (h : entry isFirst s = .ok (.key t)) (hmember : layout.member draft t = .ok (draft', rest)) :
    layout.members isFirst draft s = layout.members false draft' rest := by
  rw [members]
  split <;> rename_i heq <;> rw [h] at heq <;> cases heq
  split <;> rename_i heq <;> rw [hmember] at heq <;> cases heq
  rfl

/-- No number goes on with a comma, nor with the end of an object. -/
theorem stopsNumber_members (members : List (List Char)) (rest : List Char) :
    StopsNumber (members.flatMap (',' :: ·) ++ '\x7d' :: rest) := by
  cases members with
  | nil => exact stopsNumber_cons rest (by decide)
  | cons m members => exact stopsNumber_cons _ (by decide)

/-- The members of an object are read, each behind a comma. -/
theorem members_commas {draft filled : δ} {members : List (List Char)} {record : α}
    (h : layout.Fills draft members filled)
    (hcomplete : layout.complete .missingField filled = .ok record) (rest : List Char) :
    layout.members false draft (members.flatMap (',' :: ·) ++ '\x7d' :: rest) =
      .ok (record, rest) := by
  induction h with
  | nil =>
    rw [members_of_done rfl, hcomplete]
    rfl
  | cons hfield hnew htext _ ih =>
    rw [List.flatMap_cons, member_eq_cons]
    simp only [List.cons_append, List.append_assoc]
    rw [members_of_key rfl (member_written hfield hnew htext (stopsNumber_members _ rest)),
      ih hcomplete]

/-- An object is taken for the record that its members make. -/
theorem takes_object {filled : δ} {members : List (List Char)} {record : α}
    (h : layout.Fills layout.blank members filled)
    (hcomplete : layout.complete .missingField filled = .ok record) :
    layout.reader.Takes (object members) record := by
  refine Reader.takes_blankable ⟨⟨'\x7b', _, rfl, by decide, by decide⟩, fun {rest} _ => ?_⟩
  change layout.members true layout.blank (_ ++ rest) = _
  cases h with
  | nil =>
    rw [members_of_done rfl, hcomplete]
    rfl
  | cons hfield hnew htext hmembers =>
    rw [intercalate_comma, member_eq_cons]
    simp only [List.cons_append, List.append_assoc, List.nil_append]
    rw [members_of_key rfl (member_written hfield hnew htext (stopsNumber_members _ rest)),
      members_commas hmembers hcomplete]

end Redraw.Json.Layout
