import Redraw.Json.Reader
import Redraw.Json.Writer
import Redraw.Proofs.Json.Number
import Redraw.Proofs.Json.Quoted

/-!
# Values read back

A reader takes a text for a value when, whatever follows the text, it gives the value and leaves
what follows. Numbers ask for one thing more: that what follows does not go on with them. Readers of
numbers and strings take what is written for their values, and so does a reader of lists when the
reader of its items does.
-/

namespace Redraw.Json

variable {α β : Type}

/-- The written form of a value begins: neither with a blank, nor as the end of a list does. -/
def StartsValue (s : List Char) : Prop :=
  ∃ c cs, s = c :: cs ∧ isBlank c = false ∧ c ≠ ']'

/-- No blanks are in front of a value. -/
theorem StartsValue.afterBlanks {text : List Char} (h : StartsValue text) (rest : List Char) :
    afterBlanks (text ++ rest) = text ++ rest := by
  obtain ⟨c, cs, rfl, hblank, _⟩ := h
  exact List.dropWhile_cons_of_neg (by rw [hblank]; exact Bool.false_ne_true)

/-- A value is not the end of a list. -/
theorem StartsValue.head?_ne {text : List Char} (h : StartsValue text) (rest : List Char) :
    (text ++ rest).head? ≠ some ']' := by
  obtain ⟨c, cs, rfl, _, hbracket⟩ := h
  exact fun heq => hbracket (Option.some.inj heq)

/-- A written number starts with a digit. -/
theorem startsValue_digits (n : Nat) : StartsValue (Numeral.digits n) := by
  obtain ⟨c, ds, hds, hc⟩ := Numeral.exists_digits_eq_cons n
  have hrange := Char.isDigit_iff_toNat.mp hc
  have hne : ∀ d : Char, ¬ (48 ≤ d.toNat ∧ d.toNat ≤ 57) → c ≠ d := by
    rintro d hd rfl
    exact hd hrange
  refine ⟨c, ds, hds, ?_, hne ']' (by decide)⟩
  simp only [isBlank, Bool.or_eq_false_iff, beq_eq_false_iff_ne]
  exact ⟨⟨⟨hne ' ' (by decide), hne '\n' (by decide)⟩, hne '\t' (by decide)⟩,
    hne '\r' (by decide)⟩

/-- Whatever comes behind the text, the reader takes it for the value and leaves what comes behind.
A number must not go on there. -/
structure Reader.Takes (r : Reader α) (text : List Char) (value : α) : Prop where
  /-- The text begins as values do. -/
  starts : StartsValue text
  /-- The value is read off the text. -/
  read : ∀ {rest : List Char}, StopsNumber rest → r.read (text ++ rest) = .ok (value, rest)

/-- Parts with commas between them: the first one, and each of the others behind a comma. -/
theorem intercalate_comma (part : List Char) (parts : List (List Char)) :
    List.intercalate [','] (part :: parts) = part ++ parts.flatMap (',' :: ·) := by
  induction parts generalizing part with
  | nil => rw [List.intercalate_singleton, List.flatMap_nil, List.append_nil]
  | cons next parts ih =>
    rw [List.intercalate_cons_cons, ih, List.flatMap_cons, List.append_assoc,
      List.singleton_append, List.cons_append]

namespace Reader

/-- A value that is read where blanks may stand in front is read where none do. -/
theorem takes_blankable {r : Reader α} {text : List Char} {value : α} (h : r.Takes text value) :
    (blankable r).Takes text value where
  starts := h.starts
  read hrest := (congrArg r.read (h.starts.afterBlanks _)).trans (h.read hrest)

theorem Takes.map {r : Reader α} {text : List Char} {value : α} (h : r.Takes text value)
    (f : α → β) : (r.map f).Takes text (f value) where
  starts := h.starts
  read hrest := by
    change (r.read _).map _ = _
    rw [h.read hrest]
    rfl

/-- A text that is taken for a value stands for it as a whole. -/
theorem Takes.whole {r : Reader α} {text : List Char} {value : α} (h : r.Takes text value) :
    r.whole (String.ofList text) = .ok value := by
  have hread := h.read stopsNumber_nil
  rw [List.append_nil] at hread
  rw [Reader.whole, String.toList_ofList, hread]
  rfl

/-- An integer below the limit of reading is taken. -/
theorem takes_below {limit n : Nat} (expected : String) (hlimit : limit ≤ UInt64.size)
    (h : n < limit) : (below limit expected).Takes (Numeral.digits n) n := by
  refine takes_blankable ⟨startsValue_digits n, fun {rest} hrest => ?_⟩
  obtain ⟨c, ds, hds, hc⟩ := Numeral.exists_digits_eq_cons n
  have hstart : (Numeral.digits n ++ rest).head?.any startsNumber = true := by
    rw [hds, List.cons_append, List.head?_cons, Option.any_some, startsNumber, hc, Bool.or_true]
  have hnumber := number_digits (Nat.lt_of_lt_of_le h hlimit) hrest
  have haccept : acceptBelow limit expected (.integer n) = .ok n := if_pos h
  simp only [readBelow, hstart, if_true, hnumber, haccept, bind, Except.bind, pure, Except.pure]

/-- A word is taken. -/
theorem takes_word (w : UInt64) : word.Takes (Numeral.digits w.toNat) w := by
  have h := (takes_below "u64" (Nat.le_refl _) w.toNat_lt).map UInt64.ofNat
  rwa [UInt64.ofNat_toNat] at h

theorem takes_size (w : UInt64) : size.Takes (Numeral.digits w.toNat) w := by
  have h := (takes_below "usize" (Nat.le_refl _) w.toNat_lt).map UInt64.ofNat
  rwa [UInt64.ofNat_toNat] at h

theorem takes_halfWord (w : UInt32) : halfWord.Takes (Numeral.digits w.toNat) w := by
  have h := (takes_below "u32" (by decide) w.toNat_lt).map UInt32.ofNat
  rwa [UInt32.ofNat_toNat] at h

/-- A string is taken, quotes and escapes included. -/
theorem takes_string (text : String) : string.Takes (quote text.toList) text := by
  refine takes_blankable ⟨⟨'"', _, rfl, by decide, by decide⟩, fun {rest} _ => ?_⟩
  have hquoted : quote text.toList ++ rest =
      '"' :: (text.toList.flatMap quoteChar ++ '"' :: rest) := by
    simp only [quote, List.cons_append, List.append_assoc, List.nil_append]
  have hread : readString (quote text.toList ++ rest) = .ok (text, rest) := by
    rw [hquoted, readString, unquote_flatMap_quoteChar]
    exact congrArg (fun s => Except.ok (s, rest)) String.ofList_toList
  exact hread

/-- A value behind a comma is the next item of a list. -/
theorem item_comma {text : List Char} (h : StartsValue text) (rest : List Char) :
    item false (',' :: (text ++ rest)) = .ok (.value (text ++ rest)) := by
  have hnext : nextItem (',' :: (text ++ rest)) =
      if (afterBlanks (text ++ rest)).head? = some ']' then .error .trailingComma
      else .ok (.value (text ++ rest)) := rfl
  rw [h.afterBlanks, if_neg (h.head?_ne rest)] at hnext
  exact hnext

/-- A value behind the opening bracket is the first item of a list. -/
theorem item_first {text : List Char} (h : StartsValue text) (rest : List Char) :
    item true (text ++ rest) = .ok (.value (text ++ rest)) := by
  change firstItem (text ++ rest) = _
  unfold firstItem
  rw [h.afterBlanks]
  obtain ⟨c, cs, rfl, _, hbracket⟩ := h
  split
  · rename_i heq
    exact absurd (List.cons.inj heq).1 hbracket
  · rename_i heq
    cases heq
  · rfl

/-- At the end of a list its items are all read. -/
theorem items_of_done {r : Reader α} {isFirst : Bool} {taken : List α} {s rest : List Char}
    (h : item isFirst s = .ok (.done rest)) :
    items r isFirst taken s = .ok (taken.reverse, rest) := by
  rw [items]
  split <;> rename_i heq <;> rw [h] at heq <;> cases heq
  rfl

/-- Behind an item the rest of the list is read. -/
theorem items_of_value {r : Reader α} {isFirst : Bool} {taken : List α} {s t rest : List Char}
    {a : α} (h : item isFirst s = .ok (.value t)) (hread : r.read t = .ok (a, rest)) :
    items r isFirst taken s = items r false (a :: taken) rest := by
  rw [items]
  split <;> rename_i heq <;> rw [h] at heq <;> cases heq
  split <;> rename_i heq <;> rw [hread] at heq <;> cases heq
  rfl

/-- No number goes on with a comma, nor with the end of a list. -/
theorem stopsNumber_commas {write : α → List Char} (values : List α) (rest : List Char) :
    StopsNumber (values.flatMap (fun a => ',' :: write a) ++ ']' :: rest) := by
  cases values with
  | nil => exact stopsNumber_cons rest (by decide)
  | cons a values => exact stopsNumber_cons _ (by decide)

/-- The items of a list are read, each behind a comma. -/
theorem items_commas {r : Reader α} {write : α → List Char} {values : List α}
    (h : ∀ a ∈ values, r.Takes (write a) a) (taken : List α) (rest : List Char) :
    items r false taken (values.flatMap (fun a => ',' :: write a) ++ ']' :: rest) =
      .ok (taken.reverse ++ values, rest) := by
  induction values generalizing taken with
  | nil =>
    rw [List.append_nil]
    exact items_of_done rfl
  | cons a values ih =>
    obtain ⟨ha, hvalues⟩ := List.forall_mem_cons.mp h
    rw [List.flatMap_cons, List.cons_append, List.cons_append, List.append_assoc]
    rw [items_of_value (item_comma ha.starts _) (ha.read (stopsNumber_commas values rest)),
      ih hvalues, List.reverse_cons, List.append_assoc, List.singleton_append]

/-- A list is taken when its items are. -/
theorem takes_list {r : Reader α} {write : α → List Char} {values : List α}
    (h : ∀ a ∈ values, r.Takes (write a) a) :
    r.list.Takes (Json.list (values.map write)) values := by
  refine takes_blankable ⟨⟨'[', _, rfl, by decide, by decide⟩, fun {rest} _ => ?_⟩
  change items r true [] (_ ++ rest) = _
  cases values with
  | nil => exact items_of_done rfl
  | cons a values =>
    obtain ⟨ha, hvalues⟩ := List.forall_mem_cons.mp h
    have hlist : List.intercalate [','] ((a :: values).map write) ++ [']'] ++ rest =
        write a ++ (values.flatMap (fun a => ',' :: write a) ++ ']' :: rest) := by
      rw [List.map_cons, intercalate_comma, List.flatMap_map, List.append_assoc,
        List.append_assoc]
      rfl
    rw [hlist, items_of_value (item_first ha.starts _) (ha.read (stopsNumber_commas values rest)),
      items_commas hvalues]
    rfl

end Reader

end Redraw.Json
