import Mathlib.Data.List.TakeWhile
import Redraw.Proofs.Json.Passing
import Redraw.Proofs.Json.Record

/-!
# Values that say where they end

Strings, lists and records end with a character of their own, so that nothing that follows can
change what is read for them: their readers are delimited. The reader of a number is only steady:
what is read stays the same once something follows the number. In lists and records something always
does, so that steady readers for the parts are enough for the whole to be delimited.
-/

namespace Redraw.Json

variable {α β : Type}

/-- What is read off a text is read off any longer one, as long as something follows it in the
shorter one. -/
structure Reader.Steady (r : Reader α) : Prop where
  /-- Blanks are no value. -/
  afterBlanks_ne_nil : ∀ {s rest : List Char} {a : α}, r.read s = .ok (a, rest) →
    afterBlanks s ≠ []
  /-- More text behind makes no difference. -/
  read_append : ∀ {s rest : List Char} {a : α}, r.read s = .ok (a, rest) → rest ≠ [] →
    ∀ more, r.read (s ++ more) = .ok (a, rest ++ more)

/-- What is read off a text is read off any longer one, even if nothing follows it in the shorter
one. -/
structure Reader.Delimited (r : Reader α) : Prop where
  /-- Blanks are no value. -/
  afterBlanks_ne_nil : ∀ {s rest : List Char} {a : α}, r.read s = .ok (a, rest) →
    afterBlanks s ≠ []
  /-- More text behind makes no difference. -/
  read_append : ∀ {s rest : List Char} {a : α}, r.read s = .ok (a, rest) →
    ∀ more, r.read (s ++ more) = .ok (a, rest ++ more)

variable {s t rest : List Char}

/-! ## Items and entries -/

/-- The end of a list is that of the shorter text. -/
theorem item_append_of_done {isFirst : Bool} (h : item isFirst s = .ok (.done rest))
    (more : List Char) : item isFirst (s ++ more) = .ok (.done (rest ++ more)) := by
  unfold item at h ⊢
  split at h
  · next hfirst =>
    rw [if_pos hfirst]
    unfold firstItem at h
    split at h
    · next hs =>
      cases h
      rw [firstItem, afterBlanks_append_of_cons hs]
      rfl
    · cases h
    · cases h
  · next hfirst =>
    rw [if_neg hfirst]
    unfold nextItem at h
    split at h
    · next hs =>
      cases h
      rw [nextItem, afterBlanks_append_of_cons hs]
      rfl
    · split at h <;> cases h
    · cases h
    · cases h

/-- An item is that of the shorter text, when it is more than blanks. -/
theorem item_append_of_value {isFirst : Bool} (h : item isFirst s = .ok (.value t))
    (ht : afterBlanks t ≠ []) (more : List Char) :
    item isFirst (s ++ more) = .ok (.value (t ++ more)) := by
  unfold item at h ⊢
  split at h
  · next hfirst =>
    rw [if_pos hfirst]
    unfold firstItem at h
    split at h
    · cases h
    · cases h
    · next hbracket hnil =>
      cases h
      obtain ⟨c, cs, hs⟩ := List.exists_cons_of_ne_nil ht
      rw [firstItem, afterBlanks_append_of_cons hs]
      split
      · next heq =>
        rw [(List.cons.inj heq).1] at hs
        exact absurd hs (hbracket _)
      · next heq => cases heq
      · rfl
  · next hfirst =>
    rw [if_neg hfirst]
    unfold nextItem at h
    split at h
    · cases h
    · next rest hs =>
      split at h
      · cases h
      · next hbracket =>
        cases h
        obtain ⟨c, cs, ht⟩ := List.exists_cons_of_ne_nil ht
        have hhead : (afterBlanks (t ++ more)).head? ≠ some ']' := by
          rw [ht, List.head?_cons] at hbracket
          rw [afterBlanks_append_of_cons ht, List.head?_cons]
          exact hbracket
        rw [nextItem, afterBlanks_append_of_cons hs]
        exact if_neg hhead
    · cases h
    · cases h

/-- The entry of an object with more text behind it. -/
def Entry.extend (more : List Char) : Entry → Entry
  | done rest => done (rest ++ more)
  | key s => key (s ++ more)

theorem entry_append {isFirst : Bool} {e : Entry} (h : entry isFirst s = .ok e)
    (more : List Char) : entry isFirst (s ++ more) = .ok (e.extend more) := by
  unfold entry at h ⊢
  split at h
  · next hfirst =>
    rw [if_pos hfirst]
    unfold firstEntry at h
    split at h
    · next hs =>
      cases h
      rw [firstEntry, afterBlanks_append_of_cons hs]
      rfl
    · next hs =>
      cases h
      rw [firstEntry, afterBlanks_append_of_cons hs]
      rfl
    · cases h
    · cases h
  · next hfirst =>
    rw [if_neg hfirst]
    unfold nextEntry at h
    split at h
    · next hs =>
      cases h
      rw [nextEntry, afterBlanks_append_of_cons hs]
      rfl
    · next hs =>
      split at h
      · next hkey =>
        cases h
        rw [nextEntry, afterBlanks_append_of_cons hs]
        simp only [afterBlanks_append_of_cons hkey]
        rfl
      all_goals cases h
    · cases h
    · cases h

theorem afterItems_append (h : afterItems s = .ok rest) (more : List Char) :
    afterItems (s ++ more) = .ok (rest ++ more) := by
  unfold afterItems at h
  split at h
  · next hs =>
    cases h
    rw [afterItems, afterBlanks_append_of_cons hs]
    rfl
  all_goals cases h

/-! ## Numbers, strings and lists -/

namespace Reader

theorem Delimited.steady {r : Reader α} (h : r.Delimited) : r.Steady where
  afterBlanks_ne_nil := h.afterBlanks_ne_nil
  read_append hread _ := h.read_append hread

/-- Where blanks may stand in front, what is read is no blank. -/
theorem afterBlanks_ne_nil_of_blankable {r : Reader α} {a : α}
    (h : (blankable r).read s = .ok (a, rest)) : afterBlanks s ≠ [] := by
  intro hnil
  have hlength : rest.length < (afterBlanks s).length := r.length_lt h
  rw [hnil] at hlength
  exact absurd hlength (Nat.not_lt_zero _)

theorem steady_blankable {r : Reader α} (h : ∀ {s rest : List Char} {a : α},
    r.read s = .ok (a, rest) → rest ≠ [] → ∀ more, r.read (s ++ more) = .ok (a, rest ++ more)) :
    (blankable r).Steady where
  afterBlanks_ne_nil := afterBlanks_ne_nil_of_blankable
  read_append hread hrest more := by
    have hne := afterBlanks_ne_nil_of_blankable hread
    exact (congrArg r.read (afterBlanks_append hne more)).trans (h hread hrest more)

theorem delimited_blankable {r : Reader α} (h : ∀ {s rest : List Char} {a : α},
    r.read s = .ok (a, rest) → ∀ more, r.read (s ++ more) = .ok (a, rest ++ more)) :
    (blankable r).Delimited where
  afterBlanks_ne_nil := afterBlanks_ne_nil_of_blankable
  read_append hread more := by
    have hne := afterBlanks_ne_nil_of_blankable hread
    exact (congrArg r.read (afterBlanks_append hne more)).trans (h hread more)

theorem Steady.map {r : Reader α} (h : r.Steady) (f : α → β) : (r.map f).Steady where
  afterBlanks_ne_nil hread := by
    obtain ⟨_, hr, _⟩ := map_eq_ok_iff.mp hread
    exact h.afterBlanks_ne_nil hr
  read_append hread hrest more := by
    obtain ⟨⟨a, rest⟩, hr, heq⟩ := map_eq_ok_iff.mp hread
    cases heq
    exact map_eq_ok_iff.mpr ⟨_, h.read_append hr hrest more, rfl⟩

theorem steady_below (limit : Nat) (expected : String) : (below limit expected).Steady := by
  refine steady_blankable fun {s rest n} h hrest more => ?_
  change readBelow limit expected s = .ok (n, rest) at h
  change readBelow limit expected (s ++ more) = .ok (n, rest ++ more)
  unfold readBelow at h ⊢
  split at h
  · next hstart =>
    obtain ⟨c, s, rfl⟩ : ∃ c t, s = c :: t := List.exists_cons_of_ne_nil (by
      rintro rfl
      cases hstart)
    have hstart' : (c :: (s ++ more)).head?.any startsNumber = true := hstart
    obtain ⟨⟨number, left⟩, hn, h⟩ := bind_eq_ok_iff.mp h
    obtain ⟨accepted, haccept, h⟩ := bind_eq_ok_iff.mp h
    cases h
    rw [List.cons_append, if_pos hstart', ← List.cons_append]
    exact bind_eq_ok_iff.mpr ⟨_, number_append hn hrest more,
      bind_eq_ok_iff.mpr ⟨_, haccept, rfl⟩⟩
  · cases h

theorem steady_word : word.Steady :=
  (steady_below _ _).map _

theorem steady_size : size.Steady :=
  (steady_below _ _).map _

theorem steady_halfWord : halfWord.Steady :=
  (steady_below _ _).map _

theorem delimited_string : string.Delimited := by
  refine delimited_blankable fun {s rest text} h more => ?_
  change readString s = .ok (text, rest) at h
  change readString (s ++ more) = .ok (text, rest ++ more)
  unfold readString at h
  split at h
  · obtain ⟨⟨cs, left⟩, hu, heq⟩ := map_eq_ok_iff.mp h
    cases heq
    exact map_eq_ok_iff.mpr ⟨_, unquote_append hu more, rfl⟩
  · cases h

/-- The items of a list are those of the shorter text, whatever follows its end. -/
theorem items_append {r : Reader α} (hr : r.Steady) {isFirst : Bool} {taken as : List α}
    (h : items r isFirst taken s = .ok (as, rest)) (more : List Char) :
    items r isFirst taken (s ++ more) = .ok (as, rest ++ more) := by
  fun_induction items r isFirst taken s with
  | case1 => cases h
  | case2 _ _ _ _ hi =>
    cases h
    exact items_of_done (item_append_of_done hi more)
  | case3 => cases h
  | case4 _ taken _ _ hi a left hread _ _ ih =>
    -- The end of the list follows the item.
    have hleft : left ≠ [] := List.ne_nil_of_length_pos (Nat.zero_lt_of_lt (length_lt_of_items h))
    have hitem := item_append_of_value hi (hr.afterBlanks_ne_nil hread) more
    rw [items_of_value hitem (hr.read_append hread hleft more)]
    exact ih h

theorem Steady.list {r : Reader α} (hr : r.Steady) : r.list.Delimited := by
  refine delimited_blankable fun {s rest as} h more => ?_
  dsimp only at h ⊢
  split at h
  · exact items_append hr h more
  · cases h

end Reader

/-- The blanks of a JSON text are spaces, tabs and the two ends of lines. -/
theorem isBlank_iff {c : Char} : isBlank c = true ↔ c ∈ [' ', '\t', '\n', '\r'] := by
  simp only [isBlank, Bool.or_eq_true, beq_iff_eq, List.mem_cons, List.not_mem_nil, or_false,
    or_assoc, or_left_comm]

/-- A text that stands for a value stands for it with blanks behind it, and with nothing else. -/
theorem Reader.Delimited.whole_append {r : Reader α} (hr : r.Delimited) {text : String} {a : α}
    (h : r.whole text = .ok a) (more : String) :
    r.whole (text ++ more) =
      if more.toList.all isBlank then .ok a else .error .trailingCharacters := by
  unfold whole at h
  split at h
  · cases h
  · next a' rest hread =>
    split at h
    · next hblank =>
      cases h
      have hend : (afterBlanks (rest ++ more.toList)).isEmpty = more.toList.all isBlank := by
        rw [afterBlanks_append_of_nil (List.isEmpty_iff.mp hblank), Bool.eq_iff_iff,
          List.isEmpty_iff, List.all_eq_true, afterBlanks, List.dropWhile_eq_nil_iff]
      simp only [whole, String.toList_append, hr.read_append hread, hend]
    · cases h

/-! ## Records -/

namespace Layout

variable {δ : Type} {layout : Layout δ α}

theorem member_append (hfields : ∀ field ∈ layout.fields, field.fill.Steady) {draft draft' : δ}
    (h : layout.member draft s = .ok (draft', rest)) (hrest : rest ≠ []) (more : List Char) :
    layout.member draft (s ++ more) = .ok (draft', rest ++ more) := by
  obtain ⟨⟨key, mid⟩, hkey, h⟩ := bind_eq_ok_iff.mp h
  refine bind_eq_ok_iff.mpr ⟨_, unquote_append hkey more, ?_⟩
  dsimp only at h ⊢
  split at h
  · next field hfield =>
    split at h
    · cases h
    · next hnew =>
      obtain ⟨t, hcolon, h⟩ := bind_eq_ok_iff.mp h
      obtain ⟨⟨put, left⟩, hread, h⟩ := bind_eq_ok_iff.mp h
      cases h
      have hsteady := hfields field (List.mem_of_find?_eq_some hfield)
      rw [if_neg hnew]
      exact bind_eq_ok_iff.mpr ⟨_, afterColon_append hcolon more,
        bind_eq_ok_iff.mpr ⟨_, hsteady.read_append hread hrest more, rfl⟩⟩
  · split at h
    · cases h
    · next hopen =>
      obtain ⟨t, hcolon, h⟩ := bind_eq_ok_iff.mp h
      obtain ⟨left, hpass, h⟩ := bind_eq_ok_iff.mp h
      cases h
      rw [if_neg hopen]
      exact bind_eq_ok_iff.mpr ⟨_, afterColon_append hcolon more,
        bind_eq_ok_iff.mpr ⟨_, passValue_append hpass hrest more, rfl⟩⟩

theorem members_append (hfields : ∀ field ∈ layout.fields, field.fill.Steady) {isFirst : Bool}
    {draft : δ} {a : α} (h : layout.members isFirst draft s = .ok (a, rest)) (more : List Char) :
    layout.members isFirst draft (s ++ more) = .ok (a, rest ++ more) := by
  fun_induction members layout isFirst draft s with
  | case1 => cases h
  | case2 _ _ _ _ he =>
    obtain ⟨record, hcomplete, heq⟩ := map_eq_ok_iff.mp h
    cases heq
    rw [members_of_done (entry_append he more), hcomplete]
    rfl
  | case3 => cases h
  | case4 _ _ _ _ he _ left hmember _ _ ih =>
    -- The end of the object follows the member.
    have hleft : left ≠ [] :=
      List.ne_nil_of_length_pos (Nat.zero_lt_of_lt (layout.length_lt_of_members h))
    rw [members_of_key (entry_append he more) (member_append hfields hmember hleft more)]
    exact ih h

theorem inOrder_append {n : Nat} {fields : List (Field δ)}
    (hfields : ∀ field ∈ fields, field.fill.Steady) {draft : δ} {a : α}
    (h : layout.inOrder n fields draft s = .ok (a, rest)) (more : List Char) :
    layout.inOrder n fields draft (s ++ more) = .ok (a, rest ++ more) := by
  fun_induction inOrder layout n fields draft s with
  | case1 => cases h
  | case2 _ _ _ _ hend =>
    obtain ⟨record, hcomplete, heq⟩ := map_eq_ok_iff.mp h
    cases heq
    rw [inOrder, afterItems_append hend, hcomplete]
    rfl
  | case3 => cases h
  | case4 _ _ _ _ _ _ hi =>
    obtain ⟨record, hcomplete, heq⟩ := map_eq_ok_iff.mp h
    cases heq
    rw [inOrder, item_append_of_done hi]
    simp only [hcomplete]
    rfl
  | case5 => cases h
  | case6 n field fields _ s t hi put left hread ih =>
    -- The end of the list follows the field.
    have hleft : left ≠ [] :=
      List.ne_nil_of_length_pos (Nat.zero_lt_of_lt (layout.length_lt_of_inOrder h))
    obtain ⟨hfield, hfields⟩ := List.forall_mem_cons.mp hfields
    have hitem := item_append_of_value hi (hfield.afterBlanks_ne_nil hread) more
    rw [inOrder, hitem]
    simp only [hfield.read_append hread hleft]
    exact ih hfields h

/-- A record is delimited, in either of its forms, when the readers of its fields are steady. -/
theorem delimited_reader (hfields : ∀ field ∈ layout.fields, field.fill.Steady) :
    layout.reader.Delimited := by
  refine Reader.delimited_blankable fun {s rest a} h more => ?_
  dsimp only at h ⊢
  split at h
  · exact members_append hfields h more
  · exact inOrder_append hfields h more
  · cases h

end Layout

end Redraw.Json
