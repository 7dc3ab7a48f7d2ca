import Redraw.Json.Passing
import Redraw.Proofs.Json.Extending

/-!
# Values of no concern in texts that go on

A value of no concern is passed over alike in a text and in any longer one that begins with it:
stage by stage, what is left is longer by what was added. The value may be a number, so that
something must follow it in the shorter text.
-/

namespace Redraw.Json

variable {s rest : List Char}

theorem passScalar_append {c : Char} (h : passScalar c s = .ok rest) (hrest : rest ≠ [])
    (more : List Char) : passScalar c (s ++ more) = .ok (rest ++ more) := by
  unfold passScalar at h
  split at h
  · next hquote =>
    rw [passScalar, if_pos hquote]
    exact passString_append h more
  · next hquote =>
    rw [passScalar, if_neg hquote]
    split at h
    · next hnumber =>
      rw [if_pos hnumber]
      exact passNumber_append h hrest more
    · next hnumber =>
      rw [if_neg hnumber]
      split at h
      · exact word_append h more
      · cases h

theorem passKey_append {bracket : Bracket} (h : passKey bracket s = .ok rest) (more : List Char) :
    passKey bracket (s ++ more) = .ok (rest ++ more) := by
  unfold passKey at h
  split at h
  · cases h
    rfl
  · split at h
    · next hs =>
      split at h
      · cases h
      · next hp =>
        rw [passKey, afterBlanks_append_of_cons hs]
        simp only [passString_append hp]
        exact afterColon_append h more
    · cases h
    · cases h

namespace Passing

/-- The stage at which more text follows what is left. -/
def extend (p : Passing) (more : List Char) : Passing :=
  ⟨p.awaited, p.opened, p.left ++ more⟩

theorem value_append {opened : List Bracket} {q : Passing} (h : value opened s = .ok q)
    (hq : q.left ≠ []) (more : List Char) : value opened (s ++ more) = .ok (q.extend more) := by
  unfold value at h
  split at h
  · cases h
  · next c s' hs =>
    rw [value, afterBlanks_append_of_cons hs]
    split at h
    · next hopened =>
      cases h
      simp only [hopened]
      rfl
    · next hopened =>
      obtain ⟨r, hr, rfl⟩ := map_eq_ok_iff.mp h
      simp only [hopened, passScalar_append hr hq]
      rfl

theorem item_append {bracket : Bracket} {opened : List Bracket} {q : Passing}
    (h : item bracket opened s = .ok q) (more : List Char) :
    item bracket opened (s ++ more) = .ok (q.extend more) := by
  obtain ⟨r, hr, rfl⟩ := map_eq_ok_iff.mp h
  rw [item, passKey_append hr]
  rfl

theorem first_append {bracket : Bracket} {opened : List Bracket} {q : Passing}
    (h : first bracket opened s = .ok q) (more : List Char) :
    first bracket opened (s ++ more) = .ok (q.extend more) := by
  unfold first at h
  split at h
  · cases h
  · next c s' hs =>
    rw [first, afterBlanks_append_of_cons hs]
    split at h
    · next hc =>
      cases h
      exact if_pos hc
    · next hc =>
      exact (if_neg hc).trans (item_append h more)

theorem comma_append {bracket : Bracket} {opened : List Bracket} {q : Passing}
    (h : comma bracket opened s = .ok q) (more : List Char) :
    comma bracket opened (s ++ more) = .ok (q.extend more) := by
  unfold comma at h
  split at h
  · cases h
  · next c s' hs =>
    rw [comma, afterBlanks_append_of_cons hs]
    split at h
    · next hc =>
      exact (if_pos hc).trans (item_append h more)
    · next hc =>
      refine (if_neg hc).trans ?_
      split at h
      · next hclosing =>
        cases h
        exact if_pos hclosing
      · cases h

/-- A stage is the next one when it is what the part that is awaited leads to. -/
theorem map_some_eq_ok_iff {ε : Type} {stage : Except ε Passing} {q : Passing} :
    stage.map some = .ok (some q) ↔ stage = .ok q := by
  simp only [map_eq_ok_iff, Option.some.injEq, exists_eq_right]

theorem map_some_ne_none {ε : Type} (stage : Except ε Passing) : stage.map some ≠ .ok none := by
  simp only [ne_eq, map_eq_ok_iff, reduceCtorEq, and_false, exists_false, not_false_eq_true]

/-- The next stage is that of the shorter text, as long as something is left of it. -/
theorem next_append {p q : Passing} (h : p.next = .ok (some q)) (hq : q.left ≠ [])
    (more : List Char) : (p.extend more).next = .ok (some (q.extend more)) := by
  obtain ⟨awaited, opened, s⟩ := p
  match awaited, opened, h with
  | .value, opened, h =>
    exact map_some_eq_ok_iff.mpr (value_append (map_some_eq_ok_iff.mp h) hq more)
  | .first, bracket :: opened, h =>
    exact map_some_eq_ok_iff.mpr (first_append (map_some_eq_ok_iff.mp h) more)
  | .comma, bracket :: opened, h =>
    exact map_some_eq_ok_iff.mpr (comma_append (map_some_eq_ok_iff.mp h) more)

/-- When a value is over hangs on the open brackets, and not on the text. -/
theorem next_append_of_none {p : Passing} (h : p.next = .ok none) (more : List Char) :
    (p.extend more).next = .ok none := by
  obtain ⟨awaited, opened, s⟩ := p
  match awaited, opened, h with
  | .first, [], _ => rfl
  | .comma, [], _ => rfl
  | .value, opened, h => exact absurd h (map_some_ne_none _)
  | .first, bracket :: opened, h => exact absurd h (map_some_ne_none _)
  | .comma, bracket :: opened, h => exact absurd h (map_some_ne_none _)

theorem finish_append {p : Passing} (h : p.finish = .ok rest) (hrest : rest ≠ [])
    (more : List Char) : (p.extend more).finish = .ok (rest ++ more) := by
  fun_induction finish p with
  | case1 => cases h
  | case2 p hnone =>
    cases h
    rw [finish]
    split <;> rename_i heq <;> rw [next_append_of_none hnone] at heq <;> cases heq
    rfl
  | case3 p q hq hlt ih =>
    have hleft : q.left ≠ [] := by
      -- What is over with nothing left has weight one at most.
      intro hnil
      have hweight := length_le_of_finish h
      have hpos := List.length_pos_iff.mpr hrest
      simp only [weight, hnil, List.length_nil] at hweight
      split at hweight <;> omega
    rw [finish]
    split <;> rename_i heq <;> rw [next_append hq hleft] at heq <;> cases heq
    exact ih h

end Passing

theorem passValue_append (h : passValue s = .ok rest) (hrest : rest ≠ []) (more : List Char) :
    passValue (s ++ more) = .ok (rest ++ more) :=
  Passing.finish_append h hrest more

end Redraw.Json
