import Redraw.Json.Number
import Redraw.Proofs.Numeral

/-!
# Numbers read back

A number is written as its digits. It is read back as that number when it fits in 64 bits and when
nothing follows that a number could go on with: a point, an exponent or one more digit would change
it. Inside lists and objects a comma or a bracket follows, so that this is never the case.
-/

namespace Redraw

namespace Numeral

/-- A written number starts with a digit. -/
theorem exists_digits_eq_cons (n : Nat) : ∃ c ds, digits n = c :: ds ∧ c.isDigit = true := by
  obtain ⟨c, ds, hds⟩ : ∃ c ds, digits n = c :: ds := List.exists_cons_of_ne_nil Nat.toDigits_ne_nil
  exact ⟨c, ds, hds, isDigit_of_mem_digits (hds ▸ List.mem_cons_self)⟩

/-- Of the digits of a number, a zero comes first only when it is the only one. -/
theorem head?_digits_ne {n : Nat} (h : 0 < n) : (digits n).head? ≠ some '0' := by
  induction n using Nat.strongRecOn with
  | ind n ih =>
    rw [digits, Nat.toDigits_eq_if (by decide)]
    by_cases hlt : n < 10
    · rw [if_pos hlt, List.head?_cons, ne_eq, Option.some.injEq, Nat.digitChar_eq_zero]
      omega
    · have hfront : (digits (n / 10)).head? ≠ some '0' := ih (n / 10) (by omega) (by omega)
      obtain ⟨c, ds, hds, _⟩ := exists_digits_eq_cons (n / 10)
      rw [hds] at hfront
      rw [digits] at hds
      rw [if_neg hlt, hds]
      exact hfront

end Numeral

namespace Json

/-- A text that no number goes on with. -/
def StopsNumber (s : List Char) : Prop :=
  ∀ c, s.head? = some c → c.isDigit = false ∧ c ≠ '.' ∧ c ≠ 'e' ∧ c ≠ 'E'

theorem stopsNumber_nil : StopsNumber [] :=
  fun _ h => nomatch h

/-- No number goes on with a character that is none of its own. -/
theorem stopsNumber_cons {c : Char} (s : List Char)
    (h : c.isDigit = false ∧ c ≠ '.' ∧ c ≠ 'e' ∧ c ≠ 'E') : StopsNumber (c :: s) := by
  rintro d ⟨⟩
  exact h

/-- What follows digits, when these end there. -/
theorem span_digits {ds s : List Char} (hd : ∀ c ∈ ds, c.isDigit = true) (hs : StopsNumber s) :
    (ds ++ s).takeWhile Char.isDigit = ds ∧ (ds ++ s).dropWhile Char.isDigit = s := by
  rw [List.takeWhile_append_of_pos hd, List.dropWhile_append_of_pos hd]
  cases s with
  | nil => exact ⟨List.append_nil ds, rfl⟩
  | cons c s =>
    have hc : ¬ c.isDigit = true := by
      rw [(hs c rfl).1]
      exact Bool.false_ne_true
    rw [List.takeWhile_cons_of_neg hc, List.dropWhile_cons_of_neg hc, List.append_nil]
    exact ⟨rfl, rfl⟩

/-- Written digits are taken as they are: no leading zero is among them. -/
theorem wholeDigits_digits (n : Nat) {s : List Char} (hs : StopsNumber s) :
    wholeDigits (Numeral.digits n ++ s) = .ok (Numeral.digits n, s) := by
  obtain ⟨c, ds, hds, _⟩ := Numeral.exists_digits_eq_cons n
  have hdigit : ∀ d ∈ c :: ds, d.isDigit = true := fun d hd =>
    Numeral.isDigit_of_mem_digits (hds ▸ hd)
  have hsome : someDigits (c :: ds ++ s) = .ok (c :: ds, s) := by
    obtain ⟨htake, hdrop⟩ := span_digits hdigit hs
    rw [List.cons_append] at htake hdrop ⊢
    rw [someDigits, if_pos (hdigit c List.mem_cons_self), htake, hdrop]
  rw [hds, wholeDigits, hsome]
  split
  · rename_i heq
    -- Two digits or more, of which the first is a zero, are those of no number.
    cases heq
    have hzero : n = 0 := Nat.eq_zero_of_not_pos fun hpos =>
      Numeral.head?_digits_ne hpos (by rw [hds]; rfl)
    rw [hzero] at hds
    cases hds
  · rfl

theorem minusSign_digits (n : Nat) (s : List Char) :
    minusSign (Numeral.digits n ++ s) = (false, Numeral.digits n ++ s) := by
  unfold minusSign
  split
  · rename_i rest h
    obtain ⟨c, ds, hds, hc⟩ := Numeral.exists_digits_eq_cons n
    rw [hds, List.cons_append] at h
    obtain rfl : c = '-' := (List.cons.inj h).1
    exact absurd hc (by decide)
  · rfl

theorem fractionDigits_of_stopsNumber {s : List Char} (h : StopsNumber s) :
    fractionDigits s = .ok ([], s) := by
  unfold fractionDigits
  split
  · exact absurd rfl (h _ rfl).2.1
  · rfl

theorem exponentPart_of_stopsNumber {s : List Char} (h : StopsNumber s) :
    exponentPart s = .ok (none, s) := by
  cases s with
  | nil => rfl
  | cons c s =>
    have hc := (h c rfl).2.2
    rw [exponentPart, if_neg (not_or.mpr hc)]

/-- As long as the number that digits stand for fits in 64 bits, none of them is left. -/
theorem appendDigits_of_lt {n : Nat} {ds : List Char} (h : Nat.ofDigitChars 10 ds n < UInt64.size) :
    appendDigits n ds = (Nat.ofDigitChars 10 ds n, 0) := by
  induction ds generalizing n with
  | nil => rfl
  | cons c ds ih =>
    rw [Nat.ofDigitChars_cons] at h ⊢
    have hle : 10 * n + (c.toNat - '0'.toNat) ≤
        Nat.ofDigitChars 10 ds (10 * n + (c.toNat - '0'.toNat)) := by
      rw [Nat.ofDigitChars_eq_ofDigitChars_zero]
      exact Nat.le_add_right_of_le (Nat.le_mul_of_pos_left _ (Nat.pow_pos (by decide)))
    rw [appendDigits]
    exact (if_pos (Nat.lt_of_le_of_lt hle h)).trans (ih h)

/-- A written number that fits in 64 bits is read back, up to where a number ends. -/
theorem number_digits {n : Nat} (hn : n < UInt64.size) {s : List Char} (hs : StopsNumber s) :
    number (Numeral.digits n ++ s) = .ok (.integer n, s) := by
  have hwritten : writtenNumber (Numeral.digits n ++ s) =
      .ok (⟨false, Numeral.digits n, [], none⟩, s) := by
    simp only [writtenNumber, minusSign_digits, wholeDigits_digits n hs, bind, Except.bind,
      fractionDigits_of_stopsNumber hs, exponentPart_of_stopsNumber hs, pure, Except.pure]
  have hdigits : appendDigits 0 (Numeral.digits n) = (n, 0) := by
    have hvalue : Nat.ofDigitChars 10 (Numeral.digits n) 0 = n := Numeral.value_digits n
    rw [appendDigits_of_lt (by rwa [hvalue]), hvalue]
  have hinteger : WrittenNumber.integer? ⟨false, Numeral.digits n, [], none⟩ = some (n : Int) := by
    simp only [WrittenNumber.integer?, hdigits]
    rfl
  simp only [number, hwritten, bind, Except.bind, WrittenNumber.value, hinteger, pure, Except.pure]

end Json

end Redraw
