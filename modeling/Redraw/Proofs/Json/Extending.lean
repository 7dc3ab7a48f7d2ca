import Redraw.Json.Number
import Redraw.Json.Quoted
import Redraw.Json.Scan
import Redraw.Proofs.Numeral

/-!
# Parts of texts that go on

What is read off a text is read off any longer one that begins with it, and what follows is longer
by as much. Words and strings say themselves where they end. A number does not: it may go on where
the text goes on, so that something else must follow it in the shorter text already.
-/

namespace Redraw.Json

variable {s rest : List Char}

/-- Two steps come to a value exactly when the first does, and the second off that. -/
theorem bind_eq_ok_iff {ε α β : Type} {x : Except ε α} {next : α → Except ε β} {b : β} :
    x >>= next = .ok b ↔ ∃ a, x = .ok a ∧ next a = .ok b := by
  cases x with
  | ok a =>
    constructor
    · exact fun h => ⟨a, rfl, h⟩
    · rintro ⟨_, ⟨⟩, h⟩
      exact h
  | error fault =>
    refine iff_of_false (fun h => nomatch h) ?_
    rintro ⟨_, h, _⟩
    cases h

theorem dropWhile_append {p : Char → Bool} (h : s.dropWhile p ≠ []) (more : List Char) :
    (s ++ more).dropWhile p = s.dropWhile p ++ more := by
  rw [List.dropWhile_append, if_neg fun hempty => h (List.isEmpty_iff.mp hempty)]

theorem takeWhile_append {p : Char → Bool} (h : s.dropWhile p ≠ []) (more : List Char) :
    (s ++ more).takeWhile p = s.takeWhile p := by
  rw [List.takeWhile_append, if_neg fun hlength => ?_]
  have hsplit := congrArg List.length (List.takeWhile_append_dropWhile (p := p) (l := s))
  rw [List.length_append, hlength] at hsplit
  exact h (List.eq_nil_of_length_eq_zero (Nat.add_left_cancel hsplit))

/-- Blanks in front are those of the shorter text, when it has something else behind them. -/
theorem afterBlanks_append (h : afterBlanks s ≠ []) (more : List Char) :
    afterBlanks (s ++ more) = afterBlanks s ++ more :=
  dropWhile_append h more

/-- Nothing but blanks make no difference in front. -/
theorem afterBlanks_append_of_nil (h : afterBlanks s = []) (more : List Char) :
    afterBlanks (s ++ more) = afterBlanks more := by
  have hempty : (List.dropWhile isBlank s).isEmpty = true := List.isEmpty_iff.mpr h
  rw [afterBlanks, List.dropWhile_append, if_pos hempty, afterBlanks]

theorem afterBlanks_append_of_cons {c : Char} (h : afterBlanks s = c :: rest) (more : List Char) :
    afterBlanks (s ++ more) = c :: (rest ++ more) := by
  rw [afterBlanks_append (by rw [h]; exact List.cons_ne_nil _ _), h, List.cons_append]

theorem word_append {letters : List Char} (h : word letters s = .ok rest) (more : List Char) :
    word letters (s ++ more) = .ok (rest ++ more) := by
  fun_induction word letters s with
  | case1 s =>
    cases h
    rw [word]
  | case2 => cases h
  | case3 letter letters s ih =>
    rw [List.cons_append, word, if_pos rfl]
    exact ih h
  | case4 => cases h

theorem afterColon_append (h : afterColon s = .ok rest) (more : List Char) :
    afterColon (s ++ more) = .ok (rest ++ more) := by
  unfold afterColon at h
  split at h
  · next hs =>
    cases h
    rw [afterColon, afterBlanks_append_of_cons hs]
    rfl
  · cases h
  · cases h

/-! ## Strings -/

/-- Hexadecimal digits are ASCII. -/
theorem lt_of_hexValue? {c : Char} {n : Nat} (h : Bytes.hexValue? c = some n) : c.toNat < 128 := by
  have hle : ∀ d : Char, c ≤ d → c.toNat ≤ d.toNat := fun d hd => hd
  unfold Bytes.hexValue? at h
  split at h
  · next hc => exact Nat.lt_of_le_of_lt (hle '9' hc.2) (by decide)
  · split at h
    · next hc => exact Nat.lt_of_le_of_lt (hle 'f' hc.2) (by decide)
    · split at h
      · next hc => exact Nat.lt_of_le_of_lt (hle 'F' hc.2) (by decide)
      · cases h

theorem lt_of_mapM_hexValue? {cs : List Char} {ns : List Nat}
    (h : cs.mapM Bytes.hexValue? = some ns) : ∀ c ∈ cs, c.toNat < 128 := by
  induction cs generalizing ns with
  | nil => exact fun c hc => nomatch hc
  | cons c cs ih =>
    simp only [List.mapM_cons, Option.bind_eq_bind, Option.bind_eq_some_iff] at h
    obtain ⟨n, hn, ns, hns, _⟩ := h
    exact List.forall_mem_cons.mpr ⟨lt_of_hexValue? hn, ih hns⟩

/-- There are four digits, since hexadecimal digits have a byte each. -/
theorem le_length_of_hexQuad {n : Nat} (h : hexQuad s = .ok (n, rest)) : 4 ≤ s.length := by
  unfold hexQuad at h
  split at h
  · cases h
  · next hbytes =>
    split at h
    · next hdigits =>
      have hsize : (String.ofList (s.take 4)).utf8ByteSize = (s.take 4).length := by
        have hascii := Bytes.ofText_ofList_of_ascii (lt_of_mapM_hexValue? hdigits)
        rw [← (s.take 4).length_map Char.toUInt8, ← hascii]
        rfl
      rw [hsize, List.length_take] at hbytes
      omega
    · cases h

theorem hexQuad_append {n : Nat} (h : hexQuad s = .ok (n, rest)) (more : List Char) :
    hexQuad (s ++ more) = .ok (n, rest ++ more) := by
  have hlength := le_length_of_hexQuad h
  unfold hexQuad at h ⊢
  rw [List.take_append_of_le_length hlength, List.drop_append_of_le_length hlength]
  split at h
  · cases h
  · next hbytes =>
    rw [if_neg hbytes]
    split at h
    · cases h
      rfl
    · cases h

theorem trailingHalf_append {n : Nat} (h : trailingHalf s = .ok (n, rest)) (more : List Char) :
    trailingHalf (s ++ more) = .ok (n, rest ++ more) := by
  unfold trailingHalf at h
  split at h
  · split at h
    · next hq =>
      split at h
      · next htrailing =>
        cases h
        simp only [List.cons_append, trailingHalf, hexQuad_append hq, htrailing, if_true]
      · cases h
    · cases h
  all_goals cases h

theorem numericEscape_append {c : Char} (h : numericEscape s = .ok (c, rest)) (more : List Char) :
    numericEscape (s ++ more) = .ok (c, rest ++ more) := by
  unfold numericEscape at h
  split at h
  · cases h
  · next n mid hq =>
    rw [numericEscape, hexQuad_append hq]
    change (if isTrailing n = true then _ else _) = _
    split at h
    · cases h
    · next htrailing =>
      rw [if_neg htrailing]
      split at h
      · next hleading =>
        rw [if_pos hleading]
        split at h
        · next m after ht =>
          obtain ⟨hc, hrest⟩ := Prod.mk.inj (Except.ok.inj h)
          rw [trailingHalf_append ht, ← hrest, ← hc]
        · cases h
      · next hleading =>
        rw [if_neg hleading]
        cases h
        rfl

theorem escape_append {c : Char} (h : escape s = .ok (c, rest)) (more : List Char) :
    escape (s ++ more) = .ok (c, rest ++ more) := by
  unfold escape at h
  split at h
  · cases h
  · next letter s =>
    rw [List.cons_append, escape]
    split at h
    · next hu =>
      rw [if_pos hu]
      exact numericEscape_append h more
    · next hu =>
      rw [if_neg hu]
      split at h
      · cases h
        rfl
      · cases h

theorem unquote_append {taken cs : List Char} (h : unquote taken s = .ok (cs, rest))
    (more : List Char) : unquote taken (s ++ more) = .ok (cs, rest ++ more) := by
  fun_induction unquote taken s with
  | case1 => cases h
  | case2 taken s =>
    cases h
    rw [List.cons_append, unquote, if_pos rfl]
  | case3 taken s d tail he hlt hquote ih =>
    rw [List.cons_append, unquote, if_neg hquote, if_pos rfl]
    split
    · next heq =>
      rw [escape_append he] at heq
      cases heq
      exact ih h
    · next heq =>
      rw [escape_append he] at heq
      cases heq
  | case4 => cases h
  | case5 => cases h
  | case6 taken c s hquote hescape hcontrol ih =>
    rw [List.cons_append, unquote, if_neg hquote, if_neg hescape, if_neg hcontrol]
    exact ih h

theorem passString_append (h : passString s = .ok rest) (more : List Char) :
    passString (s ++ more) = .ok (rest ++ more) := by
  fun_induction passString s with
  | case1 => cases h
  | case2 s =>
    cases h
    rw [List.cons_append, passString]
  | case3 s n tail hq hle ih =>
    rw [List.cons_append, List.cons_append, passString, if_pos rfl]
    split
    · next heq =>
      rw [hexQuad_append hq] at heq
      cases heq
      exact ih h
    · next heq =>
      rw [hexQuad_append hq] at heq
      cases heq
  | case4 => cases h
  | case5 c s hu hletter ih =>
    rw [List.cons_append, List.cons_append, passString, if_neg hu, if_pos hletter]
    exact ih h
  | case6 => cases h
  | case7 => cases h
  | case8 => cases h
  | case9 c s hquote hescape hlast hcontrol ih =>
    have hplain : c ≠ '\\' := by
      rintro rfl
      cases s with
      | nil => exact hlast rfl rfl
      | cons d s => exact hescape d s rfl rfl
    rw [List.cons_append, passString, if_neg hcontrol]
    · exact ih h
    · exact hquote
    · exact fun _ _ heq _ => hplain heq
    · exact fun heq _ => hplain heq

/-! ## Numbers -/

theorem someDigits_append {ds : List Char} (h : someDigits s = .ok (ds, rest)) (hrest : rest ≠ [])
    (more : List Char) : someDigits (s ++ more) = .ok (ds, rest ++ more) := by
  unfold someDigits at h
  split at h
  · cases h
  · next c s =>
    split at h
    · next hc =>
      obtain ⟨rfl, rfl⟩ := Prod.mk.inj (Except.ok.inj h)
      rw [← dropWhile_append hrest, ← takeWhile_append hrest more, List.cons_append, someDigits,
        if_pos hc]
    · cases h

theorem wholeDigits_append {ds : List Char} (h : wholeDigits s = .ok (ds, rest)) (hrest : rest ≠ [])
    (more : List Char) : wholeDigits (s ++ more) = .ok (ds, rest ++ more) := by
  unfold wholeDigits at h
  split at h
  · cases h
  · next hzero =>
    rw [wholeDigits, someDigits_append h hrest]
    split
    · next heq =>
      cases heq
      exact absurd h (hzero _ _ _)
    · rfl

theorem fractionDigits_append {ds : List Char} (h : fractionDigits s = .ok (ds, rest))
    (hrest : rest ≠ []) (more : List Char) :
    fractionDigits (s ++ more) = .ok (ds, rest ++ more) := by
  unfold fractionDigits at h
  split at h
  · exact someDigits_append h hrest more
  · next hpoint =>
    cases h
    obtain ⟨c, s, rfl⟩ := List.exists_cons_of_ne_nil hrest
    rw [List.cons_append, fractionDigits]
    intro s heq
    rw [(List.cons.inj heq).1] at hpoint
    exact hpoint _ rfl

theorem exponentSign_append (h : s ≠ []) (more : List Char) :
    exponentSign (s ++ more) = ((exponentSign s).1, (exponentSign s).2 ++ more) := by
  obtain ⟨c, s, rfl⟩ := List.exists_cons_of_ne_nil h
  rw [List.cons_append]
  unfold exponentSign
  split <;> split <;> simp_all

theorem minusSign_append (h : s ≠ []) (more : List Char) :
    minusSign (s ++ more) = ((minusSign s).1, (minusSign s).2 ++ more) := by
  obtain ⟨c, s, rfl⟩ := List.exists_cons_of_ne_nil h
  rw [List.cons_append]
  unfold minusSign
  split <;> split <;> simp_all

theorem exponentPart_append {e : Option WrittenExponent} (h : exponentPart s = .ok (e, rest))
    (hrest : rest ≠ []) (more : List Char) :
    exponentPart (s ++ more) = .ok (e, rest ++ more) := by
  unfold exponentPart at h
  split at h
  · cases h
    exact absurd rfl hrest
  · next c s =>
    rw [List.cons_append, exponentPart]
    split at h
    · next he =>
      rw [if_pos he]
      split at h
      · next digits left hd =>
        cases h
        have hne : s ≠ [] := by
          rintro rfl
          cases hd
        rw [exponentSign_append hne, someDigits_append hd hrest]
      · cases h
    · next he =>
      rw [if_neg he]
      cases h
      rfl

/-- What follows the parts of a number is something as long as something follows the number. -/
theorem ne_nil_of_length_le (h : rest.length ≤ s.length) (hrest : rest ≠ []) : s ≠ [] := by
  rintro rfl
  exact hrest (List.eq_nil_of_length_eq_zero (Nat.le_zero.mp h))

theorem writtenNumber_append {w : WrittenNumber} (h : writtenNumber s = .ok (w, rest))
    (hrest : rest ≠ []) (more : List Char) :
    writtenNumber (s ++ more) = .ok (w, rest ++ more) := by
  have hs : s ≠ [] := ne_nil_of_length_le (Nat.le_of_lt (length_lt_of_writtenNumber h)) hrest
  obtain ⟨⟨whole, afterWhole⟩, hw, h⟩ := bind_eq_ok_iff.mp h
  obtain ⟨⟨fraction, afterFraction⟩, hf, h⟩ := bind_eq_ok_iff.mp h
  obtain ⟨⟨exponent, afterExponent⟩, he, h⟩ := bind_eq_ok_iff.mp h
  cases h
  -- Something follows each of the parts, since something follows the last one.
  have hfraction : afterFraction ≠ [] := ne_nil_of_length_le (length_le_of_exponentPart he) hrest
  have hwhole : afterWhole ≠ [] := ne_nil_of_length_le (length_le_of_fractionDigits hf) hfraction
  rw [writtenNumber, minusSign_append hs]
  exact bind_eq_ok_iff.mpr ⟨_, wholeDigits_append hw hwhole more,
    bind_eq_ok_iff.mpr ⟨_, fractionDigits_append hf hfraction more,
      bind_eq_ok_iff.mpr ⟨_, exponentPart_append he hrest more, rfl⟩⟩⟩

theorem number_append {n : Number} (h : number s = .ok (n, rest)) (hrest : rest ≠ [])
    (more : List Char) : number (s ++ more) = .ok (n, rest ++ more) := by
  obtain ⟨⟨written, left⟩, hw, h⟩ := bind_eq_ok_iff.mp h
  obtain ⟨value, hv, h⟩ := bind_eq_ok_iff.mp h
  cases h
  exact bind_eq_ok_iff.mpr ⟨_, writtenNumber_append hw hrest more,
    bind_eq_ok_iff.mpr ⟨_, hv, rfl⟩⟩

theorem passNumber_append (h : passNumber s = .ok rest) (hrest : rest ≠ []) (more : List Char) :
    passNumber (s ++ more) = .ok (rest ++ more) := by
  unfold passNumber at h
  split at h
  · next hw =>
    cases h
    rw [passNumber, writtenNumber_append hw hrest]
  · cases h

end Redraw.Json
