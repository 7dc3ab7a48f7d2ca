import Redraw.Json.Quoted

/-!
# Strings read back

A string is written between quotes, with escapes for the characters that cannot stand there as they
are. Each character is read back from what it is written as, whatever comes behind it, and so is the
whole string up to its closing quote.
-/

namespace Redraw.Json

/-- A quote ends a string. -/
@[simp] theorem unquote_quote (taken s : List Char) :
    unquote taken ('"' :: s) = .ok (taken.reverse, s) := by
  rw [unquote, if_pos rfl]

/-- An escape stands for its character. -/
theorem unquote_escape (taken : List Char) {s rest : List Char} {c : Char}
    (h : escape s = .ok (c, rest)) : unquote taken ('\\' :: s) = unquote (c :: taken) rest := by
  rw [unquote, if_neg (by decide), if_pos rfl]
  split
  · rename_i heq
    rw [h] at heq
    cases heq
    rfl
  · rename_i heq
    rw [h] at heq
    cases heq

/-- Any other character stands for itself. -/
theorem unquote_plain (taken s : List Char) {c : Char} (hquote : c ≠ '"') (hescape : c ≠ '\\')
    (hcontrol : ¬ c.toNat < 32) : unquote taken (c :: s) = unquote (c :: taken) s := by
  rw [unquote, if_neg hquote, if_neg hescape, if_neg hcontrol]

/-- The four digits that a control character is written with stand for it. -/
theorem hexQuad_control {n : Nat} (h : n < 32) (s : List Char) :
    hexQuad ('0' :: '0' :: Bytes.hexDigit (n / 16) :: Bytes.hexDigit (n % 16) :: s) =
      .ok (n, s) := by
  have hdigits : ∀ n < 32,
      ¬ (String.ofList ['0', '0', Bytes.hexDigit (n / 16), Bytes.hexDigit (n % 16)]).utf8ByteSize <
        4 ∧
      ['0', '0', Bytes.hexDigit (n / 16), Bytes.hexDigit (n % 16)].mapM Bytes.hexValue? =
        some [0, 0, n / 16, n % 16] := by
    decide
  obtain ⟨hlength, hvalues⟩ := hdigits n h
  have hvalue : 16 * (16 * (16 * (16 * 0 + 0) + 0) + n / 16) + n % 16 = n := by omega
  simp only [hexQuad, List.take_succ_cons, List.take_zero, if_neg hlength, hvalues,
    List.foldl_cons, List.foldl_nil, List.drop_succ_cons, List.drop_zero, hvalue]

/-- A control character without a letter of its own is escaped by its number. -/
theorem escape_control {c : Char} (h : c.toNat < 32) (s : List Char) :
    escape ('u' :: '0' :: '0' :: Bytes.hexDigit (c.toNat / 16) :: Bytes.hexDigit (c.toNat % 16) ::
      s) = .ok (c, s) := by
  have htrailing : isTrailing c.toNat = false := by
    rw [isTrailing, Bool.and_eq_false_iff, decide_eq_false_iff_not]
    exact Or.inl (by omega)
  have hleading : isLeading c.toNat = false := by
    rw [isLeading, Bool.and_eq_false_iff, decide_eq_false_iff_not]
    exact Or.inl (by omega)
  rw [escape, if_pos rfl, numericEscape, hexQuad_control h]
  simp only [htrailing, hleading, Bool.false_eq_true, if_false, Char.ofNat_toNat]

/-- A character is read back from what it is written as. -/
theorem unquote_quoteChar (taken s : List Char) (c : Char) :
    unquote taken (quoteChar c ++ s) = unquote (c :: taken) s := by
  unfold quoteChar
  by_cases hquote : c = '"'
  · rw [if_pos hquote, hquote]
    exact unquote_escape taken rfl
  rw [if_neg hquote]
  by_cases hescape : c = '\\'
  · rw [if_pos hescape, hescape]
    exact unquote_escape taken rfl
  rw [if_neg hescape]
  by_cases hline : c = '\n'
  · rw [if_pos hline, hline]
    exact unquote_escape taken rfl
  rw [if_neg hline]
  by_cases hreturn : c = '\r'
  · rw [if_pos hreturn, hreturn]
    exact unquote_escape taken rfl
  rw [if_neg hreturn]
  by_cases htab : c = '\t'
  · rw [if_pos htab, htab]
    exact unquote_escape taken rfl
  rw [if_neg htab]
  by_cases hback : c.toNat = 8
  · obtain rfl : c = '\x08' := Char.toNat_inj.mp hback
    rw [if_pos hback]
    exact unquote_escape taken rfl
  rw [if_neg hback]
  by_cases hfeed : c.toNat = 12
  · obtain rfl : c = '\x0C' := Char.toNat_inj.mp hfeed
    rw [if_pos hfeed]
    exact unquote_escape taken rfl
  rw [if_neg hfeed]
  by_cases hcontrol : c.toNat < 32
  · rw [if_pos hcontrol]
    exact unquote_escape taken (escape_control hcontrol s)
  · rw [if_neg hcontrol]
    exact unquote_plain taken s hquote hescape hcontrol

/-- The characters of a string are read back up to the closing quote. -/
theorem unquote_flatMap_quoteChar (taken cs s : List Char) :
    unquote taken (cs.flatMap quoteChar ++ '"' :: s) = .ok (taken.reverse ++ cs, s) := by
  induction cs generalizing taken with
  | nil => rw [List.flatMap_nil, List.nil_append, unquote_quote, List.append_nil]
  | cons c cs ih =>
    rw [List.flatMap_cons, List.append_assoc, unquote_quoteChar, ih, List.reverse_cons,
      List.append_assoc, List.singleton_append]

end Redraw.Json
