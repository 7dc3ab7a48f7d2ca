import Redraw.Proofs.Snapshot.Grammar
import Redraw.Proofs.Snapshot.RoundTrip

/-!
# Text forms that are cut off

Wherever a text form is cut off, what is left are whole tokens and a part of the one in which the
cut falls. A part of a number is a number still, and it may well be read as one; but then the end
marker is missing, and what is left is no text form. Only the space behind the end marker can be
lost: the end of the input does as well.
-/

namespace Redraw

namespace Token

/-- Words with a blank behind each are cut into those words. -/
theorem cuts_flatten {words : List Bytes} (h : ∀ word ∈ words, IsWord word) {blank : UInt8}
    (hblank : isBlank blank = true) (more : Bytes) :
    Cuts ((words.map (· ++ [blank])).flatten ++ more) words more := by
  induction words with
  | nil => rfl
  | cons word words ih =>
    rw [List.forall_mem_cons] at h
    refine ⟨_, ⟨[], by simp, h.1, Or.inl ⟨blank, hblank, ?_⟩⟩, ih h.2⟩
    simp only [List.map_cons, List.flatten_cons, List.append_assoc, List.cons_append,
      List.nil_append]

/-- Bytes without a blank are one token at most. -/
theorem split_of_not_blank {bytes : Bytes} (h : ∀ byte ∈ bytes, isBlank byte = false) :
    split bytes = [] ∨ split bytes = [bytes] := by
  by_cases hne : bytes = []
  · rw [hne]
    exact Or.inl split_nil
  · exact Or.inr (split_word hne h)

/-- However words are cut off, there are no more tokens left than there were words. -/
theorem length_split_le_of_front {words : List Bytes} (h : ∀ word ∈ words, IsWord word)
    {blank : UInt8} (hblank : isBlank blank = true) {front : Bytes}
    (hfront : front <+: (words.map (· ++ [blank])).flatten) :
    (split front).length ≤ words.length := by
  induction words generalizing front with
  | nil =>
    rw [List.prefix_nil.mp hfront]
    exact Nat.le_refl 0
  | cons word words ih =>
    rw [List.forall_mem_cons] at h
    rw [List.map_cons, List.flatten_cons, List.append_assoc, List.singleton_append] at hfront
    rcases Nat.lt_or_ge word.length front.length with hlt | hle
    · -- The cut falls behind the first word and its blank.
      have hwhole : word ++ [blank] <+: word ++ blank :: (words.map (· ++ [blank])).flatten :=
        List.prefix_append_right_inj word |>.mpr (by simp)
      obtain ⟨behind, rfl⟩ := List.prefix_of_prefix_length_le hwhole hfront
        (by rw [List.length_append]; exact Nat.succ_le_of_lt hlt)
      rw [List.append_assoc, List.prefix_append_right_inj, List.singleton_append,
        List.cons_prefix_cons] at hfront
      rw [List.append_assoc, List.singleton_append, split_append_cons _ _ hblank,
        split_word h.1.ne_nil h.1.not_blank, List.length_append, List.length_cons, Nat.add_comm]
      exact Nat.succ_le_succ (ih h.2 hfront.2)
    · have hpart := List.prefix_of_prefix_length_le hfront (List.prefix_append word _) hle
      rcases split_of_not_blank fun byte hbyte => h.1.not_blank byte (hpart.subset hbyte) with
        hsplit | hsplit
      · rw [hsplit]
        exact Nat.zero_le _
      · rw [hsplit]
        exact Nat.succ_le_succ (Nat.zero_le _)

end Token

namespace Snapshot

open Reading
open Token (Cut Cuts IsNumeral IsWord)

variable {s : Snapshot} {front : Bytes}

/-- The tokens before the end marker. -/
def opening (s : Snapshot) : List Bytes :=
  Bytes.ofText beginMarker :: numberToken s.seed :: numberToken s.index :: s.words.map numberToken

theorem isWord_of_mem_opening {token : Bytes} (h : token ∈ s.opening) : IsWord token := by
  simp only [opening, List.mem_cons, List.mem_map] at h
  rcases h with rfl | rfl | rfl | ⟨word, _, rfl⟩
  · exact isWord_beginMarker
  · exact isWord_numberToken _
  · exact isWord_numberToken _
  · exact isWord_numberToken _

theorem length_opening (h : s.words.length = blockSize) : s.opening.length = 315 := by
  rw [opening, List.length_cons, List.length_cons, List.length_cons, List.length_map, h]

/-- The written tokens before the end marker, each with its space. -/
def openingBytes (s : Snapshot) : Bytes :=
  (s.opening.map (· ++ [space])).flatten

/-- The text form is the tokens before the end marker, the end marker and a space. -/
theorem encode_eq_opening (s : Snapshot) :
    s.encode = s.openingBytes ++ Bytes.ofText endMarker ++ [space] := by
  have htokens : s.tokens = s.opening ++ [Bytes.ofText endMarker] := rfl
  rw [encode, pieces, htokens, List.map_append, List.flatten_append, List.append_assoc]
  rfl

theorem length_encode (s : Snapshot) : s.encode.length = s.openingBytes.length + 13 := by
  rw [encode_eq_opening, List.length_append, List.length_append]
  rfl

/-- Before the end marker there are too few tokens for a text form. -/
theorem not_isForm_of_openingBytes (h : s.words.length = blockSize)
    (hfront : front <+: s.openingBytes) : ¬ IsForm (Token.split front) := by
  intro hform
  have hlast := (List.getElem?_eq_some_iff.mp hform.ends).1
  have hcount := Token.length_split_le_of_front (fun _ => isWord_of_mem_opening) rfl hfront
  rw [length_opening h] at hcount
  exact absurd hlast (Nat.not_lt.mpr hcount)

/-- A part of the end marker does not end a text form. -/
theorem not_isForm_of_endMarker (h : s.words.length = blockSize) {part : Bytes}
    (hpart : part <+: Bytes.ofText endMarker)
    (hlength : part.length < (Bytes.ofText endMarker).length) :
    ¬ IsForm (Token.split (s.openingBytes ++ part)) := by
  intro hform
  have hends := hform.ends
  rw [openingBytes, (Token.cuts_flatten (fun _ => isWord_of_mem_opening) rfl part).split_eq,
    List.getElem?_append_right (Nat.le_of_eq (length_opening h)), length_opening h] at hends
  rcases Token.split_of_not_blank fun byte hbyte =>
    isWord_endMarker.not_blank byte (hpart.subset hbyte) with hsplit | hsplit
  · rw [hsplit] at hends
    cases hends
  · rw [hsplit] at hends
    obtain rfl : part = Bytes.ofText endMarker := Option.some.inj hends
    exact absurd hlength (Nat.lt_irrefl _)

/-- What is left of a text form by losing its last two bytes, or more, has not the tokens of one. -/
theorem not_isForm_of_front (h : s.words.length = blockSize) (hfront : front <+: s.encode)
    (hshort : front.length + 2 ≤ s.encode.length) : ¬ IsForm (Token.split front) := by
  rw [encode_eq_opening, List.append_assoc] at hfront
  have hbefore : s.openingBytes <+: s.openingBytes ++ (Bytes.ofText endMarker ++ [space]) :=
    List.prefix_append _ _
  rcases Nat.lt_or_ge s.openingBytes.length front.length with hlt | hle
  · obtain ⟨part, rfl⟩ := List.prefix_of_prefix_length_le hbefore hfront (Nat.le_of_lt hlt)
    rw [List.prefix_append_right_inj] at hfront
    have hlength : part.length < (Bytes.ofText endMarker).length := by
      have hmarker : (Bytes.ofText endMarker).length = 12 := rfl
      rw [length_encode, List.length_append] at hshort
      omega
    exact not_isForm_of_endMarker h
      (List.prefix_of_prefix_length_le hfront (List.prefix_append _ _) (Nat.le_of_lt hlength))
      hlength
  · exact not_isForm_of_openingBytes h (List.prefix_of_prefix_length_le hfront hbefore hle)

/-- A written number is a numeral of that number. -/
theorem isNumeral_numberToken (word : UInt64) :
    IsNumeral (numberToken word) ∧ Token.value (numberToken word) = word.toNat :=
  (isNumeral_ofText_iff (isWord_numberToken word).length_le).mp (Numeral.word?_text word)

/-- Bytes that are cut into the tokens of a snapshot are decoded to it. -/
theorem yields_decode_of_cuts (h : s.words.length = blockSize) {left : Bytes}
    (hcuts : Cuts front (s.opening ++ [Bytes.ofText endMarker]) left) :
    Yields decode front s left := by
  have hnumeral : ∀ words : List UInt64,
      (∀ token ∈ words.map numberToken, IsNumeral token) ∧
        (words.map numberToken).map Token.value = words.map UInt64.toNat := by
    intro words
    rw [List.forall_mem_map, List.map_map]
    exact ⟨fun word _ => (isNumeral_numberToken word).1,
      List.map_congr_left fun word _ => (isNumeral_numberToken word).2⟩
  obtain ⟨hnumerals, hvalues⟩ := hnumeral (s.seed :: s.index :: s.words)
  exact yields_decode_iff.mpr ⟨h, _, hcuts, hnumerals, hvalues⟩

/-- What is left of a text form by losing no more than its last byte is decoded to the snapshot. -/
theorem yields_decode_of_front (h : s.words.length = blockSize) (hfront : front <+: s.encode)
    (hlong : s.encode.length ≤ front.length + 1) : Yields decode front s [] := by
  have hwords : ∀ word ∈ s.opening, IsWord word := fun _ => isWord_of_mem_opening
  rw [length_encode] at hlong
  rw [encode_eq_opening] at hfront
  rcases List.prefix_concat_iff.mp hfront with rfl | hmarker
  · refine yields_decode_of_cuts h (Token.cuts_append_iff.mpr
      ⟨Bytes.ofText endMarker ++ [space], ?_, [],
        ⟨[], by simp, isWord_endMarker, Or.inl ⟨space, rfl, rfl⟩⟩, rfl⟩)
    rw [List.append_assoc]
    exact Token.cuts_flatten hwords rfl _
  · have hlength : (Bytes.ofText endMarker).length = 12 := rfl
    obtain rfl := hmarker.eq_of_length_le (by rw [List.length_append]; omega)
    exact yields_decode_of_cuts h (Token.cuts_append_iff.mpr
      ⟨Bytes.ofText endMarker, Token.cuts_flatten hwords rfl _, [],
        ⟨[], by simp, isWord_endMarker, Or.inr ⟨rfl, rfl⟩⟩, rfl⟩)

/-- However many bytes of a text form are left, and however they are cut into chunks: they are
malformed if two or more are lost, and decoded to the snapshot otherwise. -/
theorem decode_run_take (h : s.words.length = blockSize) (k : Nat) {chunks : List Bytes}
    (hbytes : chunks.flatten = s.encode.take k) :
    (k + 2 ≤ s.encode.length → ∃ cause left,
      decode.run.run ⟨chunks, .closed⟩ = (.error (.malformed cause), left)) ∧
    (s.encode.length ≤ k + 1 → ∃ after : List Bytes,
      decode.run.run ⟨chunks, .closed⟩ = (.ok s, ⟨after, .closed⟩) ∧ after.flatten = []) := by
  have hfront : chunks.flatten <+: s.encode := hbytes ▸ List.take_prefix k s.encode
  have hlength : chunks.flatten.length = min k s.encode.length := by
    rw [hbytes, List.length_take]
  refine ⟨fun hshort => ?_, fun hlong => ?_⟩
  · obtain ⟨result, left, hrun⟩ := tokenwise_decode.run_of_closed chunks
    cases result with
    | error cause => exact ⟨cause, left, hrun⟩
    | ok other =>
      have hform := (isForm_of_yields (tokenwise_decode.yields hrun)).1
      exact absurd hform (not_isForm_of_front h hfront (by omega))
  · exact yields_decode_of_front h hfront (by omega) chunks rfl

end Snapshot

end Redraw
