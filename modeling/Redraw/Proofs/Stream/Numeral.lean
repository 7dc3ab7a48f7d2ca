import Redraw.Stream.Token
import Redraw.Proofs.Numeral

/-!
# Tokens that are numerals

Whether a token is a numeral, and of which number, can be told from its bytes: behind one plus sign
at most there are digits, and nothing else. That they are text need not be asked for, since digits
are; and a text that is read as a number has no other bytes.
-/

namespace Redraw

namespace Token

/-- What follows an optional plus sign. -/
def digits (token : Bytes) : Bytes :=
  if token.head? = some 43 then token.tail else token

/-- The number that the digits of a token stand for. -/
def value (token : Bytes) : Nat :=
  (digits token).foldl (fun n byte => 10 * n + (byte.toNat - 48)) 0

/-- An optional plus sign and one or more decimal digits. -/
structure IsUnsigned (token : Bytes) : Prop where
  /-- There is a digit. -/
  ne_nil : digits token ≠ []
  /-- There is nothing but digits. -/
  isDigit : ∀ byte ∈ digits token, 48 ≤ byte ∧ byte ≤ 57

/-- A numeral of a 64-bit word, no longer than a token may be. -/
structure IsNumeral (token : Bytes) : Prop extends IsUnsigned token where
  /-- The token is not too long. -/
  length_le : token.length ≤ limit
  /-- The number fits in a word. -/
  lt_size : value token < UInt64.size

/-- The bytes of an unsigned numeral are ASCII. -/
theorem IsUnsigned.lt_of_mem {token : Bytes} (h : IsUnsigned token) {byte : UInt8}
    (hbyte : byte ∈ token) : byte.toNat < 128 := by
  have hdigit : ∀ b ∈ digits token, b.toNat < 128 := fun b hb =>
    Nat.lt_of_le_of_lt (UInt8.le_iff_toNat_le.mp (h.isDigit b hb).2) (by decide)
  by_cases hplus : token.head? = some 43
  · obtain ⟨rest, rfl⟩ := List.head?_eq_some_iff.mp hplus
    rcases List.mem_cons.mp hbyte with rfl | hrest
    · decide
    · exact hdigit byte hrest
  · rw [digits, if_neg hplus] at hdigit
    exact hdigit byte hbyte

end Token

namespace Numeral

/-- A plus sign in front is a byte in front. -/
theorem unsigned_map (bytes : Bytes) :
    unsigned (bytes.map Char.ofUInt8) = (Token.digits bytes).map Char.ofUInt8 := by
  cases bytes with
  | nil => rfl
  | cons byte bytes =>
    rw [List.map_cons, Token.digits, List.head?_cons]
    by_cases hplus : byte = 43
    · rw [if_pos (congrArg some hplus), hplus]
      rfl
    · rw [if_neg fun h => hplus (Option.some.inj h)]
      unfold unsigned
      split
      · rename_i h
        have hnat : byte.toNat = UInt8.toNat 43 := congrArg Char.toNat (List.cons.inj h).1
        exact absurd (UInt8.toNat_inj.mp hnat) hplus
      · rfl

/-- Bytes and their characters stand for the same number. -/
theorem value_unsigned_map (bytes : Bytes) :
    value (unsigned (bytes.map Char.ofUInt8)) = Token.value bytes := by
  rw [unsigned_map, value, Nat.ofDigitChars_eq_foldl, List.foldl_map]
  rfl

/-- A byte is a digit when its character is. -/
theorem isDigit_ofUInt8_iff (byte : UInt8) :
    (Char.ofUInt8 byte).isDigit = true ↔ 48 ≤ byte ∧ byte ≤ 57 := by
  rw [Char.isDigit_iff_toNat, UInt8.le_iff_toNat_le, UInt8.le_iff_toNat_le]
  exact Iff.rfl

/-- What is read as a number has digits, and the number lies below the limit. -/
theorem read?_eq_some_iff {limit n : Nat} {cs : List Char} :
    read? limit cs = some n ↔ unsigned cs ≠ [] ∧ (∀ c ∈ unsigned cs, c.isDigit = true) ∧
      value (unsigned cs) = n ∧ n < limit := by
  simp only [read?, Option.ite_none_right_eq_some, Bool.and_eq_true, Bool.not_eq_true',
    List.isEmpty_eq_false_iff, List.all_eq_true, decide_eq_true_eq, Option.some.injEq]
  constructor
  · rintro ⟨⟨⟨hne, hdigit⟩, hlt⟩, rfl⟩
    exact ⟨hne, hdigit, rfl, hlt⟩
  · rintro ⟨hne, hdigit, rfl, hlt⟩
    exact ⟨⟨⟨hne, hdigit⟩, hlt⟩, rfl⟩

/-- The characters of bytes are read as a number when the bytes are a numeral of it. -/
theorem read?_map_eq_some_iff {limit n : Nat} {bytes : Bytes} :
    read? limit (bytes.map Char.ofUInt8) = some n ↔
      Token.IsUnsigned bytes ∧ Token.value bytes = n ∧ n < limit := by
  rw [read?_eq_some_iff, value_unsigned_map, unsigned_map, List.forall_mem_map, ne_eq,
    List.map_eq_nil_iff]
  simp only [isDigit_ofUInt8_iff]
  constructor
  · rintro ⟨hne, hdigit, hvalue⟩
    exact ⟨⟨hne, hdigit⟩, hvalue⟩
  · rintro ⟨⟨hne, hdigit⟩, hvalue⟩
    exact ⟨hne, hdigit, hvalue⟩

/-- What is read as a number is ASCII. -/
theorem lt_of_read? {limit n : Nat} {cs : List Char} (h : read? limit cs = some n) {c : Char}
    (hc : c ∈ cs) : c.toNat < 128 := by
  have hdigits : ∀ c ∈ unsigned cs, c.toNat < 128 := by
    intro c hc
    have hdigit := Char.isDigit_iff_toNat.mp ((read?_eq_some_iff.mp h).2.1 c hc)
    exact Nat.lt_of_le_of_lt hdigit.2 (by decide)
  unfold unsigned at hdigits
  split at hdigits
  · rcases List.mem_cons.mp hc with rfl | hrest
    · decide
    · exact hdigits c hrest
  · exact hdigits c hc

end Numeral

namespace Bytes

/-- Texts with the same bytes are the same. -/
theorem ofText_injective {text text' : String} (h : ofText text = ofText text') : text = text' := by
  refine Option.some.inj ?_
  rw [← text?_ofText, h, text?_ofText]

/-- Characters of one byte each are those of their bytes. -/
theorem map_ofUInt8_map_toUInt8 {cs : List Char} (h : ∀ c ∈ cs, c.toNat < 128) :
    (cs.map Char.toUInt8).map Char.ofUInt8 = cs := by
  rw [List.map_map]
  refine (List.map_congr_left fun c hc => ?_).trans (List.map_id cs)
  refine Char.toNat_inj.mp (Nat.mod_eq_of_lt ?_)
  exact Nat.lt_trans (h c hc) (by decide)

/-- ASCII bytes are the UTF-8 form of their characters. -/
theorem ofText_ofList_map {bytes : Bytes} (h : ∀ byte ∈ bytes, byte.toNat < 128) :
    ofText (String.ofList (bytes.map Char.ofUInt8)) = bytes := by
  rw [ofText_ofList_of_ascii (List.forall_mem_map.mpr h), List.map_map]
  exact (List.map_congr_left fun byte _ => UInt8.toUInt8_toUInt32 byte).trans (List.map_id bytes)

end Bytes

/-- A text is read as a word when its bytes are a numeral of it. -/
theorem Numeral.word?_eq_some_iff {text : String} {word : UInt64} :
    word? text = some word ↔
      Token.IsUnsigned (Bytes.ofText text) ∧ Token.value (Bytes.ofText text) = word.toNat := by
  rw [word?, Option.map_eq_some_iff]
  constructor
  · rintro ⟨n, hread, rfl⟩
    have hascii : ∀ c ∈ text.toList, c.toNat < 128 := fun c => lt_of_read? hread
    have hbytes : Bytes.ofText text = text.toList.map Char.toUInt8 := by
      rw [← Bytes.ofText_ofList_of_ascii hascii, String.ofList_toList]
    rw [← Bytes.map_ofUInt8_map_toUInt8 hascii, ← hbytes, read?_map_eq_some_iff] at hread
    exact ⟨hread.1, hread.2.1.trans (UInt64.toNat_ofNat_of_lt' hread.2.2).symm⟩
  · rintro ⟨hdigits, hvalue⟩
    refine ⟨word.toNat, ?_, UInt64.ofNat_toNat⟩
    have htext : text = String.ofList ((Bytes.ofText text).map Char.ofUInt8) :=
      Bytes.ofText_injective (Bytes.ofText_ofList_map fun _ => hdigits.lt_of_mem).symm
    rw [htext, String.toList_ofList, read?_map_eq_some_iff]
    exact ⟨hdigits, hvalue, word.toNat_lt⟩

/-- Unsigned numerals are text. -/
theorem Token.IsUnsigned.exists_text {token : Bytes} (h : IsUnsigned token) :
    ∃ text, Bytes.ofText text = token :=
  ⟨_, Bytes.ofText_ofList_map fun _ => h.lt_of_mem⟩

end Redraw
