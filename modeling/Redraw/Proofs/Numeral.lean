import Redraw.Bytes
import Redraw.Numeral

/-!
# Numerals read back

A written number is read back as that number, provided it lies below the limit of reading. In UTF-8
each of its digits is one byte, so that the written form of a 64-bit word has one to twenty bytes,
all of them digits.
-/

namespace Redraw

namespace Bytes

/-- Bytes that were made from a text are that text. -/
@[simp] theorem text?_ofText (text : String) : text? (ofText text) = some text := by
  have hbytes : (⟨(ofText text).toArray⟩ : ByteArray) = text.toByteArray := by
    simp only [ofText, Array.toArray_toList]
  rw [text?, hbytes, String.fromUTF8?, dif_pos text.isValidUTF8]
  rfl

/-- The UTF-8 form of ASCII characters has one byte for each. -/
theorem ofText_ofList_of_ascii {cs : List Char} (h : ∀ c ∈ cs, c.toNat < 128) :
    ofText (String.ofList cs) = cs.map Char.toUInt8 := by
  have hchar : ∀ c ∈ cs, String.utf8EncodeChar c = [c.toUInt8] := by
    intro c hc
    apply String.utf8EncodeChar_eq_singleton
    rw [Char.utf8Size_eq_one_iff, UInt32.le_iff_toNat_le]
    exact Nat.le_of_lt_succ (h c hc)
  rw [ofText, String.toByteArray_ofList, List.utf8Encode, List.data_toByteArray,
    List.toList_toArray, List.flatMap_def, List.map_congr_left hchar, ← List.flatMap_def,
    ← List.map_eq_flatMap]

end Bytes

namespace Numeral

theorem isDigit_of_mem_digits {n : Nat} {c : Char} (h : c ∈ digits n) : c.isDigit = true :=
  Nat.isDigit_of_mem_toDigits (by decide) (by decide) h

@[simp] theorem value_digits (n : Nat) : value (digits n) = n :=
  Nat.ofDigitChars_toDigits (by decide) (by decide)

/-- Written digits have no sign in front. -/
@[simp] theorem unsigned_digits (n : Nat) : unsigned (digits n) = digits n := by
  unfold unsigned
  split
  · rename_i rest h
    have hplus : '+' ∈ digits n := h ▸ List.mem_cons_self
    exact absurd (isDigit_of_mem_digits hplus) (by decide)
  · rfl

/-- A written number below the limit is read back. -/
theorem read?_digits {limit n : Nat} (h : n < limit) : read? limit (digits n) = some n := by
  have hne : (digits n).isEmpty = false := List.isEmpty_eq_false_iff.mpr Nat.toDigits_ne_nil
  have hall : (digits n).all Char.isDigit = true :=
    List.all_eq_true.mpr fun _ => isDigit_of_mem_digits
  simp [read?, hne, hall, h]

/-- A written word is read back. -/
@[simp] theorem word?_text (word : UInt64) : word? (text word.toNat) = some word := by
  rw [word?, text, String.toList_ofList, read?_digits word.toNat_lt]
  simp

/-- A written number has one byte for each of its digits. -/
theorem ofText_text (n : Nat) : Bytes.ofText (text n) = (digits n).map Char.toUInt8 := by
  apply Bytes.ofText_ofList_of_ascii
  intro c hc
  have hdigit := Char.isDigit_iff_toNat.mp (isDigit_of_mem_digits hc)
  exact Nat.lt_of_le_of_lt hdigit.2 (by decide)

/-- The bytes of a written number are digits. -/
theorem mem_ofText_text {n : Nat} {byte : UInt8} (h : byte ∈ Bytes.ofText (text n)) :
    48 ≤ byte ∧ byte ≤ 57 := by
  rw [ofText_text] at h
  obtain ⟨c, hc, rfl⟩ := List.mem_map.mp h
  have hdigit : 48 ≤ c.toNat ∧ c.toNat ≤ 57 :=
    Char.isDigit_iff_toNat.mp (isDigit_of_mem_digits hc)
  have hlt : c.toNat < 256 := by omega
  have hbyte : c.toUInt8.toNat = c.toNat := Nat.mod_eq_of_lt hlt
  rw [UInt8.le_iff_toNat_le, UInt8.le_iff_toNat_le, hbyte]
  exact hdigit

theorem ofText_text_ne_nil (n : Nat) : Bytes.ofText (text n) ≠ [] := by
  rw [ofText_text, ne_eq, List.map_eq_nil_iff]
  exact Nat.toDigits_ne_nil

/-- No 64-bit word takes more than twenty digits. -/
theorem length_ofText_text_le (word : UInt64) : (Bytes.ofText (text word.toNat)).length ≤ 20 := by
  rw [ofText_text, List.length_map, digits, Nat.length_toDigits_le_iff (by decide) (by decide)]
  exact Nat.lt_trans word.toNat_lt (by decide)

end Numeral

end Redraw
