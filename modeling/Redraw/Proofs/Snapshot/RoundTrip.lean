import Redraw.Proofs.Stream.Taking
import Redraw.Snapshot.Decode

/-!
# Snapshots read back

The text form of a snapshot with as many words as a block holds is read back as that snapshot.
Reading takes exactly the bytes of the text form: it ends behind the space after the end marker, so
that whatever follows in the same stream, blanks and digits included, is left for the next reader.
-/

namespace Redraw.Snapshot

open Reading

/-- A written number is a word of digits. -/
theorem isWord_numberToken (word : UInt64) : Token.IsWord (numberToken word) where
  ne_nil := Numeral.ofText_text_ne_nil _
  not_blank byte h := by
    have hdigit := Numeral.mem_ofText_text h
    simp only [UInt8.le_iff_toNat_le] at hdigit
    simp only [Token.isBlank, Bool.or_eq_false_iff, beq_eq_false_iff_ne, ne_eq, ← UInt8.toNat_inj]
    simp only [UInt8.reduceToNat] at hdigit ⊢
    omega
  length_le := Nat.le_trans (Numeral.length_ofText_text_le word) (by decide)

theorem isWord_beginMarker : Token.IsWord (Bytes.ofText beginMarker) where
  ne_nil := by decide
  not_blank := by decide +kernel
  length_le := by decide

theorem isWord_endMarker : Token.IsWord (Bytes.ofText endMarker) where
  ne_nil := by decide
  not_blank := by decide +kernel
  length_le := by decide

/-- No number is written like the end marker. -/
theorem text_ne_endMarker (n : Nat) : Numeral.text n ≠ endMarker := by
  intro h
  have hletter : (101 : UInt8) ∈ Bytes.ofText (Numeral.text n) := by
    rw [h]
    decide
  exact absurd (Numeral.mem_ofText_text hletter).2 (by decide)

/-- A marker is taken with its space. -/
theorem takes_readMarker (part : String) {marker : String}
    (h : Token.IsWord (Bytes.ofText marker)) :
    Takes (readMarker part marker) (Bytes.ofText marker ++ [space]) () := by
  rw [← List.append_nil (_ ++ [space])]
  refine (Token.takes_next part h rfl).bind ?_
  rw [if_neg (not_not_intro rfl)]
  exact takes_pure ()

theorem takes_number (part : String) (word : UInt64) :
    Takes (number part (Numeral.text word.toNat)) [] word := by
  rw [number, Numeral.word?_text]
  exact takes_pure word

theorem takes_readNumber (part : String) (word : UInt64) :
    Takes (readNumber part) (numberToken word ++ [space]) word := by
  rw [← List.append_nil (_ ++ [space])]
  exact (Token.takes_next part (isWord_numberToken word) rfl).bind (takes_number part word)

theorem takes_readWord (before : Nat) (word : UInt64) :
    Takes (readWord before) (numberToken word ++ [space]) word := by
  rw [← List.append_nil (_ ++ [space])]
  refine (Token.takes_next wordPart (isWord_numberToken word) rfl).bind ?_
  rw [if_neg (text_ne_endMarker _)]
  exact takes_number wordPart word

/-- State words are taken one after the other. -/
theorem takes_readWords (before : Nat) (words : List UInt64) :
    Takes (readWords before words.length) (words.flatMap fun word => numberToken word ++ [space])
      words := by
  induction words generalizing before with
  | nil => exact takes_pure []
  | cons word words ih =>
    rw [List.flatMap_cons, ← List.append_nil (words.flatMap _)]
    exact (takes_readWord before word).bind ((ih (before + 1)).bind (takes_pure _))

/-- The text form, part by part. -/
theorem encode_eq (s : Snapshot) :
    s.encode = (Bytes.ofText beginMarker ++ [space]) ++ ((numberToken s.seed ++ [space]) ++
      ((numberToken s.index ++ [space]) ++
        ((s.words.flatMap fun word => numberToken word ++ [space]) ++
          (Bytes.ofText endMarker ++ [space])))) := by
  simp only [encode, pieces, tokens, List.cons_append, List.map_cons, List.map_append,
    List.map_map, List.map_nil, List.flatten_cons, List.flatten_append, List.flatten_nil,
    List.append_nil, List.append_assoc, List.flatMap_def, Function.comp_def]

/-- Reading takes exactly the text form of a snapshot of full length. -/
theorem takes_decode {s : Snapshot} (h : s.words.length = blockSize) :
    Takes decode s.encode s := by
  rw [encode_eq, ← List.append_nil (Bytes.ofText endMarker ++ [space])]
  refine (takes_readMarker "begin marker" isWord_beginMarker).bind ?_
  refine (takes_readNumber "seed" s.seed).bind ?_
  refine (takes_readNumber "index" s.index).bind ?_
  rw [← h]
  refine (takes_readWords 0 s.words).bind ?_
  exact (takes_readMarker "end marker" isWord_endMarker).bind (takes_pure s)

end Redraw.Snapshot
