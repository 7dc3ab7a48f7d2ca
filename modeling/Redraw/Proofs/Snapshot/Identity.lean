import Mathlib.Data.List.Basic
import Redraw.Proofs.Snapshot.Truncation

/-!
# What the text form tells

The text form tells snapshots apart, whatever the numbers of their words: none is the front of the
text form of another snapshot. So the fingerprint, which is the digest of the text form, is that of
the seed, of the index, and of every word in its place. Reading is more strict: it wants as many
words as a block holds, and refuses the text form where there are fewer words or more.
-/

namespace Redraw

namespace Reading

variable {α β : Type}

/-- Off any input that starts with the bytes, the reading is refused for the cause. -/
def Rejects (reading : Reading α) (bytes : Bytes) (cause : Malformed) : Prop :=
  ∀ (input : Input) (more : Bytes), input.rest = bytes ++ more →
    ∃ left : Input, reading.run.run input = (.error (.malformed cause), left)

theorem rejects_throw (cause : Malformed) :
    Rejects (throw (.malformed cause) : Reading α) [] cause :=
  fun input _ _ => ⟨input, rfl⟩

/-- What follows the bytes for which a reading is refused makes no difference. -/
theorem Rejects.append {reading : Reading α} {bytes : Bytes} {cause : Malformed}
    (h : Rejects reading bytes cause) (behind : Bytes) :
    Rejects reading (bytes ++ behind) cause := by
  intro input more hrest
  rw [List.append_assoc] at hrest
  exact h input (behind ++ more) hrest

/-- Of two readings, both are refused when the first is. -/
theorem Rejects.bind {reading : Reading α} {bytes : Bytes} {cause : Malformed}
    (h : Rejects reading bytes cause) (next : α → Reading β) :
    Rejects (reading >>= next) bytes cause := by
  intro input more hrest
  obtain ⟨left, hrun⟩ := h input more hrest
  exact ⟨left, run_bind_error hrun⟩

/-- Of two readings, both are refused when the second is, off what the first leaves. -/
theorem Takes.bind_rejects {reading : Reading α} {next : α → Reading β} {bytes bytes' : Bytes}
    {value : α} {cause : Malformed} (h : Takes reading bytes value)
    (h' : Rejects (next value) bytes' cause) :
    Rejects (reading >>= next) (bytes ++ bytes') cause := by
  intro input more hrest
  obtain ⟨mid, hrun, hmid, _⟩ := h input (bytes' ++ more) (by rw [hrest, List.append_assoc])
  obtain ⟨left, hrun'⟩ := h' mid more hmid
  exact ⟨left, (run_bind hrun).trans hrun'⟩

end Reading

namespace Snapshot

open Reading
open Token (IsWord)

theorem numberToken_injective : Function.Injective numberToken := by
  intro word word' h
  refine Option.some.inj ?_
  rw [← Numeral.word?_text word, Bytes.ofText_injective h, Numeral.word?_text]

/-- Nothing before the end marker is written like it. -/
theorem endMarker_notMem_opening (s : Snapshot) : Bytes.ofText endMarker ∉ s.opening := by
  have hnumber : ∀ word, numberToken word ≠ Bytes.ofText endMarker :=
    fun word h => text_ne_endMarker _ (Bytes.ofText_injective h)
  simp only [opening, List.mem_cons, List.mem_map, not_or, not_exists, not_and]
  exact ⟨by decide, (hnumber _).symm, (hnumber _).symm, fun word _ => hnumber word⟩

/-- The tokens before the end marker are those of one snapshot only. -/
theorem opening_injective : Function.Injective opening := by
  rintro ⟨seed, index, words⟩ ⟨seed', index', words'⟩ h
  obtain ⟨hseed, h⟩ := List.cons.inj (List.cons.inj h).2
  obtain ⟨hindex, hwords⟩ := List.cons.inj h
  rw [Snapshot.mk.injEq]
  exact ⟨numberToken_injective hseed, numberToken_injective hindex,
    List.map_injective_iff.mpr numberToken_injective hwords⟩

theorem tokens_eq_opening (s : Snapshot) : s.tokens = s.opening ++ [Bytes.ofText endMarker] :=
  rfl

theorem isWord_of_mem_tokens {s : Snapshot} {token : Bytes} (h : token ∈ s.tokens) :
    IsWord token := by
  rw [tokens_eq_opening, List.mem_append, List.mem_singleton] at h
  rcases h with hopening | rfl
  · exact isWord_of_mem_opening hopening
  · exact isWord_endMarker

/-- The text form splits into its tokens, whatever stands behind it. -/
theorem split_encode_append (s : Snapshot) (more : Bytes) :
    Token.split (s.encode ++ more) = s.tokens ++ Token.split more :=
  (Token.cuts_flatten (fun _ => isWord_of_mem_tokens) rfl more).split_eq

/-- A text form that is the front of another one is that one, and of the same snapshot. -/
theorem eq_of_isPrefix_encode {s t : Snapshot} (h : s.encode <+: t.encode) : s = t := by
  obtain ⟨more, hmore⟩ := h
  have hsplit : t.tokens = s.tokens ++ Token.split more := by
    rw [← split_encode_append, hmore, ← List.append_nil t.encode, split_encode_append,
      Token.split_nil, List.append_nil]
  rw [tokens_eq_opening, tokens_eq_opening, List.append_assoc, List.singleton_append] at hsplit
  -- The end marker is the last token of the one, so that nothing stands behind it in the other.
  have hopening := (List.append_cons_inj_of_notMem (endMarker_notMem_opening t)
    List.not_mem_nil).mp hsplit
  exact opening_injective hopening.1.symm

/-- An end marker in place of a state word ends the words too early. -/
theorem rejects_readWord (before : Nat) :
    Rejects (readWord before) (Bytes.ofText endMarker ++ [space]) (.endedEarly before) := by
  rw [readWord_eq, ← List.append_nil (_ ++ [space])]
  refine (Token.takes_next wordPart isWord_endMarker rfl).bind_rejects ?_
  rw [if_pos rfl]
  exact rejects_throw _

/-- Fewer words than are wanted, with the end marker behind them, are refused by their number. -/
theorem rejects_readWords (before : Nat) {words : List UInt64} {n : Nat} (h : words.length < n) :
    Rejects (readWords before n) ((words.flatMap fun word => numberToken word ++ [space]) ++
      (Bytes.ofText endMarker ++ [space])) (.endedEarly (before + words.length)) := by
  induction words generalizing before n with
  | nil =>
    obtain ⟨n, rfl⟩ := Nat.exists_eq_succ_of_ne_zero (Nat.ne_of_gt h)
    exact (rejects_readWord before).bind _
  | cons word words ih =>
    obtain ⟨n, rfl⟩ := Nat.exists_eq_succ_of_ne_zero (Nat.ne_zero_of_lt h)
    have hrest := ih (before + 1) (Nat.lt_of_succ_lt_succ h)
    rw [Nat.add_right_comm] at hrest
    rw [List.flatMap_cons, List.append_assoc]
    exact (takes_readWord before word).bind_rejects (hrest.bind _)

/-- Any other token in place of a marker is refused. -/
theorem rejects_readMarker (part : String) {expected token : String}
    (h : IsWord (Bytes.ofText token)) (hne : token ≠ expected) :
    Rejects (readMarker part expected) (Bytes.ofText token ++ [space])
      (.wrongMarker expected token) := by
  rw [← List.append_nil (_ ++ [space])]
  refine (Token.takes_next part h rfl).bind_rejects ?_
  rw [if_pos hne]
  exact rejects_throw _

variable {s : Snapshot}

/-- The text form with too few words is refused by their number. -/
theorem rejects_decode_of_lt (h : s.words.length < blockSize) :
    Rejects decode s.encode (.endedEarly s.words.length) := by
  have hwords := rejects_readWords 0 h
  rw [Nat.zero_add] at hwords
  rw [encode_eq]
  refine (takes_readMarker "begin marker" isWord_beginMarker).bind_rejects ?_
  refine (takes_readNumber "seed" s.seed).bind_rejects ?_
  refine (takes_readNumber "index" s.index).bind_rejects ?_
  exact hwords.bind _

/-- The text form with too many words is refused for the first of them that is too many: it stands
in the place of the end marker. -/
theorem rejects_decode_of_gt (h : blockSize < s.words.length) :
    Rejects decode s.encode (.wrongMarker endMarker (Numeral.text s.words[blockSize].toNat)) := by
  have hfull : (s.words.take blockSize).length = blockSize :=
    List.length_take_of_le (Nat.le_of_lt h)
  have hmarker := rejects_readMarker "end marker" (isWord_numberToken s.words[blockSize])
    (text_ne_endMarker _)
  have hwords := takes_readWords 0 (s.words.take blockSize)
  rw [hfull] at hwords
  have hbytes : (s.words.flatMap fun word => numberToken word ++ [space]) ++
      (Bytes.ofText endMarker ++ [space]) =
        ((s.words.take blockSize).flatMap fun word => numberToken word ++ [space]) ++
          ((numberToken s.words[blockSize] ++ [space]) ++
            (((s.words.drop (blockSize + 1)).flatMap fun word => numberToken word ++ [space]) ++
              (Bytes.ofText endMarker ++ [space]))) := by
    conv_lhs => rw [← List.take_append_drop blockSize s.words, List.drop_eq_getElem_cons h]
    rw [List.flatMap_append, List.flatMap_cons]
    simp only [List.append_assoc]
  rw [encode_eq]
  refine (takes_readMarker "begin marker" isWord_beginMarker).bind_rejects ?_
  refine (takes_readNumber "seed" s.seed).bind_rejects ?_
  refine (takes_readNumber "index" s.index).bind_rejects ?_
  rw [hbytes]
  exact hwords.bind_rejects ((hmarker.append _).bind _)

/-- Decoding bytes that start with a rejected text form comes to the cause. -/
theorem decoded_of_rejects {bytes more : Bytes} {cause : Malformed}
    (h : Rejects decode bytes cause) {chunks : List Bytes} (hbytes : chunks.flatten = bytes ++ more)
    (ending : Ending) : decoded chunks ending = .error (.malformed cause) := by
  obtain ⟨left, hrun⟩ := h ⟨chunks, ending⟩ more hbytes
  rw [decoded, hrun]

/-- The text form of which the fingerprint is the digest is no front of that of another snapshot,
whatever the numbers of their words. Where it comes first in an input, whatever follows, it is
decoded to the snapshot exactly when there are as many words as a block holds. Fewer words are
refused by their number; of more words, the first that is too many is refused as no end marker. -/
theorem encode_identifies :
    (∀ s t : Snapshot, s.encode <+: t.encode ↔ s = t) ∧
    (∀ s : Snapshot, s.fingerprint = Bytes.hex (Sha256.digest s.encode)) ∧
    ∀ (s : Snapshot) (more : Bytes) (chunks : List Bytes) (ending : Ending),
      chunks.flatten = s.encode ++ more →
      ((∃ t, decoded chunks ending = .ok t) ↔ s.words.length = blockSize) ∧
      (s.words.length = blockSize → decoded chunks ending = .ok s) ∧
      (s.words.length < blockSize →
        decoded chunks ending = .error (.malformed (.endedEarly s.words.length))) ∧
      (blockSize < s.words.length → ∃ word, s.words[blockSize]? = some word ∧
        decoded chunks ending =
          .error (.malformed (.wrongMarker endMarker (Numeral.text word.toNat)))) := by
  refine ⟨fun s t => ⟨eq_of_isPrefix_encode, ?_⟩, fun _ => rfl,
    fun s more chunks ending hbytes => ?_⟩
  · rintro rfl
    exact List.prefix_refl _
  have hfull : s.words.length = blockSize → decoded chunks ending = .ok s := by
    intro h
    obtain ⟨left, hrun, _⟩ := takes_decode h ⟨chunks, ending⟩ more hbytes
    rw [decoded, hrun]
  have hfew : s.words.length < blockSize →
      decoded chunks ending = .error (.malformed (.endedEarly s.words.length)) :=
    fun h => decoded_of_rejects (rejects_decode_of_lt h) hbytes ending
  have hmany : blockSize < s.words.length → ∃ word, s.words[blockSize]? = some word ∧
      decoded chunks ending =
        .error (.malformed (.wrongMarker endMarker (Numeral.text word.toNat))) :=
    fun h => ⟨s.words[blockSize], List.getElem?_eq_getElem h,
      decoded_of_rejects (rejects_decode_of_gt h) hbytes ending⟩
  refine ⟨⟨?_, fun h => ⟨s, hfull h⟩⟩, hfull, hfew, hmany⟩
  rintro ⟨t, hok⟩
  rcases Nat.lt_trichotomy s.words.length blockSize with hlt | heq | hgt
  · rw [hfew hlt] at hok
    cases hok
  · exact heq
  · obtain ⟨word, _, herror⟩ := hmany hgt
    rw [herror] at hok
    cases hok

/-- A snapshot of two words, in two chunks with a blank behind them, is refused by their number. -/
theorem encode_identifies_short :
    [encode ⟨5, 312, [6, 7]⟩, [space]].flatten = encode ⟨5, 312, [6, 7]⟩ ++ [space] ∧
      decoded [encode ⟨5, 312, [6, 7]⟩, [space]] .closed = .error (.malformed (.endedEarly 2)) := by
  have hbytes : [encode ⟨5, 312, [6, 7]⟩, [space]].flatten =
      encode ⟨5, 312, [6, 7]⟩ ++ [space] := rfl
  obtain ⟨_, _, hfew, _⟩ := encode_identifies.2.2 ⟨5, 312, [6, 7]⟩ [space] _ .closed hbytes
  exact ⟨hbytes, hfew (by decide)⟩

end Snapshot

end Redraw
