import Redraw.Proofs.Snapshot.Buffering
import Redraw.Proofs.Stream.Numeral
import Redraw.Proofs.Stream.Yielding

/-!
# The grammar of snapshots

Which bytes are decoded, and to what, can be told from the tokens that they split into: a begin
marker, the numerals of the seed, of the index and of the words, and an end marker. Whatever comes
behind the blank after the end marker makes no difference and is left.
-/

namespace Redraw.Snapshot

open Reading
open Token (Cut Cuts IsNumeral)

variable {bytes left : Bytes}

/-- A marker is read off the bytes that begin with it. -/
theorem yields_readMarker_iff (part expected : String) {value : Unit} :
    Yields (readMarker part expected) bytes value left ↔
      Cut bytes (Bytes.ofText expected) left := by
  rw [readMarker, yields_next_bind_iff part fun _ => .ite (.refuse _ (by simp)) (.pure ())]
  constructor
  · rintro ⟨token, mid, hcut, hrest⟩
    by_cases h : token = expected
    · rw [if_neg (not_not_intro h), yields_pure_iff] at hrest
      rw [← h, ← hrest.2]
      exact hcut
    · rw [if_pos h] at hrest
      exact absurd hrest not_yields_throw
  · intro hcut
    refine ⟨expected, left, hcut, ?_⟩
    rw [if_neg (not_not_intro rfl), yields_pure_iff]
    exact ⟨rfl, rfl⟩

theorem yields_number_iff (part token : String) {word : UInt64} :
    Yields (number part token) bytes word left ↔
      Numeral.word? token = some word ∧ bytes = left := by
  rw [number]
  cases Numeral.word? token with
  | some word' => rw [yields_pure_iff, Option.some.injEq]
  | none => exact iff_of_false not_yields_throw (fun h => nomatch h.1)

/-- A token is a numeral of a word when its text is read as that word. -/
theorem isNumeral_ofText_iff {text : String} {word : UInt64}
    (h : (Bytes.ofText text).length ≤ Token.limit) :
    Numeral.word? text = some word ↔
      IsNumeral (Bytes.ofText text) ∧ Token.value (Bytes.ofText text) = word.toNat := by
  rw [Numeral.word?_eq_some_iff]
  constructor
  · rintro ⟨hdigits, hvalue⟩
    exact ⟨⟨hdigits, h, hvalue ▸ word.toNat_lt⟩, hvalue⟩
  · rintro ⟨hnumeral, hvalue⟩
    exact ⟨hnumeral.toIsUnsigned, hvalue⟩

/-- A number is read off the bytes that begin with a numeral of it. -/
theorem yields_readNumber_iff (part : String) {word : UInt64} :
    Yields (readNumber part) bytes word left ↔
      ∃ token, Cut bytes token left ∧ IsNumeral token ∧ Token.value token = word.toNat := by
  rw [readNumber, yields_next_bind_iff part (tokenwise_number part)]
  simp only [yields_number_iff]
  constructor
  · rintro ⟨text, _, hcut, hword, rfl⟩
    exact ⟨_, hcut, (isNumeral_ofText_iff hcut.isWord.length_le).mp hword⟩
  · rintro ⟨token, hcut, hnumeral, hvalue⟩
    obtain ⟨text, rfl⟩ := hnumeral.exists_text
    exact ⟨text, left, hcut,
      (isNumeral_ofText_iff hnumeral.length_le).mpr ⟨hnumeral, hvalue⟩, rfl⟩

/-- The end marker is no numeral. -/
theorem not_isNumeral_endMarker : ¬ IsNumeral (Bytes.ofText endMarker) := by
  intro h
  have hletter : (101 : UInt8) ∈ Token.digits (Bytes.ofText endMarker) := by decide
  exact absurd (h.isDigit _ hletter).2 (by decide)

theorem readWord_eq (before : Nat) : readWord before = Token.next wordPart >>= fun token =>
    if token = endMarker then throw (.malformed (.endedEarly before)) else number wordPart token :=
  rfl

/-- A state word is read as any number is: that its token is not the end marker goes without saying.
-/
theorem yields_readWord_iff (before : Nat) {word : UInt64} :
    Yields (readWord before) bytes word left ↔
      ∃ token, Cut bytes token left ∧ IsNumeral token ∧ Token.value token = word.toNat := by
  rw [← yields_readNumber_iff wordPart, readWord_eq, readNumber,
    yields_next_bind_iff wordPart (tokenwise_number wordPart),
    yields_next_bind_iff wordPart fun token =>
      .ite (.refuse _ (by simp)) (tokenwise_number wordPart token)]
  refine exists_congr fun text => exists_congr fun mid => and_congr_right fun hcut => ?_
  by_cases h : text = endMarker
  · -- What is refused here as an early end would be refused as no number.
    rw [if_pos h, yields_number_iff]
    refine iff_of_false not_yields_throw fun hword => not_isNumeral_endMarker ?_
    rw [← h]
    exact ((isNumeral_ofText_iff hcut.isWord.length_le).mp hword.1).1
  · rw [if_neg h]

/-- Several state words are read off the bytes that begin with as many numerals of them. -/
theorem yields_readWords_iff (before n : Nat) {words : List UInt64} :
    Yields (readWords before n) bytes words left ↔ words.length = n ∧
      ∃ tokens, Cuts bytes tokens left ∧ (∀ token ∈ tokens, IsNumeral token) ∧
        tokens.map Token.value = words.map UInt64.toNat := by
  induction n generalizing before bytes left words with
  | zero =>
    rw [readWords, yields_pure_iff]
    constructor
    · rintro ⟨rfl, hleft⟩
      exact ⟨rfl, [], hleft, by simp, rfl⟩
    · rintro ⟨hlength, tokens, hcuts, _, hvalues⟩
      obtain rfl := List.eq_nil_of_length_eq_zero hlength
      obtain rfl := List.map_eq_nil_iff.mp hvalues
      exact ⟨rfl, hcuts⟩
  | succ n ih =>
    rw [readWords, yields_bind_iff (tokenwise_readWord before) fun _ =>
      (tokenwise_readWords _ n).bind fun _ => .pure _]
    simp only [yields_bind_iff (tokenwise_readWords (before + 1) n) fun _ => .pure _,
      yields_readWord_iff, ih, yields_pure_iff]
    constructor
    · rintro ⟨word, mid, ⟨token, hcut, hnumeral, hvalue⟩, words', _,
        ⟨hlength, tokens, hcuts, hnumerals, hvalues⟩, rfl, rfl⟩
      refine ⟨congrArg (· + 1) hlength, token :: tokens, ⟨mid, hcut, hcuts⟩, ?_, ?_⟩
      · exact List.forall_mem_cons.mpr ⟨hnumeral, hnumerals⟩
      · rw [List.map_cons, List.map_cons, hvalue, hvalues]
    · rintro ⟨hlength, tokens, hcuts, hnumerals, hvalues⟩
      obtain ⟨word, words, rfl⟩ := List.exists_cons_of_length_eq_add_one hlength
      obtain ⟨token, tokens, rfl, hvalue, hvalues⟩ := List.map_eq_cons_iff.mp hvalues
      obtain ⟨mid, hcut, hcuts⟩ := hcuts
      rw [List.forall_mem_cons] at hnumerals
      exact ⟨word, mid, ⟨token, hcut, hnumerals.1, hvalue⟩, words, left,
        ⟨Nat.succ.inj hlength, tokens, hcuts, hnumerals.2, hvalues⟩, rfl, rfl⟩

/-- A snapshot is read off the bytes that begin with its tokens. -/
theorem yields_decode_iff {s : Snapshot} :
    Yields decode bytes s left ↔ s.words.length = blockSize ∧
      ∃ tokens, Cuts bytes (Bytes.ofText beginMarker :: tokens ++ [Bytes.ofText endMarker]) left ∧
        (∀ token ∈ tokens, IsNumeral token) ∧
        tokens.map Token.value = s.seed.toNat :: s.index.toNat :: s.words.map UInt64.toNat := by
  -- The law for a bind wants to know that what comes next only asks for tokens.
  have hend : ∀ seed index words, Tokenwise do
      readMarker "end marker" endMarker
      return (⟨seed, index, words⟩ : Snapshot) :=
    fun _ _ _ => (tokenwise_readMarker _ _).bind fun _ => .pure _
  have hwords : ∀ seed index, Tokenwise do
      let words ← readWords 0 blockSize
      readMarker "end marker" endMarker
      return (⟨seed, index, words⟩ : Snapshot) :=
    fun _ _ => (tokenwise_readWords _ _).bind (hend _ _)
  have hindex : ∀ seed, Tokenwise do
      let index ← readNumber "index"
      let words ← readWords 0 blockSize
      readMarker "end marker" endMarker
      return (⟨seed, index, words⟩ : Snapshot) :=
    fun _ => (tokenwise_readNumber _).bind (hwords _)
  rw [decode, yields_bind_iff (tokenwise_readMarker _ _) fun _ =>
    (tokenwise_readNumber _).bind hindex]
  simp only [yields_bind_iff (tokenwise_readNumber "seed") hindex,
    yields_bind_iff (tokenwise_readNumber "index") (hwords _),
    yields_bind_iff (tokenwise_readWords 0 blockSize) (hend _ _),
    yields_bind_iff (tokenwise_readMarker "end marker" endMarker) fun _ => .pure _,
    yields_readMarker_iff, yields_readNumber_iff, yields_readWords_iff, yields_pure_iff]
  constructor
  · rintro ⟨_, afterBegin, hbegin, seed, afterSeed, ⟨token, hseed, hnumeral, hvalue⟩, index,
      afterIndex, ⟨token', hindex, hnumeral', hvalue'⟩, words, afterWords,
      ⟨hlength, tokens, hwords, hnumerals, hvalues⟩, _, _, hend, rfl, rfl⟩
    refine ⟨hlength, token :: token' :: tokens, ?_, ?_, ?_⟩
    · refine ⟨afterBegin, hbegin, afterSeed, hseed, afterIndex, hindex, ?_⟩
      exact Token.cuts_append_iff.mpr ⟨afterWords, hwords, _, hend, rfl⟩
    · simp only [List.forall_mem_cons]
      exact ⟨hnumeral, hnumeral', hnumerals⟩
    · rw [List.map_cons, List.map_cons, hvalue, hvalue', hvalues]
  · rintro ⟨hlength, tokens, hcuts, hnumerals, hvalues⟩
    obtain ⟨token, tokens, rfl, hvalue, hvalues⟩ := List.map_eq_cons_iff.mp hvalues
    obtain ⟨token', tokens, rfl, hvalue', hvalues⟩ := List.map_eq_cons_iff.mp hvalues
    obtain ⟨afterBegin, hbegin, afterSeed, hseed, afterIndex, hindex, hcuts⟩ := hcuts
    obtain ⟨afterWords, hwords, _, hend, rfl⟩ := Token.cuts_append_iff.mp hcuts
    simp only [List.forall_mem_cons] at hnumerals
    exact ⟨(), afterBegin, hbegin, s.seed, afterSeed, ⟨token, hseed, hnumerals.1, hvalue⟩, s.index,
      afterIndex, ⟨token', hindex, hnumerals.2.1, hvalue'⟩, s.words, afterWords,
      ⟨hlength, tokens, hwords, hnumerals.2.2, hvalues⟩, (), _, hend, rfl, rfl⟩

/-- Tokens that start with those of a snapshot, whatever follows. -/
structure IsForm (tokens : List Bytes) : Prop where
  /-- The begin marker comes first. -/
  begins : tokens[0]? = some (Bytes.ofText "random-v2")
  /-- Then there are the numerals of the seed, of the index and of the words. -/
  isNumeral : ∀ token ∈ (tokens.drop 1).take 314, IsNumeral token
  /-- The end marker comes behind as many of these, so that there are 316 tokens at least. -/
  ends : tokens[315]? = some (Bytes.ofText "endrandom-v2")

/-- The tokens have the numbers of a snapshot in their places. -/
structure Spells (tokens : List Bytes) (s : Snapshot) : Prop where
  /-- The seed stands behind the begin marker. -/
  seed : tokens[1]?.map Token.value = some s.seed.toNat
  /-- The index stands behind the seed. -/
  index : tokens[2]?.map Token.value = some s.index.toNat
  /-- The words stand behind the index. -/
  words : ((tokens.drop 3).take 312).map Token.value = s.words.map UInt64.toNat

/-- Bytes are left behind the blank that ends the end marker; none are left when the bytes end with
it. -/
def LeftBehind (bytes left : Bytes) : Prop :=
  ∃ front, Token.split (front ++ Bytes.ofText "endrandom-v2") = (Token.split bytes).take 316 ∧
    ((∃ blank, Token.isBlank blank = true ∧
        bytes = front ++ (Bytes.ofText "endrandom-v2" ++ blank :: left)) ∨
      (bytes = front ++ Bytes.ofText "endrandom-v2" ∧ left = []))

/-- The tokens of a snapshot stand between its markers. -/
theorem isForm_iff {tokens : List Bytes} : IsForm tokens ↔
    ∃ numerals more, tokens =
        Bytes.ofText beginMarker :: numerals ++ [Bytes.ofText endMarker] ++ more ∧
      numerals.length = 314 ∧ ∀ token ∈ numerals, IsNumeral token := by
  constructor
  · intro h
    obtain ⟨rest, rfl⟩ : ∃ rest, tokens = Bytes.ofText beginMarker :: rest := by
      cases tokens with
      | nil => cases h.begins
      | cons token rest => exact ⟨rest, by rw [Option.some.inj h.begins, beginMarker]⟩
    obtain ⟨hlength, hend⟩ := List.getElem?_eq_some_iff.mp h.ends
    rw [List.length_cons] at hlength
    rw [List.getElem_cons_succ] at hend
    refine ⟨rest.take 314, rest.drop 315, ?_, ?_, h.isNumeral⟩
    · have hdrop : rest.drop 314 = Bytes.ofText endMarker :: rest.drop 315 := by
        rw [List.drop_eq_getElem_cons (by omega), hend, endMarker]
      rw [List.append_assoc, List.singleton_append, List.cons_append, ← hdrop,
        List.take_append_drop]
    · rw [List.length_take]
      omega
  · rintro ⟨numerals, more, rfl, hlength, hnumerals⟩
    rw [List.append_assoc, List.cons_append]
    refine ⟨rfl, ?_, ?_⟩
    · rw [List.drop_one, List.tail_cons, List.take_left' hlength]
      exact hnumerals
    · rw [List.getElem?_cons_succ, List.getElem?_append_right (Nat.le_of_eq hlength), hlength]
      rfl

/-- What is yielded comes from tokens of a snapshot. -/
theorem isForm_of_yields {s : Snapshot} (h : Yields decode bytes s left) :
    IsForm (Token.split bytes) ∧ Spells (Token.split bytes) s ∧ LeftBehind bytes left := by
  obtain ⟨hlength, numerals, hcuts, hnumerals, hvalues⟩ := yields_decode_iff.mp h
  have hsplit := hcuts.split_eq
  have hcount : numerals.length = 314 := by
    have hcount := congrArg List.length hvalues
    rw [List.length_map, List.length_cons, List.length_cons, List.length_map, hlength] at hcount
    exact hcount
  refine ⟨isForm_iff.mpr ⟨numerals, Token.split left, hsplit, hcount, hnumerals⟩, ?_, ?_⟩
  · obtain ⟨token, numerals, rfl, hseed, hvalues⟩ := List.map_eq_cons_iff.mp hvalues
    obtain ⟨token', numerals, rfl, hindex, hvalues⟩ := List.map_eq_cons_iff.mp hvalues
    rw [hsplit]
    refine ⟨congrArg some hseed, congrArg some hindex, ?_⟩
    simp only [List.append_assoc, List.cons_append, List.drop_succ_cons, List.drop_zero]
    rw [List.length_cons, List.length_cons] at hcount
    rw [List.take_left' (by omega), hvalues]
  · obtain ⟨front, hfront, hrest⟩ := hcuts.exists_front
    refine ⟨front, ?_, hrest⟩
    rw [hsplit, List.take_left' (by simp [hcount])]
    exact hfront

/-- Numerals are those of a snapshot when there are as many. -/
theorem exists_map_value_eq {numerals : List Bytes} (hlength : numerals.length = blockSize + 2)
    (h : ∀ token ∈ numerals, IsNumeral token) : ∃ s : Snapshot, s.words.length = blockSize ∧
      numerals.map Token.value = s.seed.toNat :: s.index.toNat :: s.words.map UInt64.toNat := by
  obtain ⟨seed, numerals, rfl⟩ := List.exists_cons_of_length_eq_add_one hlength
  rw [List.length_cons, Nat.add_right_cancel_iff] at hlength
  obtain ⟨index, numerals, rfl⟩ := List.exists_cons_of_length_eq_add_one hlength
  refine ⟨⟨UInt64.ofNat (Token.value seed), UInt64.ofNat (Token.value index),
    numerals.map fun token => UInt64.ofNat (Token.value token)⟩, ?_, ?_⟩
  · rw [List.length_map]
    exact Nat.add_right_cancel hlength
  · have hvalue : ∀ token ∈ seed :: index :: numerals,
        Token.value token = (UInt64.ofNat (Token.value token)).toNat :=
      fun token htoken => (UInt64.toNat_ofNat_of_lt' (h token htoken).lt_size).symm
    rw [List.map_congr_left hvalue, List.map_map]
    rfl

/-- The tokens of a snapshot are yielded. -/
theorem exists_yields_of_isForm (h : IsForm (Token.split bytes)) :
    ∃ s left, Yields decode bytes s left := by
  obtain ⟨numerals, more, hsplit, hlength, hnumerals⟩ := isForm_iff.mp h
  have hshort : ∀ token ∈ Bytes.ofText beginMarker :: numerals ++ [Bytes.ofText endMarker],
      token.length ≤ Token.limit := by
    simp only [List.cons_append, List.forall_mem_cons, List.forall_mem_append]
    exact ⟨by decide, fun token htoken => (hnumerals token htoken).length_le, by decide, by simp⟩
  obtain ⟨left, hcuts, _⟩ := Token.exists_cuts_of_split hsplit hshort
  obtain ⟨s, hwords, hvalues⟩ := exists_map_value_eq hlength hnumerals
  exact ⟨s, left, yields_decode_iff.mpr ⟨hwords, numerals, hcuts, hnumerals, hvalues⟩⟩

/-- An input that ends without a fault is decoded exactly when its tokens are those of a snapshot:
that snapshot is the result, and what is left begins behind the blank after the end marker. Any
other is refused as malformed. -/
theorem decode_run_of_closed (chunks : List Bytes) :
    ((∃ s left, decode.run.run ⟨chunks, .closed⟩ = (.ok s, left)) ↔
      IsForm (Token.split chunks.flatten)) ∧
    (∀ s left, decode.run.run ⟨chunks, .closed⟩ = (.ok s, left) →
      Spells (Token.split chunks.flatten) s ∧ LeftBehind chunks.flatten left.rest) ∧
    (¬ IsForm (Token.split chunks.flatten) →
      ∃ cause left, decode.run.run ⟨chunks, .closed⟩ = (.error (.malformed cause), left)) := by
  have hok : ∀ s left, decode.run.run ⟨chunks, .closed⟩ = (.ok s, left) →
      IsForm (Token.split chunks.flatten) ∧ Spells (Token.split chunks.flatten) s ∧
        LeftBehind chunks.flatten left.rest :=
    fun s left hrun => isForm_of_yields (tokenwise_decode.yields hrun)
  refine ⟨⟨fun ⟨s, left, hrun⟩ => (hok s left hrun).1, fun h => ?_⟩,
    fun s left hrun => (hok s left hrun).2, fun h => ?_⟩
  · obtain ⟨s, left, hyields⟩ := exists_yields_of_isForm h
    obtain ⟨after, hrun, _⟩ := hyields chunks rfl
    exact ⟨s, _, hrun⟩
  · obtain ⟨result, left, hrun⟩ := tokenwise_decode.run_of_closed chunks
    cases result with
    | ok s => exact absurd (hok s left hrun).1 h
    | error cause => exact ⟨cause, left, hrun⟩

end Redraw.Snapshot
