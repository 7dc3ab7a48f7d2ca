import Redraw.Stream.Token
import Redraw.Proofs.Numeral

/-!
# Readings that take exactly their bytes

A reading takes bytes for a value when, off any input that starts with these bytes, it gives the
value and leaves what follows, however the input is cut into chunks and whatever it ends with. Such
readings compose, one after the other. A token is read so together with the one blank behind it:
scanning a chunk and then the next is scanning both at once, so that the cuts between chunks do not
show.
-/

namespace Redraw

namespace Reading

variable {α β : Type}

/-- Off any input that starts with the bytes, the reading gives the value and leaves what follows.
-/
def Takes (reading : Reading α) (bytes : Bytes) (value : α) : Prop :=
  ∀ (input : Input) (more : Bytes), input.rest = bytes ++ more →
    ∃ left : Input, reading.run.run input = (.ok value, left) ∧ left.rest = more ∧
      left.ending = input.ending

/-- A value that is there already takes nothing. -/
theorem takes_pure (value : α) : Takes (pure value) [] value :=
  fun input _ h => ⟨input, rfl, h, rfl⟩

/-- A reading that succeeds hands its value and the input that it left to the next one. -/
theorem run_bind {reading : Reading α} {next : α → Reading β} {input left : Input} {value : α}
    (h : reading.run.run input = (.ok value, left)) :
    (reading >>= next).run.run input = (next value).run.run left := by
  rw [ExceptT.run_bind, StateT.run_bind, h]
  rfl

/-- Of two readings, the second takes what the first leaves. -/
theorem Takes.bind {reading : Reading α} {next : α → Reading β} {bytes bytes' : Bytes} {value : α}
    {value' : β} (h : Takes reading bytes value) (h' : Takes (next value) bytes' value') :
    Takes (reading >>= next) (bytes ++ bytes') value' := by
  intro input more hrest
  obtain ⟨mid, hrun, hmid, hending⟩ := h input (bytes' ++ more) (by rw [hrest, List.append_assoc])
  obtain ⟨left, hrun', hleft, hending'⟩ := h' mid more hmid
  exact ⟨left, (run_bind hrun).trans hrun', hleft, hending'.trans hending⟩

end Reading

namespace Token

/-- Scanning a chunk and then the next is scanning both at once. -/
theorem scan_append (token a b : Bytes) :
    scan token (a ++ b) = match scan token a with
      | .ended word left => .ended word (left ++ b)
      | .unfinished word => scan word b
      | .tooLong => .tooLong := by
  induction a generalizing token with
  | nil => rfl
  | cons byte a ih =>
    rw [List.cons_append, scan, scan]
    by_cases hblank : isBlank byte
    · rw [if_pos hblank, if_pos hblank]
      by_cases hempty : token.isEmpty
      · rw [if_pos hempty, if_pos hempty, ih]
      · rw [if_neg hempty, if_neg hempty]
    · rw [if_neg hblank, if_neg hblank]
      by_cases hroom : token.length < limit
      · rw [if_pos hroom, if_pos hroom, ih]
      · rw [if_neg hroom, if_neg hroom]

/-- Bytes other than blanks go to the token while there is room. -/
theorem scan_word (token : Bytes) {word : Bytes} (hblank : ∀ byte ∈ word, isBlank byte = false)
    (hroom : token.length + word.length ≤ limit) :
    scan token word = .unfinished (token ++ word) := by
  induction word generalizing token with
  | nil => rw [scan, List.append_nil]
  | cons byte word ih =>
    rw [List.length_cons] at hroom
    rw [scan, if_neg (by simp [hblank byte List.mem_cons_self]), if_pos (by omega),
      ih _ (fun b hb => hblank b (List.mem_cons_of_mem _ hb)) (by simp; omega),
      List.append_assoc, List.singleton_append]

/-- What a scan leaves when a token ends is the end of what it was given. -/
theorem exists_taken_of_scan {token bytes word left : Bytes}
    (h : scan token bytes = .ended word left) : ∃ taken, bytes = taken ++ left := by
  fun_induction scan token bytes with
  | case1 => cases h
  | case2 token byte bytes hblank hempty ih =>
    obtain ⟨taken, rfl⟩ := ih h
    exact ⟨byte :: taken, rfl⟩
  | case3 token byte bytes hblank hempty =>
    cases h
    exact ⟨[byte], rfl⟩
  | case4 token byte bytes hblank hroom ih =>
    obtain ⟨taken, rfl⟩ := ih h
    exact ⟨byte :: taken, rfl⟩
  | case5 => cases h

/-- A token that ends in the bytes of several chunks ends there: some chunks are passed, and one is
taken in part. -/
theorem collect_of_ended (ending : Ending) {token word left : Bytes} {chunks : List Bytes}
    (h : scan token chunks.flatten = .ended word left) :
    ∃ passed taken kept behind, chunks = passed ++ (taken ++ kept) :: behind ∧
      collect ending token chunks = (.ok (some word), kept :: behind) ∧
      kept ++ behind.flatten = left := by
  induction chunks generalizing token with
  | nil => simp [scan] at h
  | cons chunk chunks ih =>
    rw [List.flatten_cons, scan_append] at h
    rw [collect]
    cases hscan : scan token chunk with
    | ended word' kept =>
      simp only [hscan, Scan.ended.injEq] at h
      obtain ⟨rfl, rfl⟩ := h
      obtain ⟨taken, rfl⟩ := exists_taken_of_scan hscan
      exact ⟨[], taken, kept, chunks, rfl, rfl, rfl⟩
    | unfinished token' =>
      simp only [hscan] at h
      obtain ⟨passed, taken, kept, behind, rfl, hcollect, hleft⟩ := ih h
      exact ⟨chunk :: passed, taken, kept, behind, rfl, hcollect, hleft⟩
    | tooLong => simp [hscan] at h

/-- Bytes that are read as one token: some, not too many, and no blanks. -/
structure IsWord (bytes : Bytes) : Prop where
  /-- There is a byte. -/
  ne_nil : bytes ≠ []
  /-- No byte separates tokens. -/
  not_blank : ∀ byte ∈ bytes, isBlank byte = false
  /-- The token does not grow too long. -/
  length_le : bytes.length ≤ limit

/-- A word with a blank behind it is a token; what follows the blank is left. -/
theorem scan_word_blank {word left : Bytes} (h : IsWord word) {blank : UInt8}
    (hblank : isBlank blank = true) : scan [] (word ++ blank :: left) = .ended word left := by
  have hempty : word.isEmpty = false := List.isEmpty_eq_false_iff.mpr h.ne_nil
  rw [scan_append, scan_word [] h.not_blank (by simpa using h.length_le)]
  simp [scan, hblank, hempty]

/-- The bytes of the next token are taken together with the blank behind them. -/
theorem takes_nextBytes {word : Bytes} (h : IsWord word) {blank : UInt8}
    (hblank : isBlank blank = true) :
    Reading.Takes nextBytes (word ++ [blank]) (some word) := by
  intro input more hrest
  have hscan : scan [] input.chunks.flatten = .ended word more := by
    rw [← scan_word_blank h hblank]
    exact congrArg (scan []) (hrest.trans (List.append_assoc _ _ _))
  obtain ⟨_, _, kept, behind, _, hcollect, hleft⟩ := collect_of_ended input.ending hscan
  refine ⟨{ input with chunks := kept :: behind }, ?_, hleft, rfl⟩
  change nextBytes input = _
  rw [nextBytes, hcollect]

/-- A token that is text is taken together with the blank behind it. -/
theorem takes_next (part : String) {text : String} (h : IsWord (Bytes.ofText text)) {blank : UInt8}
    (hblank : isBlank blank = true) :
    Reading.Takes (next part) (Bytes.ofText text ++ [blank]) text := by
  rw [← List.append_nil (Bytes.ofText text ++ [blank])]
  refine (takes_nextBytes h hblank).bind ?_
  simp only [Bytes.text?_ofText]
  exact Reading.takes_pure text

end Token

end Redraw
