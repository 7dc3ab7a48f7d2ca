import Redraw.Proofs.Stream.Splitting

/-!
# Tokens across chunks

A token that is collected from the chunks of an input is found where the scan of all bytes at once
finds it. What shows the cuts between chunks is only what is left. When a token ends in a chunk,
that chunk is kept from behind the blank on, and all chunks before are gone; the chunks that are
still untouched begin where they did. A token that is too long leaves the chunk with the byte too
many as a whole.
-/

namespace Redraw

/-- Where the chunk begins that holds the byte at a position. -/
def Input.chunkStart : List Bytes → Nat → Nat
  | [], _ => 0
  | chunk :: chunks, position =>
    if position < chunk.length then 0
    else chunk.length + chunkStart chunks (position - chunk.length)

/-- Behind chunks that are passed, positions count from their end. -/
theorem Input.chunkStart_append (passed chunks : List Bytes) (position : Nat) :
    chunkStart (passed ++ chunks) (passed.flatten.length + position) =
      passed.flatten.length + chunkStart chunks position := by
  induction passed with
  | nil =>
    rw [List.nil_append, List.flatten_nil, List.length_nil, Nat.zero_add, Nat.zero_add]
  | cons chunk passed ih =>
    have hsub : chunk.length + passed.flatten.length + position - chunk.length =
        passed.flatten.length + position := by omega
    rw [List.cons_append, List.flatten_cons, List.length_append, chunkStart, if_neg (by omega),
      hsub, ih, Nat.add_assoc]

/-- No chunk begins behind a byte that it holds. -/
theorem Input.chunkStart_le (chunks : List Bytes) (position : Nat) :
    chunkStart chunks position ≤ position := by
  induction chunks generalizing position with
  | nil => exact Nat.zero_le _
  | cons chunk chunks ih =>
    rw [chunkStart]
    have hrest := ih (position - chunk.length)
    split <;> omega

/-- A position in a chunk has that chunk's beginning. -/
theorem Input.chunkStart_of_mem (passed : List Bytes) {chunk : Bytes} (behind : List Bytes)
    {position : Nat} (hlow : passed.flatten.length ≤ position)
    (hhigh : position < passed.flatten.length + chunk.length) :
    chunkStart (passed ++ chunk :: behind) position = passed.flatten.length := by
  obtain ⟨offset, rfl⟩ := Nat.exists_eq_add_of_le hlow
  rw [chunkStart_append, chunkStart, if_pos (by omega), Nat.add_zero]

/-- When a chunk was taken in part, its own beginning counts as much as the place where it was
left. -/
theorem Input.max_chunkStart (passed : List Bytes) (taken kept : Bytes) (behind : List Bytes)
    (start position : Nat) :
    max (passed.flatten.length + taken.length + start)
        (chunkStart (passed ++ (taken ++ kept) :: behind)
          (passed.flatten.length + taken.length + position)) =
      passed.flatten.length + taken.length + max start (chunkStart (kept :: behind) position) := by
  rw [Nat.add_assoc _ taken.length position, chunkStart_append, chunkStart, chunkStart,
    List.length_append]
  by_cases hkept : position < kept.length
  · rw [if_pos hkept, if_pos (by omega)]
    omega
  · have hsub : taken.length + position - (taken.length + kept.length) =
        position - kept.length := by omega
    rw [if_neg hkept, if_neg (by omega), hsub]
    omega

/-- What is left of an input when some bytes were taken, the last of them from a chunk that is kept.
-/
structure Input.Leaves (input : Input) (taken : Nat) (left : Input) : Prop where
  /-- The bytes behind those that were taken are left. -/
  rest_eq : left.rest = input.rest.drop taken
  /-- The input ends as before. -/
  ending_eq : left.ending = input.ending
  /-- There was a chunk to take bytes from. -/
  chunks_ne_nil : input.chunks ≠ []
  /-- It is kept, and be it empty. -/
  left_ne_nil : left.chunks ≠ []
  /-- Chunks that begin behind the bytes that were taken begin where they did. -/
  max_chunkStart : ∀ start position,
    max (taken + start) (chunkStart input.chunks (taken + position)) =
      taken + max start (chunkStart left.chunks position)

theorem Input.leaves_of_taken {input : Input} {passed : List Bytes} {taken kept : Bytes}
    {behind : List Bytes} (h : input.chunks = passed ++ (taken ++ kept) :: behind) :
    input.Leaves (passed.flatten.length + taken.length)
      { input with chunks := kept :: behind } where
  rest_eq := by
    have hflat : input.rest = (passed.flatten ++ taken) ++ (kept ++ behind.flatten) := by
      simp only [rest, h, List.flatten_append, List.flatten_cons, List.append_assoc]
    rw [hflat, ← List.length_append, List.drop_left]
    rfl
  ending_eq := rfl
  chunks_ne_nil := by
    rw [h]
    exact List.append_ne_nil_of_right_ne_nil _ (List.cons_ne_nil _ _)
  left_ne_nil := List.cons_ne_nil _ _
  max_chunkStart start position := by
    rw [h]
    exact Input.max_chunkStart passed taken kept behind start position

namespace Token

/-- A token that does not end in the bytes of any chunk is up to the end of the input. -/
theorem collect_of_unfinished (ending : Ending) {token word : Bytes} {chunks : List Bytes}
    (h : scan token chunks.flatten = .unfinished word) :
    collect ending token chunks = (match ending with
      | .closed => .ok (if word.isEmpty then none else some word)
      | .failed fault => .error (.io fault), []) := by
  induction chunks generalizing token with
  | nil =>
    rw [List.flatten_nil, scan, Scan.unfinished.injEq] at h
    subst h
    cases ending <;> rfl
  | cons chunk chunks ih =>
    rw [List.flatten_cons, scan_append] at h
    rw [collect]
    cases hscan : scan token chunk with
    | ended word' left => simp [hscan] at h
    | unfinished token' =>
      simp only [hscan] at h
      exact ih h
    | tooLong => simp [hscan] at h

/-- A token that is too long in the bytes of several chunks becomes so in one of them, which is not
taken. -/
theorem collect_of_tooLong (ending : Ending) {token : Bytes} {chunks : List Bytes}
    (h : scan token chunks.flatten = .tooLong) :
    ∃ passed chunk behind, chunks = passed ++ chunk :: behind ∧
      collect ending token chunks =
        (.error (.malformed (.tokenTooLong limit)), chunk :: behind) ∧
      scan token passed.flatten ≠ .tooLong ∧ scan token (passed.flatten ++ chunk) = .tooLong := by
  induction chunks generalizing token with
  | nil => simp [scan] at h
  | cons chunk chunks ih =>
    rw [List.flatten_cons, scan_append] at h
    rw [collect]
    cases hscan : scan token chunk with
    | ended word left => simp [hscan] at h
    | unfinished token' =>
      simp only [hscan] at h
      obtain ⟨passed, chunk', behind, rfl, hcollect, hbefore, hin⟩ := ih h
      refine ⟨chunk :: passed, chunk', behind, rfl, hcollect, ?_, ?_⟩
      · rwa [List.flatten_cons, scan_append, hscan]
      · rwa [List.flatten_cons, List.append_assoc, scan_append, hscan]
    | tooLong => exact ⟨[], chunk, chunks, rfl, rfl, by simp [scan], hscan⟩

/-- The front of bytes is too long for a token when the byte too many belongs to it. -/
theorem scan_eq_tooLong_iff {gap long after front back : Bytes}
    (hgap : ∀ byte ∈ gap, isBlank byte = true) (hlong : ∀ byte ∈ long, isBlank byte = false)
    (hlength : long.length = limit + 1) (h : front ++ back = gap ++ (long ++ after)) :
    scan [] front = .tooLong ↔ gap.length + limit < front.length := by
  have hfront : front <+: gap ++ (long ++ after) := ⟨back, h⟩
  constructor
  · intro hscan
    refine Nat.lt_of_not_le fun hshort => ?_
    have htake : (long.take limit).length = limit := by
      rw [List.length_take]
      omega
    -- A front without the byte too many is that of bytes which can still become a token.
    have hroom : scan [] (gap ++ long.take limit) = .unfinished (long.take limit) := by
      rw [scan_gap hgap]
      exact scan_word [] (fun b hb => hlong b (List.mem_of_mem_take hb))
        (by rw [htake, List.length_nil]; omega)
    have hprefix : gap ++ long.take limit <+: gap ++ (long ++ after) :=
      (List.prefix_append_right_inj gap).mpr
        ((List.take_prefix limit long).trans (List.prefix_append long after))
    obtain ⟨more, hmore⟩ : front <+: gap ++ long.take limit :=
      List.prefix_of_prefix_length_le hfront hprefix (by rw [List.length_append, htake]; omega)
    rw [← hmore, scan_append, hscan] at hroom
    cases hroom
  · intro hpast
    have hprefix : gap ++ long <+: gap ++ (long ++ after) :=
      (List.prefix_append_right_inj gap).mpr (List.prefix_append long after)
    obtain ⟨more, rfl⟩ : gap ++ long <+: front :=
      List.prefix_of_prefix_length_le hprefix hfront (by rw [List.length_append, hlength]; omega)
    have hscan : scan [] long = .tooLong :=
      scan_tooLong hlong (Nat.zero_le _) (by rw [hlength, List.length_nil]; omega)
    rw [List.append_assoc, scan_gap hgap, scan_append, hscan]

end Token

end Redraw
