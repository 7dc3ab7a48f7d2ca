import Redraw.Proofs.Stream.Taking

/-!
# The tokens of bytes

Bytes split into tokens at their blanks: a token is a longest run of bytes without a blank. The scan
for a token finds the first of them. It passes over the gap of blanks in front and then either meets
the blank that ends the token, or runs out of bytes before, or finds the token too long; and where
the bytes are cut into chunks makes no difference to which of these it is.
-/

namespace Redraw.Token

/-- The tokens that bytes hold: their longest runs without blanks. -/
def split (bytes : Bytes) : List Bytes :=
  (bytes.splitOnP isBlank).filter fun run => !run.isEmpty

@[simp] theorem split_nil : split [] = [] := rfl

/-- A blank belongs to no token, and keeps those before it apart from those behind it. -/
theorem split_append_cons (front left : Bytes) {blank : UInt8} (h : isBlank blank = true) :
    split (front ++ blank :: left) = split front ++ split left := by
  rw [split, List.splitOnP_append_cons front left h, List.filter_append, split, split]

/-- Bytes without a blank are one token. -/
theorem split_word {word : Bytes} (hne : word ≠ []) (h : ∀ byte ∈ word, isBlank byte = false) :
    split word = [word] := by
  rw [split, List.splitOnP_eq_singleton h]
  simp [hne]

/-- Blanks in front make no difference. -/
theorem split_gap {gap : Bytes} (h : ∀ byte ∈ gap, isBlank byte = true) (bytes : Bytes) :
    split (gap ++ bytes) = split bytes := by
  induction gap with
  | nil => rfl
  | cons byte gap ih =>
    have hfirst : isBlank byte = true := h byte List.mem_cons_self
    have hrest := ih fun b hb => h b (List.mem_cons_of_mem _ hb)
    rw [List.cons_append, ← hrest]
    exact split_append_cons [] (gap ++ bytes) hfirst

/-- The first token stands behind a gap and ends at a blank. -/
theorem split_gap_word {gap word : Bytes} (hgap : ∀ byte ∈ gap, isBlank byte = true)
    (hword : IsWord word) {blank : UInt8} (hblank : isBlank blank = true) (left : Bytes) :
    split (gap ++ (word ++ blank :: left)) = word :: split left := by
  rw [split_gap hgap, split_append_cons word left hblank, split_word hword.ne_nil hword.not_blank]
  rfl

/-- The scan for a token passes over blanks. -/
theorem scan_gap {gap : Bytes} (h : ∀ byte ∈ gap, isBlank byte = true) (bytes : Bytes) :
    scan [] (gap ++ bytes) = scan [] bytes := by
  induction gap with
  | nil => rfl
  | cons byte gap ih =>
    have hfirst : isBlank byte = true := h byte List.mem_cons_self
    rw [List.cons_append, scan, if_pos hfirst, if_pos List.isEmpty_nil]
    exact ih fun b hb => h b (List.mem_cons_of_mem _ hb)

/-- Bytes other than blanks are too much when there is no room for them. -/
theorem scan_tooLong {token word : Bytes} (h : ∀ byte ∈ word, isBlank byte = false)
    (hroom : token.length ≤ limit) (hlong : limit < token.length + word.length) :
    scan token word = .tooLong := by
  induction word generalizing token with
  | nil =>
    rw [List.length_nil] at hlong
    omega
  | cons byte word ih =>
    have hfirst : isBlank byte = false := h byte List.mem_cons_self
    rw [scan, hfirst, if_neg Bool.false_ne_true]
    by_cases hfull : token.length < limit
    · rw [if_pos hfull]
      refine ih (fun b hb => h b (List.mem_cons_of_mem _ hb)) ?_ ?_
      · rw [List.length_append, List.length_singleton]
        omega
      · rw [List.length_append, List.length_singleton]
        rw [List.length_cons] at hlong
        omega
    · rw [if_neg hfull]

/-- What scanning bytes for a token comes to, and how the bytes look then. -/
inductive Found : Bytes → Scan → Prop where
  /-- There are nothing but blanks. -/
  | blank {gap : Bytes} (hgap : ∀ byte ∈ gap, isBlank byte = true) : Found gap (.unfinished [])
  /-- The bytes end with the token. -/
  | unfinished {gap word : Bytes} (hgap : ∀ byte ∈ gap, isBlank byte = true) (hword : IsWord word) :
    Found (gap ++ word) (.unfinished word)
  /-- A blank ends the token. -/
  | ended {gap word left : Bytes} {blank : UInt8} (hgap : ∀ byte ∈ gap, isBlank byte = true)
      (hword : IsWord word) (hblank : isBlank blank = true) :
    Found (gap ++ (word ++ blank :: left)) (.ended word left)
  /-- The token has a byte too many. -/
  | tooLong {gap long after : Bytes} (hgap : ∀ byte ∈ gap, isBlank byte = true)
      (hlong : ∀ byte ∈ long, isBlank byte = false) (hlength : long.length = limit + 1) :
    Found (gap ++ (long ++ after)) .tooLong

/-- Bytes are a gap of blanks, a run without blanks, and what follows: nothing, or a blank first.
-/
theorem exists_gap_run (bytes : Bytes) : ∃ gap run after, bytes = gap ++ (run ++ after) ∧
    (∀ byte ∈ gap, isBlank byte = true) ∧ (∀ byte ∈ run, isBlank byte = false) ∧
    (after = [] ∨ run ≠ [] ∧ ∃ blank left, after = blank :: left ∧ isBlank blank = true) := by
  induction bytes with
  | nil => exact ⟨[], [], [], rfl, by simp, by simp, Or.inl rfl⟩
  | cons byte bytes ih =>
    obtain ⟨gap, run, after, rfl, hgap, hrun, hafter⟩ := ih
    cases hblank : isBlank byte with
    | true =>
      refine ⟨byte :: gap, run, after, rfl, ?_, hrun, hafter⟩
      simpa only [List.forall_mem_cons] using And.intro hblank hgap
    | false =>
      cases gap with
      | nil =>
        refine ⟨[], byte :: run, after, rfl, by simp, ?_, ?_⟩
        · simpa only [List.forall_mem_cons] using And.intro hblank hrun
        · exact hafter.imp_right fun h => ⟨List.cons_ne_nil _ _, h.2⟩
      | cons blank gap =>
        refine ⟨[], [byte], blank :: (gap ++ (run ++ after)), rfl, by simp, by simpa using hblank,
          Or.inr ⟨List.cons_ne_nil _ _, _, _, rfl, hgap blank List.mem_cons_self⟩⟩

/-- Every scan comes to one of the four. -/
theorem found_scan (bytes : Bytes) : Found bytes (scan [] bytes) := by
  obtain ⟨gap, run, after, rfl, hgap, hrun, hafter⟩ := exists_gap_run bytes
  rw [scan_gap hgap]
  by_cases hlong : limit < run.length
  · have htake : ∀ byte ∈ run.take (limit + 1), isBlank byte = false :=
      fun byte h => hrun byte (List.mem_of_mem_take h)
    have hlength : (run.take (limit + 1)).length = limit + 1 := by
      rw [List.length_take]
      omega
    have hscan : scan [] (run.take (limit + 1)) = .tooLong :=
      scan_tooLong htake (Nat.zero_le _) (by rw [hlength, List.length_nil]; omega)
    rw [← List.take_append_drop (limit + 1) run, List.append_assoc, scan_append, hscan]
    exact .tooLong hgap htake hlength
  · have hroom : ([] : Bytes).length + run.length ≤ limit := by
      rw [List.length_nil]
      omega
    rw [scan_append, scan_word [] hrun hroom, List.nil_append]
    rcases hafter with rfl | ⟨hne, blank, left, rfl, hblank⟩
    · by_cases hne : run = []
      · subst hne
        rw [List.append_nil, List.append_nil]
        exact .blank hgap
      · rw [List.append_nil]
        exact .unfinished hgap ⟨hne, hrun, by omega⟩
    · have hend : scan run (blank :: left) = .ended run left := by
        rw [scan, if_pos hblank, if_neg (by simpa using hne)]
      show Found _ (scan run (blank :: left))
      rw [hend]
      exact .ended hgap ⟨hne, hrun, by omega⟩ hblank

end Redraw.Token
