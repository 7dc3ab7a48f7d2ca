import Redraw.Proofs.Stream.Buffering

/-!
# What readings come to

A reading that does nothing but ask for tokens and decide by them comes to one of three ends on
given bytes, however they are cut into chunks. It settles: there is a result, and no matter what
follows the bytes, it is that result. It starves: it asks for a byte beyond the last one, and what
it gets is up to the end of the input. Or it chokes on a token that is too long; that is the one end
in which the cuts between chunks show, since the chunk in which it happens is left untaken.
-/

namespace Redraw

/-- Bytes up to the byte too many of the first token that is too long. -/
structure Token.Overlong (bytes before gap long after : Bytes) : Prop where
  /-- The bytes are tokens, a gap, the bytes of the token that are too many, and what follows. -/
  eq_append : bytes = before ++ (gap ++ (long ++ after))
  /-- What comes before is nothing, or ends with the blank behind a token. -/
  before_ends : before = [] ∨ ∃ front byte blank, before = front ++ [byte, blank] ∧
    isBlank byte = false ∧ isBlank blank = true
  /-- The tokens before are not too long. -/
  length_le : ∀ token ∈ split before, token.length ≤ limit
  /-- The gap is of blanks. -/
  gap_blank : ∀ byte ∈ gap, isBlank byte = true
  /-- The bytes of the token are not. -/
  long_not_blank : ∀ byte ∈ long, isBlank byte = false
  /-- They are one more than a token may have. -/
  length_long : long.length = limit + 1

namespace Reading

variable {α β : Type}

/-- Readings that only ask for tokens, and decide by them. -/
inductive Tokenwise : Reading α → Prop where
  /-- There is a result. -/
  | pure (value : α) : Tokenwise (pure value)
  /-- What was read is refused. -/
  | refuse (cause : Malformed) (h : ∀ n, cause ≠ .tokenTooLong n) :
    Tokenwise (throw (.malformed cause))
  /-- The next token says how to go on. -/
  | next (part : String) {rest : String → Reading α} (h : ∀ text, Tokenwise (rest text)) :
    Tokenwise (Token.next part >>= rest)

theorem Tokenwise.bind {reading : Reading α} {rest : α → Reading β} (h : Tokenwise reading)
    (h' : ∀ value, Tokenwise (rest value)) : Tokenwise (reading >>= rest) := by
  induction h with
  | pure value =>
    rw [pure_bind]
    exact h' value
  | refuse cause hcause => exact .refuse cause hcause
  | next part _ ih =>
    rw [bind_assoc]
    exact .next part ih

theorem Tokenwise.ite {p : Prop} [Decidable p] {reading reading' : Reading α}
    (h : Tokenwise reading) (h' : Tokenwise reading') :
    Tokenwise (if p then reading else reading') := by
  split
  · exact h
  · exact h'

theorem tokenwise_next (part : String) : Tokenwise (Token.next part) := by
  rw [← bind_pure (Token.next part)]
  exact .next part .pure

/-- A result within the bytes: whatever follows them, the reading has that result and leaves what is
left of the bytes and what follows. -/
structure Settles (reading : Reading α) (bytes : Bytes) (result : Except Malformed α)
    (left : Bytes) : Prop where
  /-- The result is not that a token is too long. -/
  ne_tooLong : ∀ n, result ≠ .error (.tokenTooLong n)
  /-- The reading has the result, and looks for chunks no further than it has to. -/
  run : ∀ (input : Input) (more : Bytes), input.rest = bytes ++ more →
    ∃ after : Input, reading.run.run input = (result.mapError .malformed, after) ∧
      after.rest = left ++ more ∧ after.ending = input.ending ∧
      (after.chunks = [] ↔ input.chunks = [])

/-- No result within the bytes: the reading asks for more. It has a result where the bytes end, and
another one where they go on with a token that is too long. -/
structure Starves (reading : Reading α) (bytes : Bytes) (result : Except Malformed α) : Prop where
  /-- The result is not that a token is too long. -/
  ne_tooLong : ∀ n, result ≠ .error (.tokenTooLong n)
  /-- At the end of the input there is the result, and its fault if it has one. -/
  run : ∀ input : Input, input.rest = bytes →
    reading.run.run input = (match input.ending with
      | .closed => result.mapError .malformed
      | .failed fault => .error (.io fault), { input with chunks := [] })
  /-- More bytes can make a token too long. -/
  run_append : ∀ (input : Input) (word : Bytes), input.rest = bytes ++ word →
    (∀ byte ∈ word, Token.isBlank byte = false) → Token.limit < word.length →
    (reading.run.run input).1 = .error (.malformed (.tokenTooLong Token.limit))

/-- A token is too long: whatever follows the bytes, the reading refuses it, and leaves the chunk
with the byte too many, or as much of it as no token was taken from. -/
structure Chokes (reading : Reading α) (bytes before gap long after : Bytes) : Prop where
  /-- The token that is too long. -/
  overlong : Token.Overlong bytes before gap long after
  /-- It is refused. -/
  run : ∀ (input : Input) (more : Bytes), input.rest = bytes ++ more →
    ∃ left : Input, reading.run.run input =
        (.error (.malformed (.tokenTooLong Token.limit)), left) ∧
      left.rest = input.rest.drop (max before.length
        (Input.chunkStart input.chunks (before.length + gap.length + Token.limit))) ∧
      left.ending = input.ending

/-- What a reading comes to on bytes. -/
inductive Verdict (reading : Reading α) (bytes : Bytes) : Prop where
  /-- There is a result within the bytes. -/
  | settles (result : Except Malformed α) (left : Bytes) (h : Settles reading bytes result left)
  /-- The reading asks for more. -/
  | starves (result : Except Malformed α) (h : Starves reading bytes result)
  /-- A token is too long. -/
  | chokes (before gap long after : Bytes) (h : Chokes reading bytes before gap long after)

/-- A result that is not a token that is too long is none as a fault either. -/
theorem mapError_ne_tooLong {result : Except Malformed α}
    (h : ∀ n, result ≠ .error (.tokenTooLong n)) (n : Nat) :
    result.mapError Fault.malformed ≠ .error (.malformed (.tokenTooLong n)) := by
  intro heq
  cases result with
  | ok value => cases heq
  | error cause =>
    have hcause : cause = .tokenTooLong n := Fault.malformed.inj (Except.error.inj heq)
    exact h n (congrArg Except.error hcause)

/-- What is wrong with what was read is not the fault of an input. -/
theorem mapError_ne_io (result : Except Malformed α) (fault : IoFault) :
    result.mapError Fault.malformed ≠ .error (.io fault) := by
  intro heq
  cases result <;> cases heq

/-- A reading that is refused hands its fault on. -/
theorem run_bind_error {reading : Reading α} {next : α → Reading β} {input left : Input}
    {fault : Fault} (h : reading.run.run input = (.error fault, left)) :
    (reading >>= next).run.run input = (.error fault, left) := by
  rw [ExceptT.run_bind, StateT.run_bind, h]
  rfl

end Reading

namespace Token

variable {α : Type}

/-- The bytes of the next token are those that the chunks come to. -/
theorem nextBytes_run (input : Input) : nextBytes.run.run input =
    ((collect input.ending [] input.chunks).1,
      { input with chunks := (collect input.ending [] input.chunks).2 }) :=
  rfl

/-- A token is handed on as text. -/
theorem next_run_of_some (part : String) {input left : Input} {word : Bytes}
    (h : nextBytes.run.run input = (.ok (some word), left)) :
    (next part).run.run input = match Bytes.text? word with
      | some text => (.ok text, left)
      | none => (.error (.malformed .tokenNotText), left) := by
  rw [next, Reading.run_bind h]
  dsimp only
  cases Bytes.text? word <;> rfl

theorem next_run_of_none (part : String) {input left : Input}
    (h : nextBytes.run.run input = (.ok none, left)) :
    (next part).run.run input = (.error (.malformed (.endOfInput part)), left) := by
  rw [next, Reading.run_bind h]
  rfl

theorem next_run_of_error (part : String) {input left : Input} {fault : Fault}
    (h : nextBytes.run.run input = (.error fault, left)) :
    (next part).run.run input = (.error fault, left) :=
  Reading.run_bind_error h

/-- A token that ends within the bytes is taken with its gap and its blank. -/
theorem nextBytes_run_of_ended {gap word left : Bytes} {blank : UInt8}
    (hgap : ∀ byte ∈ gap, isBlank byte = true) (hword : IsWord word)
    (hblank : isBlank blank = true) {input : Input} {more : Bytes}
    (hrest : input.rest = gap ++ (word ++ blank :: left) ++ more) :
    ∃ mid : Input, nextBytes.run.run input = (.ok (some word), mid) ∧ mid.rest = left ++ more ∧
      input.Leaves (gap.length + word.length + 1) mid := by
  have hbytes : input.chunks.flatten = gap ++ (word ++ blank :: (left ++ more)) := by
    rw [← Input.rest, hrest]
    simp only [List.append_assoc, List.cons_append]
  have hscan : scan [] input.chunks.flatten = .ended word (left ++ more) := by
    rw [hbytes, scan_gap hgap, scan_word_blank hword hblank]
  obtain ⟨passed, taken, kept, behind, hchunks, hcollect, hleft⟩ :=
    collect_of_ended input.ending hscan
  have hlength : gap.length + word.length + 1 = passed.flatten.length + taken.length := by
    have htotal := congrArg List.length hbytes
    have hkept := congrArg List.length hleft
    simp only [hchunks, List.flatten_append, List.flatten_cons, List.length_append,
      List.length_cons] at htotal hkept
    omega
  refine ⟨{ input with chunks := kept :: behind }, ?_, hleft, ?_⟩
  · rw [nextBytes_run, hcollect]
  · rw [hlength]
    exact Input.leaves_of_taken hchunks

/-- Bytes that end before a token does are all taken, and then it is up to the end of the input. -/
theorem nextBytes_run_of_unfinished {input : Input} {word : Bytes}
    (h : scan [] input.rest = .unfinished word) : nextBytes.run.run input =
      (match input.ending with
        | .closed => .ok (if word.isEmpty then none else some word)
        | .failed fault => .error (.io fault), { input with chunks := [] }) := by
  rw [nextBytes_run]
  exact congrArg (fun outcome => (outcome.1, { input with chunks := outcome.2 }))
    (collect_of_unfinished input.ending h)

/-- A token that is too long is refused. -/
theorem nextBytes_run_of_tooLong {input : Input} (h : scan [] input.rest = .tooLong) :
    ∃ left : Input,
      nextBytes.run.run input = (.error (.malformed (.tokenTooLong limit)), left) := by
  obtain ⟨_, chunk, behind, _, hcollect, _⟩ := collect_of_tooLong input.ending h
  exact ⟨{ input with chunks := chunk :: behind }, by rw [nextBytes_run, hcollect]⟩

/-- Behind one more token, the first that is too long is the same. -/
theorem Overlong.behind {left before gap long after : Bytes}
    (h : Overlong left before gap long after) {gap' word : Bytes} {blank : UInt8}
    (hgap : ∀ byte ∈ gap', isBlank byte = true) (hword : IsWord word)
    (hblank : isBlank blank = true) :
    Overlong (gap' ++ (word ++ blank :: left)) (gap' ++ (word ++ blank :: before)) gap long
      after where
  eq_append := by
    rw [h.eq_append]
    simp only [List.append_assoc, List.cons_append]
  before_ends := by
    right
    rcases h.before_ends with rfl | ⟨front, byte, blank', rfl, hbyte, hblank'⟩
    · have hlast := List.dropLast_concat_getLast hword.ne_nil
      refine ⟨gap' ++ word.dropLast, word.getLast hword.ne_nil, blank, ?_,
        hword.not_blank _ (List.getLast_mem _), hblank⟩
      rw [List.append_assoc, List.append_cons word.dropLast, hlast]
    · refine ⟨gap' ++ (word ++ blank :: front), byte, blank', ?_, hbyte, hblank'⟩
      simp only [List.append_assoc, List.cons_append]
  length_le := by
    rw [split_gap_word hgap hword hblank, List.forall_mem_cons]
    exact ⟨hword.length_le, h.length_le⟩
  gap_blank := h.gap_blank
  long_not_blank := h.long_not_blank
  length_long := h.length_long

end Token

namespace Reading

variable {α : Type}

/-- Where there is nothing at all to read, a reading has a result. -/
theorem Verdict.exists_result_nil {reading : Reading α} (h : Verdict reading []) :
    ∃ result : Except Malformed α, (∀ n, result ≠ .error (.tokenTooLong n)) ∧
      reading.run.run { chunks := [] } = (result.mapError .malformed, { chunks := [] }) := by
  cases h with
  | settles result left h =>
    obtain ⟨⟨chunks, ending⟩, hrun, _, hending, hchunks⟩ := h.run { chunks := [] } [] rfl
    obtain rfl : chunks = [] := hchunks.mpr rfl
    obtain rfl : ending = .closed := hending
    exact ⟨result, h.ne_tooLong, hrun⟩
  | starves result h => exact ⟨result, h.ne_tooLong, h.run { chunks := [] } rfl⟩
  | chokes before gap long after h =>
    have hlength := congrArg List.length h.overlong.eq_append
    have hlong := h.overlong.length_long
    simp only [List.length_nil, List.length_append] at hlength
    omega

/-- When a token ends within the bytes and is text, the reading goes on with what is left. -/
theorem exists_run_next_of_ended (part : String) (rest : String → Reading α) {text : String}
    {gap word left : Bytes} {blank : UInt8} (hgap : ∀ byte ∈ gap, Token.isBlank byte = true)
    (hword : Token.IsWord word) (hblank : Token.isBlank blank = true)
    (htext : Bytes.text? word = some text) {input : Input} {more : Bytes}
    (hrest : input.rest = gap ++ (word ++ blank :: left) ++ more) :
    ∃ mid : Input, (Token.next part >>= rest).run.run input = (rest text).run.run mid ∧
      mid.rest = left ++ more ∧ input.Leaves (gap.length + word.length + 1) mid := by
  obtain ⟨mid, hrun, hmid⟩ := Token.nextBytes_run_of_ended hgap hword hblank hrest
  have hnext := Token.next_run_of_some part hrun
  rw [htext] at hnext
  exact ⟨mid, run_bind hnext, hmid⟩

/-- When a token ends within the bytes, the rest of the reading has its verdict on what is left. -/
theorem verdict_next_of_ended (part : String) {rest : String → Reading α}
    {gap word left : Bytes} {blank : UInt8} (hgap : ∀ byte ∈ gap, Token.isBlank byte = true)
    (hword : Token.IsWord word) (hblank : Token.isBlank blank = true)
    (h : ∀ text, Verdict (rest text) left) :
    Verdict (Token.next part >>= rest) (gap ++ (word ++ blank :: left)) := by
  cases htext : Bytes.text? word with
  | none =>
    refine .settles (.error .tokenNotText) left ⟨by simp, fun input more hrest => ?_⟩
    obtain ⟨mid, hrun, hmid, hleaves⟩ := Token.nextBytes_run_of_ended hgap hword hblank hrest
    have hnext := Token.next_run_of_some part hrun
    rw [htext] at hnext
    exact ⟨mid, run_bind_error hnext, hmid, hleaves.ending_eq,
      by simp [hleaves.chunks_ne_nil, hleaves.left_ne_nil]⟩
  | some text =>
    cases h text with
    | settles result left' h =>
      refine .settles result left' ⟨h.ne_tooLong, fun input more hrest => ?_⟩
      obtain ⟨mid, hrun, hmid, hleaves⟩ :=
        exists_run_next_of_ended part rest hgap hword hblank htext hrest
      obtain ⟨after, hafter, hleft, hending, hchunks⟩ := h.run mid more hmid
      refine ⟨after, hrun.trans hafter, hleft, hending.trans hleaves.ending_eq, ?_⟩
      rw [hchunks]
      simp [hleaves.chunks_ne_nil, hleaves.left_ne_nil]
    | starves result h =>
      refine .starves result ⟨h.ne_tooLong, fun input hrest => ?_, fun input word' hrest => ?_⟩
      · obtain ⟨mid, hrun, hmid, hleaves⟩ := exists_run_next_of_ended part rest hgap hword hblank
          htext (hrest.trans (List.append_nil _).symm)
        rw [hrun, h.run mid (hmid.trans (List.append_nil _)), hleaves.ending_eq]
      · obtain ⟨mid, hrun, hmid, _⟩ :=
          exists_run_next_of_ended part rest hgap hword hblank htext hrest
        rw [hrun]
        exact h.run_append mid word' hmid
    | chokes before gap' long after h =>
      refine .chokes _ gap' long after
        ⟨h.overlong.behind hgap hword hblank, fun input more hrest => ?_⟩
      obtain ⟨mid, hrun, hmid, hleaves⟩ :=
        exists_run_next_of_ended part rest hgap hword hblank htext hrest
      obtain ⟨after', hafter, hleft, hending⟩ := h.run mid more hmid
      refine ⟨after', hrun.trans hafter, ?_, hending.trans hleaves.ending_eq⟩
      have hbefore : (gap ++ (word ++ blank :: before)).length =
          gap.length + word.length + 1 + before.length := by
        simp only [List.length_append, List.length_cons]
        omega
      rw [hleft, hleaves.rest_eq, List.drop_drop, hbefore, ← hleaves.max_chunkStart]
      simp only [Nat.add_assoc]

/-- When the bytes end before a token does and the input has no fault, there is a result: there is
no token, or it is no text, or the rest of the reading has nothing more to read. -/
theorem exists_result_next_of_unfinished (part : String) {rest : String → Reading α}
    {bytes word : Bytes} (hscan : Token.scan [] bytes = .unfinished word)
    (h : ∀ text, Verdict (rest text) []) :
    ∃ result : Except Malformed α, (∀ n, result ≠ .error (.tokenTooLong n)) ∧
      ∀ chunks, chunks.flatten = bytes → (Token.next part >>= rest).run.run { chunks := chunks } =
        (result.mapError .malformed, { chunks := [] }) := by
  have hbytes : ∀ chunks, chunks.flatten = bytes →
      Token.nextBytes.run.run { chunks := chunks } =
        (.ok (if word.isEmpty then none else some word), { chunks := [] }) := by
    rintro chunks rfl
    exact Token.nextBytes_run_of_unfinished hscan
  by_cases hempty : word.isEmpty = true
  · refine ⟨.error (.endOfInput part), by simp, fun chunks hrest => ?_⟩
    have hrun := hbytes chunks hrest
    rw [if_pos hempty] at hrun
    exact run_bind_error (Token.next_run_of_none part hrun)
  · rw [if_neg hempty] at hbytes
    cases htext : Bytes.text? word with
    | none =>
      refine ⟨.error .tokenNotText, by simp, fun chunks hrest => ?_⟩
      have hnext := Token.next_run_of_some part (hbytes chunks hrest)
      rw [htext] at hnext
      exact run_bind_error hnext
    | some text =>
      obtain ⟨result, hne, hresult⟩ := (h text).exists_result_nil
      refine ⟨result, hne, fun chunks hrest => ?_⟩
      have hnext := Token.next_run_of_some part (hbytes chunks hrest)
      rw [htext] at hnext
      exact (run_bind hnext).trans hresult

/-- When the bytes end before a token does, the reading starves. -/
theorem verdict_next_of_unfinished (part : String) {rest : String → Reading α}
    {bytes word : Bytes} (hscan : Token.scan [] bytes = .unfinished word)
    (hroom : word.length ≤ Token.limit) (h : ∀ text, Verdict (rest text) []) :
    Verdict (Token.next part >>= rest) bytes := by
  obtain ⟨result, hne, hresult⟩ := exists_result_next_of_unfinished part hscan h
  refine .starves result ⟨hne, fun input hrest => ?_, fun input more hrest hmore hlong => ?_⟩
  · obtain ⟨chunks, ending⟩ := input
    cases ending with
    | closed => exact hresult chunks hrest
    | failed fault =>
      have hbytes : Token.scan [] (Input.rest ⟨chunks, .failed fault⟩) = .unfinished word := by
        rw [hrest, hscan]
      exact run_bind_error
        (Token.next_run_of_error part (Token.nextBytes_run_of_unfinished hbytes))
  · have htooLong : Token.scan [] input.rest = .tooLong := by
      rw [hrest, Token.scan_append, hscan]
      exact Token.scan_tooLong hmore hroom (by omega)
    obtain ⟨left, hrun⟩ := Token.nextBytes_run_of_tooLong htooLong
    rw [run_bind_error (Token.next_run_of_error part hrun)]

/-- When a token is too long within the bytes, the reading chokes on it. -/
theorem verdict_next_of_tooLong (part : String) (rest : String → Reading α)
    {gap long after : Bytes} (hgap : ∀ byte ∈ gap, Token.isBlank byte = true)
    (hlong : ∀ byte ∈ long, Token.isBlank byte = false)
    (hlength : long.length = Token.limit + 1) :
    Verdict (Token.next part >>= rest) (gap ++ (long ++ after)) := by
  refine .chokes [] gap long after ⟨⟨rfl, Or.inl rfl, by simp, hgap, hlong, hlength⟩, ?_⟩
  intro input more hrest
  have hbytes : input.chunks.flatten = gap ++ (long ++ (after ++ more)) := by
    rw [← Input.rest, hrest]
    simp only [List.append_assoc]
  have hscan : Token.scan [] input.chunks.flatten = .tooLong := by
    have hall : input.chunks.flatten ++ [] = gap ++ (long ++ (after ++ more)) := by
      rw [List.append_nil, hbytes]
    rw [Token.scan_eq_tooLong_iff hgap hlong hlength hall, hbytes]
    simp only [List.length_append]
    omega
  obtain ⟨passed, chunk, behind, hchunks, hcollect, hbefore, hin⟩ :=
    Token.collect_of_tooLong input.ending hscan
  have hsplit : passed.flatten ++ (chunk ++ behind.flatten) = gap ++ (long ++ (after ++ more)) := by
    rw [← hbytes, hchunks, List.flatten_append, List.flatten_cons]
  rw [ne_eq, Token.scan_eq_tooLong_iff hgap hlong hlength hsplit, Nat.not_lt] at hbefore
  rw [Token.scan_eq_tooLong_iff hgap hlong hlength ((List.append_assoc _ _ _).trans hsplit),
    List.length_append] at hin
  refine ⟨{ input with chunks := chunk :: behind }, ?_, ?_, rfl⟩
  · refine run_bind_error (Token.next_run_of_error part ?_)
    rw [Token.nextBytes_run, hcollect]
  · rw [List.length_nil, Nat.zero_max, Nat.zero_add, hchunks,
      Input.chunkStart_of_mem passed behind hbefore hin]
    simp only [Input.rest, hchunks, List.flatten_append, List.flatten_cons, List.drop_left]

/-- A reading that only asks for tokens comes to one of the three ends on any bytes. -/
theorem Tokenwise.verdict {reading : Reading α} (h : Tokenwise reading) (bytes : Bytes) :
    Verdict reading bytes := by
  induction h generalizing bytes with
  | pure value =>
    exact .settles (.ok value) bytes
      ⟨by simp, fun input more hrest => ⟨input, rfl, hrest, rfl, Iff.rfl⟩⟩
  | refuse cause hcause =>
    refine .settles (.error cause) bytes ⟨fun n heq => ?_, ?_⟩
    · exact hcause n (Except.error.inj heq)
    · exact fun input more hrest => ⟨input, rfl, hrest, rfl, Iff.rfl⟩
  | next part _ ih =>
    have hfound := Token.found_scan bytes
    generalize hscan : Token.scan [] bytes = outcome at hfound
    cases hfound with
    | blank hgap =>
      exact verdict_next_of_unfinished part hscan (Nat.zero_le _) fun text => ih text []
    | unfinished hgap hword =>
      exact verdict_next_of_unfinished part hscan hword.length_le fun text => ih text []
    | ended hgap hword hblank =>
      exact verdict_next_of_ended part hgap hword hblank fun text => ih text _
    | tooLong hgap hlong hlength => exact verdict_next_of_tooLong part _ hgap hlong hlength

/-- Off an input that ends without a fault, a reading has a result or refuses what it read. -/
theorem Tokenwise.run_of_closed {reading : Reading α} (h : Tokenwise reading)
    (chunks : List Bytes) : ∃ (result : Except Malformed α) (left : Input),
      reading.run.run ⟨chunks, .closed⟩ = (result.mapError .malformed, left) := by
  cases h.verdict chunks.flatten with
  | settles result _ h =>
    obtain ⟨left, hrun, _⟩ := h.run ⟨chunks, .closed⟩ [] (List.append_nil _).symm
    exact ⟨result, left, hrun⟩
  | starves result h => exact ⟨result, _, h.run ⟨chunks, .closed⟩ rfl⟩
  | chokes before gap long after h =>
    obtain ⟨left, hrun, _⟩ := h.run ⟨chunks, .closed⟩ [] (List.append_nil _).symm
    exact ⟨.error (.tokenTooLong Token.limit), left, hrun⟩

/-- The result of a reading hangs on the bytes and on how the input ends, not on the chunks. What is
refused is either what was read, or it is the fault of the input. -/
theorem Tokenwise.exists_result {reading : Reading α} (h : Tokenwise reading) (bytes : Bytes)
    (ending : Ending) : ∃ result : Except Fault α,
      (∀ chunks : List Bytes, chunks.flatten = bytes →
        (reading.run.run ⟨chunks, ending⟩).1 = result) ∧
      ∀ fault, result = .error fault →
        (∃ cause, fault = .malformed cause) ∨ ∃ broken, fault = .io broken ∧
          ending = .failed broken := by
  have hmalformed : ∀ (result : Except Malformed α) fault,
      result.mapError Fault.malformed = .error fault → ∃ cause, fault = .malformed cause := by
    rintro (cause | value) fault ⟨⟩
    exact ⟨cause, rfl⟩
  cases h.verdict bytes with
  | settles result left h =>
    refine ⟨result.mapError .malformed, fun chunks hbytes => ?_, fun fault hfault =>
      Or.inl (hmalformed result fault hfault)⟩
    obtain ⟨_, hrun, _⟩ := h.run ⟨chunks, ending⟩ [] (hbytes.trans (List.append_nil _).symm)
    rw [hrun]
  | starves result h =>
    cases ending with
    | closed =>
      exact ⟨result.mapError .malformed, fun chunks hbytes => by
        rw [h.run ⟨chunks, .closed⟩ hbytes],
        fun fault hfault => Or.inl (hmalformed result fault hfault)⟩
    | failed broken =>
      refine ⟨.error (.io broken), fun chunks hbytes => by
        rw [h.run ⟨chunks, .failed broken⟩ hbytes], ?_⟩
      rintro fault ⟨⟩
      exact Or.inr ⟨broken, rfl, rfl⟩
  | chokes before gap long after h =>
    refine ⟨.error (.malformed (.tokenTooLong Token.limit)), fun chunks hbytes => ?_, ?_⟩
    · obtain ⟨_, hrun, _⟩ := h.run ⟨chunks, ending⟩ [] (hbytes.trans (List.append_nil _).symm)
      rw [hrun]
    · rintro fault ⟨⟩
      exact Or.inl ⟨_, rfl⟩

/-- Inputs that hold the same bytes and end alike have the same result. -/
theorem Tokenwise.fst_run_eq {reading : Reading α} (h : Tokenwise reading) {input input' : Input}
    (hrest : input.rest = input'.rest) (hending : input.ending = input'.ending) :
    (reading.run.run input).1 = (reading.run.run input').1 := by
  obtain ⟨chunks, ending⟩ := input
  obtain ⟨chunks', ending'⟩ := input'
  obtain rfl : ending = ending' := hending
  obtain ⟨result, hresult, _⟩ := h.exists_result chunks'.flatten ending
  rw [hresult chunks hrest, hresult chunks' rfl]

/-- What is refused is what was read, or it is the fault of the input. -/
theorem Tokenwise.malformed_or_io {reading : Reading α} (h : Tokenwise reading) {input left : Input}
    {fault : Fault} (hrun : reading.run.run input = (.error fault, left)) :
    (∃ cause, fault = .malformed cause) ∨
      ∃ broken, fault = .io broken ∧ input.ending = .failed broken := by
  obtain ⟨chunks, ending⟩ := input
  obtain ⟨result, hresult, herror⟩ := h.exists_result chunks.flatten ending
  refine herror fault ?_
  rw [← hresult chunks rfl, hrun]

/-- What is read off an input that may have a fault is read off the same bytes without it. -/
theorem Tokenwise.run_closed_of_ok {reading : Reading α} (h : Tokenwise reading)
    {input left : Input} {value : α} (hrun : reading.run.run input = (.ok value, left)) :
    ∃ left', reading.run.run { chunks := input.chunks } = (.ok value, left') := by
  have hbytes : input.rest = input.chunks.flatten ++ [] := (List.append_nil _).symm
  cases h.verdict input.chunks.flatten with
  | settles result rest h =>
    obtain ⟨_, hrun', _⟩ := h.run input [] hbytes
    obtain ⟨left', hclosed, _⟩ := h.run { chunks := input.chunks } [] hbytes
    rw [hrun] at hrun'
    exact ⟨left', by rw [hclosed, ← (Prod.mk.inj hrun').1]⟩
  | starves result h =>
    have hrun' := h.run input rfl
    rw [hrun] at hrun'
    cases hending : input.ending with
    | closed =>
      rw [hending] at hrun'
      exact ⟨_, by rw [h.run { chunks := input.chunks } rfl, ← (Prod.mk.inj hrun').1]⟩
    | failed broken =>
      rw [hending] at hrun'
      cases hrun'
  | chokes before gap long after h =>
    obtain ⟨_, hrun', _⟩ := h.run input [] hbytes
    rw [hrun] at hrun'
    cases hrun'

end Reading

end Redraw
