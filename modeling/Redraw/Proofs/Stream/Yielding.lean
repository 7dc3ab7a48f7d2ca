import Redraw.Proofs.Stream.Verdict

/-!
# What readings yield

Off an input that ends without a fault, a reading that only asks for tokens yields a value or is
refused. The values that it yields can be told part by part: a token is yielded by the bytes that
begin with it, behind a gap and up to a blank or the end; and of two readings, the second yields its
value off what the first leaves. Token after token, the bytes are split as far as they are read.
-/

namespace Redraw

namespace Bytes

/-- Bytes that are a text are its UTF-8 form. -/
theorem eq_ofText_of_text? {bytes : Bytes} {text : String} (h : text? bytes = some text) :
    bytes = ofText text := by
  unfold text? String.fromUTF8? at h
  split at h
  · cases h
    rfl
  · cases h

end Bytes

namespace Token

/-- Bytes begin with a token, behind a gap: either a blank ends it and the bytes behind that are
left, or the bytes end with it. -/
def Cut (bytes token left : Bytes) : Prop :=
  ∃ gap : Bytes, (∀ byte ∈ gap, isBlank byte = true) ∧ IsWord token ∧
    ((∃ blank, isBlank blank = true ∧ bytes = gap ++ (token ++ blank :: left)) ∨
      (bytes = gap ++ token ∧ left = []))

theorem Cut.isWord {bytes token left : Bytes} (h : Cut bytes token left) : IsWord token := by
  obtain ⟨_, _, hword, _⟩ := h
  exact hword

/-- Bytes begin with several tokens, one after the other. -/
def Cuts : Bytes → List Bytes → Bytes → Prop
  | bytes, [], left => bytes = left
  | bytes, token :: tokens, left => ∃ mid, Cut bytes token mid ∧ Cuts mid tokens left

theorem cuts_append_iff {bytes left : Bytes} {tokens tokens' : List Bytes} :
    Cuts bytes (tokens ++ tokens') left ↔
      ∃ mid, Cuts bytes tokens mid ∧ Cuts mid tokens' left := by
  induction tokens generalizing bytes with
  | nil =>
    constructor
    · exact fun h => ⟨bytes, rfl, h⟩
    · rintro ⟨mid, rfl, h⟩
      exact h
  | cons token tokens ih =>
    constructor
    · rintro ⟨first, hcut, hcuts⟩
      obtain ⟨mid, hmid, hleft⟩ := ih.mp hcuts
      exact ⟨mid, ⟨first, hcut, hmid⟩, hleft⟩
    · rintro ⟨mid, ⟨first, hcut, hmid⟩, hleft⟩
      exact ⟨first, hcut, ih.mpr ⟨mid, hmid, hleft⟩⟩

/-- A token that bytes begin with is the first one that they split into. -/
theorem Cut.split_eq {bytes token left : Bytes} (h : Cut bytes token left) :
    split bytes = token :: split left := by
  obtain ⟨gap, hgap, hword, ⟨blank, hblank, rfl⟩ | ⟨rfl, rfl⟩⟩ := h
  · exact split_gap_word hgap hword hblank left
  · rw [split_gap hgap, split_word hword.ne_nil hword.not_blank, split_nil]

/-- Tokens that bytes begin with are the first ones that they split into. -/
theorem Cuts.split_eq {bytes left : Bytes} {tokens : List Bytes} (h : Cuts bytes tokens left) :
    split bytes = tokens ++ split left := by
  induction tokens generalizing bytes with
  | nil =>
    obtain rfl : bytes = left := h
    rfl
  | cons token tokens ih =>
    obtain ⟨mid, hcut, hcuts⟩ := h
    rw [hcut.split_eq, ih hcuts, List.cons_append]

/-- Bytes begin with the first token that they split into, unless it is too long. -/
theorem exists_cut_of_split {bytes token : Bytes} {tokens : List Bytes}
    (h : split bytes = token :: tokens) (hlength : token.length ≤ limit) :
    ∃ left, Cut bytes token left ∧ split left = tokens := by
  obtain ⟨gap, run, after, rfl, hgap, hrun, hafter⟩ := exists_gap_run bytes
  rw [split_gap hgap] at h
  rcases hafter with rfl | ⟨hne, blank, left, rfl, hblank⟩
  · rw [List.append_nil] at h ⊢
    by_cases hne : run = []
    · rw [hne, split_nil] at h
      cases h
    · rw [split_word hne hrun] at h
      cases h
      exact ⟨[], ⟨gap, hgap, ⟨hne, hrun, hlength⟩, Or.inr ⟨rfl, rfl⟩⟩, rfl⟩
  · rw [split_append_cons run left hblank, split_word hne hrun] at h
    cases h
    exact ⟨left, ⟨gap, hgap, ⟨hne, hrun, hlength⟩, Or.inl ⟨blank, hblank, rfl⟩⟩, rfl⟩

/-- Bytes begin with the first tokens that they split into, unless one of these is too long. -/
theorem exists_cuts_of_split {bytes : Bytes} {tokens more : List Bytes}
    (h : split bytes = tokens ++ more) (hlength : ∀ token ∈ tokens, token.length ≤ limit) :
    ∃ left, Cuts bytes tokens left ∧ split left = more := by
  induction tokens generalizing bytes with
  | nil => exact ⟨bytes, rfl, h⟩
  | cons token tokens ih =>
    rw [List.forall_mem_cons] at hlength
    obtain ⟨mid, hcut, hmid⟩ := exists_cut_of_split h hlength.1
    obtain ⟨left, hcuts, hleft⟩ := ih hmid hlength.2
    exact ⟨left, ⟨mid, hcut, hcuts⟩, hleft⟩

/-- What is left behind several tokens begins behind the blank that ends the last of them; nothing
is left when the bytes end with it. -/
theorem Cuts.exists_front {bytes left last : Bytes} {tokens : List Bytes}
    (h : Cuts bytes (tokens ++ [last]) left) :
    ∃ front, split (front ++ last) = tokens ++ [last] ∧
      ((∃ blank, isBlank blank = true ∧ bytes = front ++ (last ++ blank :: left)) ∨
        (bytes = front ++ last ∧ left = [])) := by
  induction tokens generalizing bytes with
  | nil =>
    obtain ⟨mid, ⟨gap, hgap, hword, hend⟩, rfl⟩ := h
    refine ⟨gap, ?_, hend⟩
    rw [split_gap hgap, split_word hword.ne_nil hword.not_blank, List.nil_append]
  | cons token tokens ih =>
    obtain ⟨mid, ⟨gap, hgap, hword, hend⟩, hcuts⟩ := h
    obtain ⟨front, hfront, hrest⟩ := ih hcuts
    rcases hend with ⟨blank, hblank, rfl⟩ | ⟨rfl, rfl⟩
    · refine ⟨gap ++ (token ++ blank :: front), ?_, ?_⟩
      · simp only [List.append_assoc, List.cons_append]
        rw [split_gap_word hgap hword hblank, hfront]
      · rcases hrest with ⟨blank', hblank', rfl⟩ | ⟨rfl, rfl⟩
        · exact Or.inl ⟨blank', hblank', by simp only [List.append_assoc, List.cons_append]⟩
        · exact Or.inr ⟨by simp only [List.append_assoc, List.cons_append], rfl⟩
    · -- Where the bytes end with a token, no other can follow it.
      have hnone := hcuts.split_eq
      rw [split_nil] at hnone
      simp at hnone

/-- A token that is handed on as text has the bytes of that text. -/
theorem eq_of_next_run {part text : String} {input mid after : Input} {word : Bytes}
    (hbytes : nextBytes.run.run input = (.ok (some word), mid))
    (h : (next part).run.run input = (.ok text, after)) :
    word = Bytes.ofText text ∧ mid = after := by
  rw [next_run_of_some part hbytes] at h
  cases htext : Bytes.text? word with
  | none =>
    rw [htext] at h
    cases h
  | some text' =>
    rw [htext] at h
    obtain ⟨hresult, rfl⟩ := Prod.mk.inj h
    obtain rfl : text' = text := Except.ok.inj hresult
    exact ⟨Bytes.eq_ofText_of_text? htext, rfl⟩

end Token

namespace Reading

variable {α β : Type}

/-- Off an input with these bytes that ends without a fault, the reading gives the value and leaves
the bytes left. -/
def Yields (reading : Reading α) (bytes : Bytes) (value : α) (left : Bytes) : Prop :=
  ∀ chunks : List Bytes, chunks.flatten = bytes → ∃ after : List Bytes,
    reading.run.run { chunks := chunks } = (.ok value, { chunks := after }) ∧
      after.flatten = left

/-- What a reading gives off one input, it yields off all with the same bytes. -/
theorem Tokenwise.yields {reading : Reading α} (h : Tokenwise reading) {chunks : List Bytes}
    {value : α} {after : Input} (hrun : reading.run.run { chunks := chunks } = (.ok value, after)) :
    Yields reading chunks.flatten value after.rest := by
  intro chunks' hbytes
  -- One verdict holds for both inputs; the run at hand only says which of the three ends it is.
  cases h.verdict chunks.flatten with
  | settles result left h =>
    obtain ⟨after', hrun', hleft, _⟩ := h.run { chunks := chunks } [] (List.append_nil _).symm
    obtain ⟨⟨after'', ending⟩, hrun'', hleft', hending, _⟩ :=
      h.run { chunks := chunks' } [] (hbytes.trans (List.append_nil _).symm)
    rw [hrun] at hrun'
    obtain ⟨hresult, rfl⟩ := Prod.mk.inj hrun'
    obtain rfl : ending = .closed := hending
    exact ⟨after'', by rw [hrun'', hresult], hleft'.trans hleft.symm⟩
  | starves result h =>
    have hrun' := h.run { chunks := chunks } rfl
    have hrun'' := h.run { chunks := chunks' } hbytes
    rw [hrun] at hrun'
    obtain ⟨hresult, rfl⟩ := Prod.mk.inj hrun'
    exact ⟨[], by rw [hrun'', hresult], rfl⟩
  | chokes before gap long after h =>
    obtain ⟨left, hrun', _⟩ := h.run { chunks := chunks } [] (List.append_nil _).symm
    rw [hrun] at hrun'
    cases hrun'

theorem yields_pure_iff {given value : α} {bytes left : Bytes} :
    Yields (pure given) bytes value left ↔ given = value ∧ bytes = left := by
  constructor
  · intro h
    obtain ⟨after, hrun, hleft⟩ := h [bytes] (List.append_nil _)
    obtain ⟨hvalue, hafter⟩ := Prod.mk.inj hrun
    refine ⟨Except.ok.inj hvalue, ?_⟩
    rw [← hleft, ← (Input.mk.inj hafter).1]
    exact (List.append_nil _).symm
  · rintro ⟨rfl, rfl⟩ chunks hbytes
    exact ⟨chunks, rfl, hbytes⟩

theorem not_yields_throw {fault : Fault} {bytes left : Bytes} {value : α} :
    ¬ Yields (throw fault) bytes value left := by
  intro h
  obtain ⟨after, hrun, _⟩ := h [bytes] (List.append_nil _)
  cases hrun

/-- Of two readings, the second yields its value off what the first leaves. -/
theorem yields_bind_iff {reading : Reading α} {next : α → Reading β} (h : Tokenwise reading)
    (h' : ∀ value, Tokenwise (next value)) {bytes left : Bytes} {value : β} :
    Yields (reading >>= next) bytes value left ↔
      ∃ given mid, Yields reading bytes given mid ∧ Yields (next given) mid value left := by
  constructor
  · intro hboth
    obtain ⟨after, hrun, hleft⟩ := hboth [bytes] (List.append_nil _)
    have hbytes : [bytes].flatten = bytes := List.append_nil _
    rcases hfirst : reading.run.run { chunks := [bytes] } with ⟨fault | given, mid⟩
    · rw [run_bind_error hfirst] at hrun
      cases hrun
    · -- Both readings are seen in this one run; that they yield as much off other chunks is in
      -- their being tokenwise.
      have hyields := h.yields hfirst
      rw [hbytes] at hyields
      obtain ⟨chunks, hmid, _⟩ := hyields [bytes] hbytes
      rw [hfirst] at hmid
      obtain rfl : mid = { chunks := chunks } := (Prod.mk.inj hmid).2
      rw [run_bind hfirst] at hrun
      refine ⟨given, chunks.flatten, hyields, ?_⟩
      rw [← hleft]
      exact (h' given).yields hrun
  · rintro ⟨given, mid, hfirst, hsecond⟩ chunks hbytes
    obtain ⟨chunks', hrun, hmid⟩ := hfirst chunks hbytes
    obtain ⟨after, hrun', hleft⟩ := hsecond chunks' hmid
    exact ⟨after, (run_bind hrun).trans hrun', hleft⟩

/-- A token that is text is yielded by the bytes that begin with it. -/
theorem yields_next_of_cut (part : String) {bytes left : Bytes} {text : String}
    (h : Token.Cut bytes (Bytes.ofText text) left) :
    Yields (Token.next part) bytes text left := by
  intro chunks hbytes
  obtain ⟨gap, hgap, hword, ⟨blank, hblank, rfl⟩ | ⟨rfl, rfl⟩⟩ := h
  · have hrest : Input.rest ⟨chunks, .closed⟩ = gap ++ (Bytes.ofText text ++ blank :: left) ++ [] :=
      hbytes.trans (List.append_nil _).symm
    obtain ⟨⟨after, ending⟩, hrun, hleft, hleaves⟩ :=
      Token.nextBytes_run_of_ended hgap hword hblank hrest
    obtain rfl : ending = .closed := hleaves.ending_eq
    have hnext := Token.next_run_of_some part hrun
    rw [Bytes.text?_ofText] at hnext
    exact ⟨after, hnext, hleft.trans (List.append_nil _)⟩
  · have hscan : Token.scan [] (Input.rest ⟨chunks, .closed⟩) =
        .unfinished (Bytes.ofText text) := by
      rw [Input.rest, hbytes, Token.scan_gap hgap, Token.scan_word [] hword.not_blank
        (by simpa using hword.length_le), List.nil_append]
    have hrun := Token.nextBytes_run_of_unfinished hscan
    rw [List.isEmpty_eq_false_iff.mpr hword.ne_nil] at hrun
    have hnext := Token.next_run_of_some part hrun
    rw [Bytes.text?_ofText] at hnext
    exact ⟨[], hnext, rfl⟩

/-- A token is yielded by the bytes that begin with it, and by no others. -/
theorem yields_next_iff (part : String) {bytes left : Bytes} {text : String} :
    Yields (Token.next part) bytes text left ↔ Token.Cut bytes (Bytes.ofText text) left := by
  refine ⟨fun h => ?_, yields_next_of_cut part⟩
  obtain ⟨after, hrun, hleft⟩ := h [bytes] (List.append_nil _)
  have hrest : ({ chunks := [bytes] } : Input).rest = bytes := List.append_nil _
  have hfound := Token.found_scan bytes
  generalize hscan : Token.scan [] bytes = outcome at hfound
  cases hfound with
  | blank hgap =>
    rw [Token.next_run_of_none part
      (Token.nextBytes_run_of_unfinished ((congrArg _ hrest).trans hscan))] at hrun
    cases hrun
  | unfinished hgap hword =>
    have hbytes := Token.nextBytes_run_of_unfinished ((congrArg _ hrest).trans hscan)
    rw [List.isEmpty_eq_false_iff.mpr hword.ne_nil] at hbytes
    obtain ⟨rfl, hafter⟩ := Token.eq_of_next_run hbytes hrun
    rw [← (Input.mk.inj hafter).1] at hleft
    exact ⟨_, hgap, hword, Or.inr ⟨rfl, hleft.symm⟩⟩
  | ended hgap hword hblank =>
    obtain ⟨mid, hbytes, hmid, _⟩ := Token.nextBytes_run_of_ended hgap hword hblank
      (hrest.trans (List.append_nil _).symm)
    obtain ⟨rfl, rfl⟩ := Token.eq_of_next_run hbytes hrun
    rw [List.append_nil] at hmid
    exact ⟨_, hgap, hword, Or.inl ⟨_, hblank, by rw [← hleft, ← hmid, Input.rest]⟩⟩
  | tooLong hgap hlong hlength =>
    obtain ⟨mid, hbytes⟩ := Token.nextBytes_run_of_tooLong ((congrArg _ hrest).trans hscan)
    rw [Token.next_run_of_error part hbytes] at hrun
    cases hrun

/-- When a token is asked for, the rest yields its value off what is left behind it. -/
theorem yields_next_bind_iff (part : String) {rest : String → Reading α}
    (h : ∀ text, Tokenwise (rest text)) {bytes left : Bytes} {value : α} :
    Yields (Token.next part >>= rest) bytes value left ↔
      ∃ text mid, Token.Cut bytes (Bytes.ofText text) mid ∧ Yields (rest text) mid value left := by
  simp only [yields_bind_iff (tokenwise_next part) h, yields_next_iff]

end Reading

end Redraw
