import Redraw.Proofs.Stream.Verdict
import Redraw.Snapshot.Decode

/-!
# Decoding does not depend on chunks

Decoding a snapshot is a reading that only asks for tokens. So its result hangs on the bytes of an
input and on how it ends, and not on how the bytes are cut into chunks; and so does the number of
bytes that are taken, unless a token is too long. The fault of an input comes up exactly when
decoding looks past the last byte, which it does exactly when what follows could change the result.
-/

namespace Redraw.Snapshot

open Reading

theorem tokenwise_readMarker (part expected : String) : Tokenwise (readMarker part expected) :=
  .next part fun _ => .ite (.refuse _ (by simp)) (.pure ())

theorem tokenwise_number (part token : String) : Tokenwise (number part token) := by
  unfold number
  cases Numeral.word? token with
  | some word => exact .pure word
  | none => exact .refuse _ (by simp)

theorem tokenwise_readNumber (part : String) : Tokenwise (readNumber part) :=
  .next part (tokenwise_number part)

theorem tokenwise_readWord (before : Nat) : Tokenwise (readWord before) :=
  .next wordPart fun token => .ite (.refuse _ (by simp)) (tokenwise_number wordPart token)

theorem tokenwise_readWords (before n : Nat) : Tokenwise (readWords before n) := by
  induction n generalizing before with
  | zero => exact .pure []
  | succ n ih =>
    exact (tokenwise_readWord before).bind fun word => (ih (before + 1)).bind fun _ => .pure _

/-- Decoding only asks for tokens. -/
theorem tokenwise_decode : Tokenwise decode :=
  (tokenwise_readMarker _ _).bind fun _ => (tokenwise_readNumber _).bind fun _ =>
    (tokenwise_readNumber _).bind fun _ => (tokenwise_readWords _ _).bind fun _ =>
      (tokenwise_readMarker _ _).bind fun _ => .pure _

/-- The result of decoding an input that hands out the chunks and then ends so. -/
def decoded (chunks : List Bytes) (ending : Ending) : Except Fault Snapshot :=
  (decode.run.run ⟨chunks, ending⟩).1

/-- The number of bytes that decoding takes from an input. -/
def consumed (chunks : List Bytes) (ending : Ending) : Nat :=
  chunks.flatten.length - (decode.run.run ⟨chunks, ending⟩).2.rest.length

/-- Decoding the bytes up to their end asks for a byte behind the last one. No chunk is left then:
even one of which all bytes are taken is given up only for the sake of the next byte. -/
def LooksPast (bytes : Bytes) : Prop :=
  (decode.run.run (.ofBytes bytes)).2.chunks = []

variable {bytes : Bytes} {chunks : List Bytes} {result : Except Malformed Snapshot}

theorem decoded_of_settles {left : Bytes} (h : Settles decode bytes result left)
    (hbytes : chunks.flatten = bytes) (ending : Ending) :
    decoded chunks ending = result.mapError .malformed ∧
      consumed chunks ending = bytes.length - left.length := by
  obtain ⟨after, hrun, hleft, _⟩ :=
    h.run ⟨chunks, ending⟩ [] (hbytes.trans (List.append_nil _).symm)
  rw [List.append_nil] at hleft
  rw [decoded, consumed, hrun, hleft, hbytes]
  exact ⟨rfl, rfl⟩

theorem decoded_of_starves (h : Starves decode bytes result) (hbytes : chunks.flatten = bytes)
    (ending : Ending) :
    decoded chunks ending = (match ending with
        | .closed => result.mapError .malformed
        | .failed fault => .error (.io fault)) ∧
      consumed chunks ending = bytes.length := by
  rw [decoded, consumed, h.run ⟨chunks, ending⟩ hbytes, hbytes]
  exact ⟨rfl, rfl⟩

theorem decoded_of_chokes {before gap long after : Bytes}
    (h : Chokes decode bytes before gap long after) (hbytes : chunks.flatten = bytes)
    (ending : Ending) :
    decoded chunks ending = .error (.malformed (.tokenTooLong Token.limit)) ∧
      consumed chunks ending = max before.length
        (Input.chunkStart chunks (before.length + gap.length + Token.limit)) := by
  obtain ⟨left, hrun, hleft, _⟩ :=
    h.run ⟨chunks, ending⟩ [] (hbytes.trans (List.append_nil _).symm)
  have hstart := Input.chunkStart_le chunks (before.length + gap.length + Token.limit)
  have hlength := congrArg List.length h.overlong.eq_append
  have hlong := h.overlong.length_long
  simp only [List.length_append] at hlength
  refine ⟨by rw [decoded, hrun], ?_⟩
  rw [consumed, hrun, hleft, List.length_drop]
  simp only [Input.rest, hbytes]
  omega

theorem not_looksPast_of_settles {left : Bytes} (h : Settles decode bytes result left) :
    ¬ LooksPast bytes := by
  intro hpast
  obtain ⟨after, hrun, _, _, hchunks⟩ := h.run (.ofBytes bytes) [] rfl
  rw [LooksPast, hrun, hchunks] at hpast
  cases hpast

theorem looksPast_of_starves (h : Starves decode bytes result) : LooksPast bytes := by
  rw [LooksPast, h.run (.ofBytes bytes) (List.append_nil _)]

theorem not_looksPast_of_chokes {before gap long after : Bytes}
    (h : Chokes decode bytes before gap long after) : ¬ LooksPast bytes := by
  intro hpast
  obtain ⟨left, hrun, hleft, _⟩ := h.run (.ofBytes bytes) [] rfl
  have hnone : left.chunks = [] := by
    rw [LooksPast, hrun] at hpast
    exact hpast
  have hstart := Input.chunkStart_le [bytes] (before.length + gap.length + Token.limit)
  have hlength := congrArg List.length h.overlong.eq_append
  have hlong := h.overlong.length_long
  have hdrop := congrArg List.length hleft
  simp only [Input.rest, hnone, Input.ofBytes, List.flatten_nil, List.length_nil,
    List.flatten_cons, List.length_drop, List.length_append] at hdrop hlength
  omega

/-- Decoding looks past the last byte exactly when what follows could change the result. -/
theorem looksPast_iff_exists_ne (bytes : Bytes) :
    LooksPast bytes ↔ ∃ more, decoded [bytes ++ more] .closed ≠ decoded [bytes] .closed := by
  have hone : ∀ bytes : Bytes, [bytes].flatten = bytes := fun bytes => List.append_nil bytes
  cases tokenwise_decode.verdict bytes with
  | settles result left h =>
    refine iff_of_false (not_looksPast_of_settles h) fun ⟨more, hne⟩ => hne ?_
    obtain ⟨after, hrun, _⟩ := h.run ⟨[bytes ++ more], .closed⟩ more (hone _)
    rw [(decoded_of_settles h (hone bytes) .closed).1, decoded, hrun]
  | starves result h =>
    refine iff_of_true (looksPast_of_starves h) ⟨List.replicate (Token.limit + 1) 120, ?_⟩
    have hword : ∀ byte ∈ List.replicate (Token.limit + 1) (120 : UInt8),
        Token.isBlank byte = false := by
      intro byte hbyte
      rw [List.eq_of_mem_replicate hbyte]
      rfl
    have hlong := h.run_append ⟨[bytes ++ List.replicate (Token.limit + 1) 120], .closed⟩ _
      (hone _) hword (by rw [List.length_replicate]; omega)
    rw [(decoded_of_starves h (hone bytes) .closed).1, decoded, hlong]
    exact (mapError_ne_tooLong h.ne_tooLong _).symm
  | chokes before gap long after h =>
    refine iff_of_false (not_looksPast_of_chokes h) fun ⟨more, hne⟩ => hne ?_
    obtain ⟨left, hrun, _⟩ := h.run ⟨[bytes ++ more], .closed⟩ more (hone _)
    rw [(decoded_of_chokes h (hone bytes) .closed).1, decoded, hrun]

/-- What decoding comes to does not depend on how the bytes are cut into chunks, except that a token
that is too long leaves the chunk with its byte too many. And where the input has a fault at its
end, decoding has that fault exactly when it looks past the last byte, and otherwise the result that
the bytes have by themselves. -/
theorem decoded_of_flatten_eq {chunks chunks' : List Bytes} (h : chunks.flatten = chunks'.flatten)
    (ending : Ending) :
    decoded chunks ending = decoded chunks' ending ∧
    (decoded chunks ending ≠ .error (.malformed (.tokenTooLong Token.limit)) →
      consumed chunks ending = consumed chunks' ending) ∧
    (decoded chunks ending = .error (.malformed (.tokenTooLong Token.limit)) →
      ∃ before gap long after, Token.Overlong chunks.flatten before gap long after ∧
        consumed chunks ending = max before.length
          (Input.chunkStart chunks (before.length + gap.length + Token.limit))) ∧
    (∀ fault, (decoded chunks (.failed fault) = .error (.io fault) ↔ LooksPast chunks.flatten) ∧
      (¬ LooksPast chunks.flatten →
        decoded chunks (.failed fault) = decoded chunks .closed ∧
          consumed chunks (.failed fault) = consumed chunks .closed)) ∧
    (LooksPast chunks.flatten ↔
      ∃ more, decoded [chunks.flatten ++ more] .closed ≠ decoded [chunks.flatten] .closed) := by
  have hpast := looksPast_iff_exists_ne chunks.flatten
  cases tokenwise_decode.verdict chunks.flatten with
  | settles result left hverdict =>
    have hrun := decoded_of_settles hverdict rfl
    have hrun' := decoded_of_settles hverdict h.symm
    have hcalm := not_looksPast_of_settles hverdict
    refine ⟨?_, fun _ => ?_, fun hlong => ?_, fun fault => ⟨?_, fun _ => ⟨?_, ?_⟩⟩, hpast⟩
    · rw [(hrun ending).1, (hrun' ending).1]
    · rw [(hrun ending).2, (hrun' ending).2]
    · rw [(hrun ending).1] at hlong
      exact absurd hlong (mapError_ne_tooLong hverdict.ne_tooLong _)
    · rw [(hrun _).1]
      exact iff_of_false (mapError_ne_io result fault) hcalm
    · rw [(hrun _).1, (hrun _).1]
    · rw [(hrun _).2, (hrun _).2]
  | starves result hverdict =>
    have hrun := decoded_of_starves hverdict rfl
    have hrun' := decoded_of_starves hverdict h.symm
    have hstarved := looksPast_of_starves hverdict
    refine ⟨?_, fun _ => ?_, fun hlong => ?_, fun fault => ⟨?_, fun hcalm => ?_⟩, hpast⟩
    · rw [(hrun ending).1, (hrun' ending).1]
    · rw [(hrun ending).2, (hrun' ending).2]
    · rw [(hrun ending).1] at hlong
      cases ending with
      | closed => exact absurd hlong (mapError_ne_tooLong hverdict.ne_tooLong _)
      | failed fault => cases hlong
    · exact iff_of_true (hrun (.failed fault)).1 hstarved
    · exact absurd hstarved hcalm
  | chokes before gap long after hverdict =>
    have hrun := decoded_of_chokes hverdict rfl
    have hrun' := decoded_of_chokes hverdict h.symm
    have hcalm := not_looksPast_of_chokes hverdict
    refine ⟨?_, fun hne => ?_, fun _ => ?_, fun fault => ⟨?_, fun _ => ⟨?_, ?_⟩⟩, hpast⟩
    · rw [(hrun ending).1, (hrun' ending).1]
    · exact absurd (hrun ending).1 hne
    · exact ⟨before, gap, long, after, hverdict.overlong, (hrun ending).2⟩
    · rw [(hrun _).1]
      exact iff_of_false (by simp) hcalm
    · rw [(hrun _).1, (hrun _).1]
    · rw [(hrun _).2, (hrun _).2]

/-- Forty letters are too many for a token, in two chunks as in one. What is taken differs: the
letter too many is in the second chunk of the two, before which the first was taken. -/
theorem decoded_of_flatten_eq_letters :
    [List.replicate 20 120, List.replicate 20 120].flatten = [List.replicate 40 120].flatten ∧
      decoded [List.replicate 20 120, List.replicate 20 120] .closed =
        decoded [List.replicate 40 120] .closed ∧
      consumed [List.replicate 20 120, List.replicate 20 120] .closed = 20 ∧
      consumed [List.replicate 40 120] .closed = 0 :=
  ⟨rfl, (decoded_of_flatten_eq rfl .closed).1, rfl, rfl⟩

end Redraw.Snapshot
