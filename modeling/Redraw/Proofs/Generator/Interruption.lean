import Redraw.Generator.Operation
import Redraw.Proofs.Generator.Storing
import Redraw.Proofs.Snapshot.Truncation
import Redraw.Proofs.Stream.Writing

/-!
# Saving that is cut off

A writer may run out of room anywhere in the text form of a generator. Saving then fails with the
fault of the writer and reports nothing, and what was written is the front of the text, up to where
the room ended. Such a front is never taken for another state: it is refused, unless nothing is
missing but the space behind the end marker.
-/

namespace Redraw

open Snapshot (beginMarker)

namespace Generator

variable {σ : Type} {writer : Writer σ} {room : σ → Nat} {fault : IoFault}

/-- Saving to a sink with room for so many bytes is reported if the text has no more of them; it is
cut off there otherwise. -/
theorem save_run_of_room_some (g : Generator) (room : Nat) (refusal : IoFault) (journal : Journal) :
    (g.save.run.run ⟨[], some room, refusal⟩).run journal =
      if (Snapshot.ofGenerator g).encode.length ≤ room then
        ((.ok (), ⟨(Snapshot.ofGenerator g).encode,
          some (room - (Snapshot.ofGenerator g).encode.length), refusal⟩),
          journal ++ [.stateSaved g.seed])
      else
        ((.error (.io refusal), ⟨(Snapshot.ofGenerator g).encode.take room, some 0, refusal⟩),
          journal) := by
  have hpieces : (Snapshot.ofGenerator g).pieces.flatten = (Snapshot.ofGenerator g).encode := rfl
  rw [save, saveBy_run, Sink.writeAll_of_room_some, hpieces, List.nil_append]
  by_cases hfits : (Snapshot.ofGenerator g).encode.length ≤ room
  · rw [if_pos hfits, if_pos hfits, List.take_of_length_le hfits]
  · rw [if_neg hfits, if_neg hfits, Nat.sub_eq_zero_of_le (Nat.le_of_not_le hfits)]

/-- Saving to a writer with room for so many bytes is reported if the text has no more of them; it
is cut off there otherwise. -/
theorem saveBy_keepAll_run (h : writer.Limited room fault) (g : Generator) (written : Bytes) (s : σ)
    (journal : Journal) :
    ((g.saveBy writer.keepAll).run.run (written, s)).run journal =
      if (Snapshot.ofGenerator g).encode.length ≤ room s then
        ((.ok (), (written ++ (Snapshot.ofGenerator g).encode,
          (writer.writeAll (Snapshot.ofGenerator g).pieces s).2)), journal ++ [.stateSaved g.seed])
      else
        ((.error (.io fault), (written ++ (Snapshot.ofGenerator g).encode.take (room s),
          (writer.writeAll (Snapshot.ofGenerator g).pieces s).2)), journal) := by
  have hpieces : (Snapshot.ofGenerator g).pieces.flatten = (Snapshot.ofGenerator g).encode := rfl
  have hwritten := (h.writeAll_eq (Snapshot.ofGenerator g).pieces s).1
  rw [hpieces] at hwritten
  rw [saveBy_run, Writer.keepAll]
  rcases hall : writer.writeAll (Snapshot.ofGenerator g).pieces s with ⟨⟨result, taken⟩, last⟩
  rw [hall] at hwritten
  obtain ⟨rfl, rfl⟩ := Prod.mk.inj hwritten
  by_cases hfits : (Snapshot.ofGenerator g).encode.length ≤ room s
  · rw [if_pos hfits, if_pos hfits, List.take_of_length_le hfits]
  · rw [if_neg hfits, if_neg hfits]

/-- A generator that is saved to a writer with limited room is kept as it is. The save succeeds if
there is room for the whole text form and fails with the fault of the writer otherwise, in whatever
pieces the text is written; as much of the text is written as there is room for. A sink with that
room comes to the same. What is left of the text form by losing two or more bytes is malformed, and
by losing fewer it is the whole snapshot. -/
theorem save_cut_off (h : writer.Limited room fault) (g : Generator) (s : σ) :
    (∀ (written : Bytes) (journal : Journal),
      ((g.saveBy writer.keepAll).run.run (written, s)).run journal =
        if (Snapshot.ofGenerator g).encode.length ≤ room s then
          ((.ok (), (written ++ (Snapshot.ofGenerator g).encode,
            (writer.writeAll (Snapshot.ofGenerator g).pieces s).2)),
            journal ++ [.stateSaved g.seed])
        else
          ((.error (.io fault), (written ++ (Snapshot.ofGenerator g).encode.take (room s),
            (writer.writeAll (Snapshot.ofGenerator g).pieces s).2)), journal)) ∧
    (∀ pieces : List Bytes, pieces.flatten = (Snapshot.ofGenerator g).encode →
      (writer.writeAll pieces s).1 =
        (if (Snapshot.ofGenerator g).encode.length ≤ room s then .ok () else .error fault,
          (Snapshot.ofGenerator g).encode.take (room s))) ∧
    (∀ journal : Journal, (g.save.run.run ⟨[], some (room s), fault⟩).run journal =
      if (Snapshot.ofGenerator g).encode.length ≤ room s then
        ((.ok (), ⟨(Snapshot.ofGenerator g).encode,
          some (room s - (Snapshot.ofGenerator g).encode.length), fault⟩),
          journal ++ [.stateSaved g.seed])
      else
        ((.error (.io fault), ⟨(Snapshot.ofGenerator g).encode.take (room s), some 0, fault⟩),
          journal)) ∧
    (∀ α : Type, (Operation.save : Operation α).apply g = g) ∧
    ∀ (k : Nat) (chunks : List Bytes),
      chunks.flatten = (Snapshot.ofGenerator g).encode.take k →
      (k + 2 ≤ (Snapshot.ofGenerator g).encode.length → ∃ cause left,
        Snapshot.decode.run.run ⟨chunks, .closed⟩ = (.error (.malformed cause), left)) ∧
      ((Snapshot.ofGenerator g).encode.length ≤ k + 1 → ∃ after : List Bytes,
        Snapshot.decode.run.run ⟨chunks, .closed⟩ =
          (.ok (Snapshot.ofGenerator g), ⟨after, .closed⟩) ∧ after.flatten = []) := by
  refine ⟨fun written journal => saveBy_keepAll_run h g written s journal,
    fun pieces hpieces => ?_, fun journal => ?_, fun _ => rfl, fun k _ hchunks => ?_⟩
  · rw [← hpieces]
    exact (h.writeAll_eq pieces s).1
  · exact save_run_of_room_some g (room s) fault journal
  · exact Snapshot.decode_run_take (Snapshot.length_words_ofGenerator g) k hchunks

end Generator

/-- A writer that takes one byte at a time, is interrupted before each, and breaks when its room is
used up. -/
def Writer.trickle : Writer (Nat × Bool) where
  offer
    | _, (room, false) => (.error .interrupted, (room, true))
    | _, (0, true) => (.error .brokenPipe, (0, true))
    | _, (room + 1, true) => (.ok 1, (room, false))
  patience s := if s.2 then 0 else 1
  patience_lt
    | _, (_, false), _ => Nat.zero_lt_one
    | _, (0, true), h => nomatch h
    | _, (_ + 1, true), h => nomatch h

theorem Writer.limited_trickle : trickle.Limited Prod.fst .brokenPipe
  | _, (_, false), _ => .interrupted
  | _, (0, true), _ => .refuses (by decide)
  | _, (_ + 1, true), hne => .takes Nat.one_pos (List.length_pos_iff.mpr hne)

/-- With room for the begin marker only, that is what is written, and it is malformed. -/
theorem Generator.save_cut_off_trickle :
    Writer.trickle.Limited Prod.fst .brokenPipe ∧
      (Writer.trickle.writeAll (Snapshot.ofGenerator (ofSeed 5)).pieces (9, false)).1 =
        (.error .brokenPipe, Bytes.ofText beginMarker) ∧
      ∃ cause left, Snapshot.decode.run.run ⟨[Bytes.ofText beginMarker], .closed⟩ =
        (.error (.malformed cause), left) := by
  obtain ⟨_, hwritten, _, _, hdecode⟩ :=
    save_cut_off Writer.limited_trickle (ofSeed 5) (9, false)
  have hlength := Snapshot.length_encode (Snapshot.ofGenerator (ofSeed 5))
  have htake : (Snapshot.ofGenerator (ofSeed 5)).encode.take 9 = Bytes.ofText beginMarker := by
    rw [Snapshot.encode_eq, List.append_assoc]
    exact List.take_left' rfl
  have hshort : ¬ (Snapshot.ofGenerator (ofSeed 5)).encode.length ≤ 9 := by omega
  have hall := hwritten _ rfl
  rw [if_neg hshort, htake] at hall
  exact ⟨Writer.limited_trickle, hall, (hdecode 9 [_] (by rw [htake]; simp)).1 (by omega)⟩

end Redraw
