import Redraw.Stream.Sink

/-!
# Writers that run out of room

A writer is offered bytes and takes some of them off the front. Whoever writes goes on offering the
rest until nothing is left or the writer takes nothing; being interrupted is not to be refused, and
the same bytes are offered again. A sink does all of this in one step. It stands for every writer
that takes as many bytes in all as the sink has room for, however few at a time and however often it
is interrupted: they come to the same result, with the same bytes written.
-/

namespace Redraw

/-- Something that bytes are offered to, with a state that offers change. -/
structure Writer (σ : Type) where
  /-- How many of the bytes are taken off the front, or why there are none. -/
  offer : Bytes → σ → Except IoFault Nat × σ
  /-- How often it can be interrupted until it takes or refuses something. -/
  patience : σ → Nat
  /-- No writer is interrupted for ever. -/
  patience_lt : ∀ bytes s, (offer bytes s).1 = .error .interrupted →
    patience (offer bytes s).2 < patience s

namespace Writer

variable {σ : Type} (writer : Writer σ)

/-- Offers bytes until all are taken or none of them are: the result, the bytes that were taken, and
the state of the writer. -/
def write (bytes : Bytes) (s : σ) : (Except IoFault Unit × Bytes) × σ :=
  if _ : bytes = [] then ((.ok (), []), s)
  else
    let after := (writer.offer bytes s).2
    match _ : (writer.offer bytes s).1 with
    | .ok 0 => ((.error .writeZero, []), after)
    | .ok (n + 1) =>
      let ((result, taken), last) := write (bytes.drop (n + 1)) after
      ((result, bytes.take (n + 1) ++ taken), last)
    | .error fault =>
      if _ : fault = .interrupted then write bytes after else ((.error fault, []), after)
termination_by (bytes.length, writer.patience s)
decreasing_by
  · have hpos := List.length_pos_iff.mpr ‹¬ bytes = []›
    exact Prod.Lex.left _ _ (by rw [List.length_drop]; omega)
  · subst fault
    exact Prod.Lex.right _ (writer.patience_lt bytes s ‹_›)

/-- Writes pieces one after the other, up to the first that is not taken as a whole. -/
def writeAll : List Bytes → σ → (Except IoFault Unit × Bytes) × σ
  | [], s => ((.ok (), []), s)
  | piece :: pieces, s =>
    match writer.write piece s with
    | ((.ok (), taken), s) =>
      let ((result, taken'), s) := writeAll pieces s
      ((result, taken ++ taken'), s)
    | ((.error fault, taken), s) => ((.error fault, taken), s)

/-- Writes pieces one after the other, and keeps the bytes that were taken next to the state. -/
def keepAll (pieces : List Bytes) : Bytes × σ → Except IoFault Unit × Bytes × σ
  | (written, s) =>
    let ((result, taken), s) := writer.writeAll pieces s
    (result, written ++ taken, s)

/-- What a writer may answer to an offer, by how many more bytes it takes in all, before the offer
and behind it. -/
inductive Answers (fault : IoFault) (bytes : Bytes) : Nat → Nat → Except IoFault Nat → Prop where
  /-- Some of the bytes are taken. -/
  | takes {n room : Nat} (hpos : 0 < n) (hle : n ≤ bytes.length) :
    Answers fault bytes (room + n) room (.ok n)
  /-- The writer is interrupted. -/
  | interrupted {room : Nat} : Answers fault bytes room room (.error .interrupted)
  /-- None of the bytes are taken, as there is no room. -/
  | full (h : fault = .writeZero) : Answers fault bytes 0 0 (.ok 0)
  /-- The bytes are refused, as there is no room. -/
  | refuses (h : fault ≠ .interrupted) : Answers fault bytes 0 0 (.error fault)

/-- The writer takes as many bytes in all as its state has room for, in whatever portions, and then
none, be it with or without a fault. -/
def Limited (room : σ → Nat) (fault : IoFault) : Prop :=
  ∀ bytes s, bytes ≠ [] →
    Answers fault bytes (room s) (room (writer.offer bytes s).2) (writer.offer bytes s).1

variable {writer} {room : σ → Nat} {fault : IoFault}

/-- Writing to a writer with room for so many bytes succeeds if there are no more of them; as many
are taken in any case, and that much less room is left. -/
theorem Limited.write_eq (h : writer.Limited room fault) (bytes : Bytes) (s : σ) :
    (writer.write bytes s).1 =
        (if bytes.length ≤ room s then .ok () else .error fault, bytes.take (room s)) ∧
      room (writer.write bytes s).2 = room s - bytes.length := by
  fun_induction writer.write bytes s with
  | case1 s => exact ⟨by simp, rfl⟩
  | case2 bytes s hne after hanswer =>
    have hstep : Answers fault bytes (room s) (room after) (.ok 0) := hanswer ▸ h bytes s hne
    generalize room s = before, room after = behind at *
    cases hstep with
    | takes hpos => exact absurd hpos (Nat.lt_irrefl 0)
    | full hfault => simp [hne, hfault]
  | case3 bytes s hne after n hanswer result taken last hwrite ih =>
    have hstep : Answers fault bytes (room s) (room after) (.ok (n + 1)) := hanswer ▸ h bytes s hne
    rw [hwrite, List.length_drop] at ih
    obtain ⟨hresult, hlast⟩ := ih
    obtain ⟨rfl, rfl⟩ := Prod.mk.inj hresult
    generalize room s = before, room after = behind at *
    cases hstep with
    | takes hpos hle =>
      have hfits : bytes.length - (n + 1) ≤ behind ↔ bytes.length ≤ n + 1 + behind := by omega
      rw [Nat.add_comm behind, List.take_add (i := n + 1), hlast]
      exact ⟨by simp only [hfits], by omega⟩
  | case4 bytes s hne after hanswer ih =>
    have hstep : Answers fault bytes (room s) (room after) (.error .interrupted) :=
      hanswer ▸ h bytes s hne
    have hroom : room after = room s := by
      generalize room s = before, room after = behind at *
      cases hstep with
      | interrupted => rfl
      | refuses => rfl
    rwa [hroom] at ih
  | case5 bytes s hne after refusal hanswer hother =>
    have hstep : Answers fault bytes (room s) (room after) (.error refusal) :=
      hanswer ▸ h bytes s hne
    generalize room s = before, room after = behind at *
    cases hstep with
    | interrupted => exact absurd rfl hother
    | refuses => simp [hne]

/-- Writing pieces to a writer with room for so many bytes is writing all of their bytes at once. -/
theorem Limited.writeAll_eq (h : writer.Limited room fault) (pieces : List Bytes) (s : σ) :
    (writer.writeAll pieces s).1 =
        (if pieces.flatten.length ≤ room s then .ok () else .error fault,
          pieces.flatten.take (room s)) ∧
      room (writer.writeAll pieces s).2 = room s - pieces.flatten.length := by
  induction pieces generalizing s with
  | nil => exact ⟨by simp [writeAll], rfl⟩
  | cons piece pieces ih =>
    obtain ⟨hresult, hroom⟩ := h.write_eq piece s
    rw [writeAll, List.flatten_cons, List.length_append, List.take_append]
    rcases hwrite : writer.write piece s with ⟨outcome, after⟩
    rw [hwrite] at hresult hroom
    simp only at hresult hroom
    rw [hresult]
    by_cases hfits : piece.length ≤ room s
    · obtain ⟨hrest, hlast⟩ := ih after
      have hmore : pieces.flatten.length ≤ room s - piece.length ↔
          piece.length + pieces.flatten.length ≤ room s := by omega
      rw [if_pos hfits]
      simp only [hrest, hlast, hroom, hmore, Nat.sub_sub, and_self]
    · have hmore : ¬ piece.length + pieces.flatten.length ≤ room s := by omega
      have hspent : room s - piece.length = 0 := by omega
      rw [if_neg hfits, if_neg hmore, hspent, List.take_zero, List.append_nil, Nat.sub_add_eq,
        hspent, Nat.zero_sub]
      exact ⟨rfl, hroom.trans hspent⟩

end Writer

namespace Sink

/-- A sink with room for so many bytes takes as many of all pieces, and refuses the rest. -/
theorem writeAll_of_room_some (pieces : List Bytes) (written : Bytes) (room : Nat)
    (refusal : IoFault) : writeAll pieces ⟨written, some room, refusal⟩ =
      (if pieces.flatten.length ≤ room then .ok () else .error refusal,
        ⟨written ++ pieces.flatten.take room, some (room - pieces.flatten.length), refusal⟩) := by
  induction pieces generalizing written room with
  | nil => simp [writeAll]
  | cons piece pieces ih =>
    rw [writeAll, List.flatten_cons, List.length_append, List.take_append]
    by_cases hfits : piece.length ≤ room
    · have hmore : pieces.flatten.length ≤ room - piece.length ↔
          piece.length + pieces.flatten.length ≤ room := by omega
      have htaken : piece.take room = piece := List.take_of_length_le hfits
      simp only [write, htaken, if_pos hfits, ih, hmore, List.append_assoc, Nat.sub_sub]
    · have hmore : ¬ piece.length + pieces.flatten.length ≤ room := by omega
      have hspent : room - piece.length = 0 := by omega
      have htaken : (piece.take room).length = room := List.length_take_of_le (by omega)
      simp only [write, htaken, if_neg hfits, if_neg hmore, hspent, List.take_zero,
        List.append_nil, Nat.sub_self, Nat.sub_add_eq, Nat.zero_sub]

end Sink

end Redraw
