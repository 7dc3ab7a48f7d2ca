import Redraw.Proofs.Generator.Cost
import Redraw.Proofs.Generator.Storing
import Redraw.Proofs.Twister.Seeding

/-!
# Generators given back

A generator that was made from a seed can be saved and loaded at any time, whatever was done with it
before: no operation makes a block idle, no seed gives an idle one, and a block that is not idle is
not all zero. A generator that was restored from a snapshot may hold an idle block, and then it can
be saved and loaded until the block is used up.
-/

namespace Redraw

namespace Operation

variable {α : Type}

/-- A generator that loads the text it was just saved as stays what it was: the text is either that
of this generator, or refused. -/
theorem apply_reload (g : Generator) : apply g (reload : Operation α) = g := by
  have hrest : (Input.ofBytes (Snapshot.ofGenerator g).encode).rest =
      (Snapshot.ofGenerator g).encode ++ [] := rfl
  by_cases h : g.twister.words.all (· = 0) = true
  · obtain ⟨left, hrun⟩ := Generator.refuses_encode h g _ [] [] hrest
    rw [apply, hrun]
  · obtain ⟨left, hrun, _⟩ := Generator.loads_encode h g _ [] [] hrest
    rw [apply, hrun]

/-- No operation makes a block idle, and none wakes an idle one. -/
theorem idle_apply_iff (g : Generator) (operation : Operation α) :
    (apply g operation).twister.block.Idle ↔ g.twister.block.Idle := by
  rw [apply_eq_skip g operation (apply_reload g)]
  exact g.twister.idle_skip_iff operation.cost

/-- No sequence of operations makes a block idle, and none wakes an idle one. -/
theorem idle_applyAll_iff (g : Generator) (operations : List (Operation α)) :
    (applyAll operations g).twister.block.Idle ↔ g.twister.block.Idle := by
  induction operations generalizing g with
  | nil => rfl
  | cons operation operations ih =>
    exact (ih (apply g operation)).trans (idle_apply_iff g operation)

end Operation

namespace Generator

/-- A generator that loses nothing by being saved and loaded. -/
structure Restorable (g : Generator) : Prop where
  /-- There are as many words as a block holds. -/
  length_words : g.twister.words.length = blockSize
  /-- Some word is not zero. -/
  exists_ne_zero : ∃ word ∈ g.twister.words, word ≠ 0
  /-- The index lies within the block. -/
  index_le : g.twister.index ≤ blockSize
  /-- The words and the index make the same twister again. -/
  ofWords?_words : Twister.ofWords? g.twister.words g.twister.index = .ok g.twister
  /-- The text that is saved gives back the generator in place of any other. -/
  saves_loads : ∃ text, g.Saves text ∧ Loads text g

theorem restorable_of_ne_zero {g : Generator} (h : ¬ g.twister.words.all (· = 0) = true) :
    g.Restorable where
  length_words := g.twister.length_words
  exists_ne_zero := by
    rw [List.all_eq_true] at h
    simpa using h
  index_le := g.twister.index_le
  ofWords?_words := by rw [Twister.ofWords?_words, if_neg h]
  saves_loads := ⟨_, g.saves_encode, loads_encode h⟩

/-- At every point of every run from a seed, whatever the operations, the generator can be saved and
is loaded again as what it was. -/
theorem restorable_applyAll_ofSeed {α : Type} (seed : UInt64) (operations : List (Operation α)) :
    (Operation.applyAll operations (ofSeed seed)).Restorable := by
  refine restorable_of_ne_zero fun hzero => ?_
  rw [Twister.all_words_eq_zero_iff] at hzero
  have hidle := (Operation.idle_applyAll_iff _ operations).mp (Block.idle_of_eq_zero hzero)
  exact Block.not_idle_ofSeed seed hidle

/-- Nothing of a generator is left after so many draws: its block is idle, and they go beyond it. -/
def Fades (g : Generator) (draws : Nat) : Prop :=
  g.twister.block.Idle ∧ blockSize < g.twister.index + draws

/-- What a restored generator saves after some draws is loaded again exactly as long as it has not
faded. Once it has, all words are zero, and the text is refused in place of any generator. -/
theorem loads_skip_iff {s : Snapshot} {g : Generator} (h : s.toGenerator? = .ok g) (n : Nat) :
    ∃ text, (g.skip n).Saves text ∧
      (Loads text (g.skip n) ↔ ¬ g.Fades n) ∧
      (Refuses text (.malformed (.block .allZero)) ↔ g.Fades n) ∧
      ((∀ word ∈ (g.skip n).twister.words, word = 0) ↔ g.Fades n) := by
  obtain ⟨_, _, hwords⟩ := Snapshot.toGenerator?_eq_ok h
  have hzero : (g.skip n).twister.words.all (· = 0) = true ↔ g.Fades n :=
    Twister.all_words_skip_eq_zero_iff hwords n
  refine ⟨_, (g.skip n).saves_encode, ?_, ?_, ?_⟩ <;> rw [← hzero]
  · exact ⟨fun hloads hz => hloads.not_refuses _ (refuses_encode hz), loads_encode⟩
  · refine ⟨fun hrefuses => ?_, refuses_encode⟩
    by_cases hz : (g.skip n).twister.words.all (· = 0) = true
    · exact hz
    · exact absurd hrefuses ((loads_encode hz).not_refuses _)
  · simp only [List.all_eq_true, decide_eq_true_eq]

/-- A generator with a used-up block of zeros but for the first word, which is one. -/
def faint : Generator :=
  ⟨7, (Vector.replicate blockSize 0).set 0 1 (Nat.zero_lt_succ 311), blockSize, Nat.le_refl _⟩

private theorem words_faint_ne_zero : ¬ faint.twister.words.all (· = 0) = true := by
  rw [Twister.all_words_eq_zero_iff]
  intro h
  have hfirst := h 0 (by decide)
  rw [faint, Vector.getElem_set_self] at hfirst
  exact absurd hfirst (by decide)

private theorem toGenerator?_faint : (Snapshot.ofGenerator faint).toGenerator? = .ok faint := by
  rw [Snapshot.toGenerator?_ofGenerator, if_neg words_faint_ne_zero]

private theorem fades_faint : faint.Fades 1 := by
  refine ⟨⟨?_, fun i hi hpos => ?_⟩, Nat.lt_succ_self _⟩
  · rw [Block.cyclic_of_lt _ (by decide), faint, Vector.getElem_set_self]
    decide
  · rw [faint, Vector.getElem_set_ne _ _ (Nat.ne_of_lt hpos), Vector.getElem_replicate]

/-- The faint generator can be saved and loaded as it is restored, but no more after one draw. -/
theorem faint_skip_loads_refuses :
    (∃ text, (faint.skip 0).Saves text ∧ Loads text (faint.skip 0)) ∧
      ∃ text, (faint.skip 1).Saves text ∧ Refuses text (.malformed (.block .allZero)) := by
  obtain ⟨text, hsaves, hloads, _⟩ := loads_skip_iff toGenerator?_faint 0
  obtain ⟨text', hsaves', _, hrefuses, _⟩ := loads_skip_iff toGenerator?_faint 1
  have hfresh : ¬ faint.Fades 0 := fun h => Nat.lt_irrefl _ h.2
  exact ⟨⟨text, hsaves, hloads.mpr hfresh⟩, text', hsaves', hrefuses.mpr fades_faint⟩

/-- The snapshot of the faint generator is accepted, and one draw later its generator holds zeros
alone and is saved as a text that is not accepted. -/
theorem faint_accepted_then_refused :
    (Snapshot.ofGenerator faint).toGenerator? = .ok faint ∧
      (∀ word ∈ (faint.skip 1).twister.words, word = 0) ∧
      ∃ text, (faint.skip 1).Saves text ∧ Refuses text (.malformed (.block .allZero)) ∧
        ¬ Loads text (faint.skip 1) := by
  have hzero : (faint.skip 1).twister.words.all (· = 0) = true :=
    (Twister.all_words_skip_eq_zero_iff words_faint_ne_zero 1).mpr fades_faint
  refine ⟨toGenerator?_faint, by simpa using hzero, _, saves_encode _, refuses_encode hzero, ?_⟩
  exact fun hloads => hloads.not_refuses _ (refuses_encode hzero)

end Generator

end Redraw
