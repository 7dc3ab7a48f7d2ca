import Redraw.Proofs.Generator.RoundTrip

/-!
# Generators advance by their draws alone

What a sequence of operations makes of a generator hangs on the number of raw draws that it costs,
and on nothing else: neither on the bounds, the items and the order of the operations, nor on what
was drawn. So the costs say how far two runs from one generator have come, and runs of the same cost
end in the same generator.
-/

namespace Redraw.Operation

variable {α β : Type}

/-- The generator after a sequence of operations is the one after as many raw draws as they cost. -/
theorem applyAll_eq_skip (g : Generator) (operations : List (Operation α)) :
    applyAll operations g = g.skip (costAll operations) := by
  induction operations generalizing g with
  | nil => rfl
  | cons operation operations ih =>
    have hstep : apply g operation = g.skip operation.cost :=
      apply_eq_skip g operation (apply_reload g)
    calc applyAll (operation :: operations) g
        = applyAll operations (apply g operation) := rfl
      _ = (g.skip operation.cost).skip (costAll operations) := by rw [ih, hstep]
      _ = g.skip (costAll (operation :: operations)) := (Generator.skip_add _ _ g).symm

/-- Operations keep the seed and take the twister as far as they cost raw draws, so that two runs of
the same cost from one generator end in the same generator. -/
theorem applyAll_advances (g : Generator) (operations : List (Operation α)) :
    (applyAll operations g).seed = g.seed ∧
      (applyAll operations g).twister = g.twister.skip (costAll operations) ∧
      ∀ others : List (Operation β), costAll others = costAll operations →
        applyAll others g = applyAll operations g := by
  rw [applyAll_eq_skip]
  refine ⟨rfl, rfl, fun others hcost => ?_⟩
  rw [applyAll_eq_skip, hcost]

/-- Three bounded draws take a generator as far as shuffling four letters, looks at it included. -/
theorem applyAll_advances_three :
    costAll [below 6, asFunction 7, (position 8 : Operation Unit)] =
        costAll [save, copy, shuffle ['a', 'b', 'c', 'd'], sample ['a'] 2] ∧
      applyAll [below 6, asFunction 7, (position 8 : Operation Unit)] (Generator.ofSeed 5) =
        applyAll [save, copy, shuffle ['a', 'b', 'c', 'd'], sample ['a'] 2]
          (Generator.ofSeed 5) := by
  have hcost : costAll [below 6, asFunction 7, (position 8 : Operation Unit)] =
      costAll [save, copy, shuffle ['a', 'b', 'c', 'd'], sample ['a'] 2] := by decide
  exact ⟨hcost, (applyAll_advances (Generator.ofSeed 5) _).2.2 _ hcost⟩

end Redraw.Operation
