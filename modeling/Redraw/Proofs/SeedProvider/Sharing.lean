import Redraw.Proofs.SeedProvider.Proceeding

/-!
# Sharing is orderly

Whatever order callers take their steps in, a shared provider keeps its word. One seed function is
bound at most, and stays; whoever looks for it afterwards gets one of its answers. The default
generator is made for those who looked before, once, and they get its draws in a row. Operations may
be half done, and others may have come between: the three invariants hold at every step, and every
caller has a next step that brings its operation on.
-/

namespace Redraw.SeedProvider.Sharing

variable {s : Sharing}

theorem seeder_run {seeder : Seeder} (h : s.provider.seeder = some seeder)
    (schedule : List (Nat × Request)) : (s.run schedule).provider.seeder = some seeder :=
  run_induction (motive := fun s => s.provider.seeder = some seeder)
    (fun _ h _ _ _ _ hdoes => hdoes.seeder_eq h) s h schedule

/-- What holds of a provider that callers share, at every point of every run. -/
structure Orderly (first : Option Seeder) (entropy : UInt64) (s : Sharing) : Prop where
  /-- One bind was accepted if a seed function is bound that was not there from the start, and none
  otherwise. -/
  accepted : (s.history.filter Deed.isAccepted).length =
    if s.provider.isBound && first.isNone then 1 else 0
  /-- The one that is accepted binds its seed function. -/
  bind_accepted : s.provider.isBound = false → ∀ caller seeder, s.stage caller = .idle →
    s.step caller (.bind seeder) =
        { s with provider := { s.provider with seeder := some seeder } }.record caller .idle
          (.bound caller true) ∧
      ∀ journal, ((SeedProvider.bind seeder).run.run s.provider).run journal =
        ((.ok (), { s.provider with seeder := some seeder }), journal ++ [.seederBound])
  /-- Any other is refused and changes nothing. -/
  bind_refused : s.provider.isBound = true → ∀ caller seeder, s.stage caller = .idle →
    s.step caller (.bind seeder) = s.record caller .idle (.bound caller false) ∧
      ∀ journal, ((SeedProvider.bind seeder).run.run s.provider).run journal =
        ((.error .alreadyBound, s.provider), journal)
  /-- A seed function that is bound stays bound, whatever comes. -/
  seeder_run : ∀ seeder, s.provider.seeder = some seeder →
    ∀ more, (s.run more).provider.seeder = some seeder
  /-- No seed function is found missing after one was found or bound. -/
  pairwise : s.history.Pairwise fun deed deed' =>
    deed.after? = some true → deed'.before? ≠ some false
  /-- Each caller does whole operations, one after the other. -/
  isChain : ∀ caller, (deedsOf caller s.history).IsChain Deed.Leads
  /-- The default generator is made once at most. -/
  made_le : (s.history.filter Deed.isMaking).length ≤ 1
  /-- It is made, or found made, by callers that had just found no seed function. -/
  prepared : ∀ caller made before after, s.history = before ++ .prepared caller made :: after →
    (deedsOf caller before).getLast? = some (.looked caller false)
  /-- Its seeds are its first draws, none left out and none repeated. -/
  fallback_seeds : (Generator.repeated (Generator.below Generator.widest)
      (seeds .fallback s.history).length).run.run (.ofSeed entropy) =
    (.ok (seeds .fallback s.history), s.provider.fallbackGenerator)
  /-- The seeds of the bound seed function are its answers, none left out and none repeated. -/
  bound_seeds : seeds .bound s.history = match s.provider.seeder with
    | none => []
    | some seeder => (List.range s.provider.calls).map seeder.answer
  /-- Whoever looks for a seed function after one was bound finds it, and what it does next is to
  get one of the answers of that function; until then it stands before the call. -/
  looked : ∀ caller present before after, s.history = before ++ .looked caller present :: after →
    first.isSome = true ∨ (∃ deed ∈ before, deed.isAccepted = true) →
    present = true ∧
      (∀ next ∈ (deedsOf caller after).head?, ∃ seeder n,
        s.provider.seeder = some seeder ∧ n < s.provider.calls ∧
          next = .issued caller (seeder.answer n) .bound) ∧
      (deedsOf caller after = [] → ∃ seeder,
        s.provider.seeder = some seeder ∧ s.stage caller = .calling seeder)
  /-- Every caller's next step brings its operation on, and steps that nobody comes between are the
  operation. -/
  proceeding : Proceeding entropy s

/-- However many callers share a provider, and in whatever order they take their steps, everything
about binding and about seeds is in order after every step, and no caller is held up. -/
theorem orderly_run (first : Option Seeder) (entropy : UInt64) (schedule : List (Nat × Request)) :
    Orderly first entropy ((shared first entropy).run schedule) := by
  have hbinding := run_induction (fun _ h _ _ _ _ hdoes => h.record hdoes) _
    (binding_shared first entropy) schedule
  have hturns := run_induction (fun _ h _ _ _ _ hdoes => h.record hdoes) _
    (turns_shared first entropy) schedule
  have hsupply := run_induction (fun _ h _ _ _ _ hdoes => h.record hdoes) _
    (supply_shared first entropy) schedule
  generalize (shared first entropy).run schedule = s at hbinding hturns hsupply ⊢
  constructor
  · exact hbinding.accepted
  · intro hfree caller seeder hidle
    have hnone := Option.isNone_iff_eq_none.mp (Option.isSome_eq_false_iff.mp hfree)
    exact ⟨step_bind_of_none hidle hnone seeder, bind_run_of_none hnone seeder⟩
  · intro hbound caller seeder hidle
    obtain ⟨bound, hsome⟩ := Option.isSome_iff_exists.mp hbound
    exact ⟨step_bind_of_some hidle hsome seeder, bind_run_of_some hsome seeder⟩
  · exact fun seeder hseeder more => seeder_run hseeder more
  · exact hbinding.pairwise
  · exact hturns.isChain
  · rw [hsupply.made]
    split <;> decide
  · exact fun caller made before after hhistory => hturns.getLast?_of_prepared hhistory
  · exact hsupply.repeated_run
  · exact hsupply.seeds_bound
  · intro caller present before after hhistory hbound
    obtain rfl := hbinding.present hhistory hbound
    refine ⟨rfl, fun next hnext => hsupply.exists_answer_of_looked hturns hhistory hnext, ?_⟩
    intro hafter
    obtain ⟨seeder, hcalling⟩ := hturns.exists_calling hhistory hafter
    exact ⟨seeder, hsupply.calling caller seeder hcalling, hcalling⟩
  · exact hsupply.proceeding

end Redraw.SeedProvider.Sharing
