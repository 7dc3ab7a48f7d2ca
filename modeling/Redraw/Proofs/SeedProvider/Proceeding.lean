import Redraw.Proofs.SeedProvider.Supply

/-!
# Callers proceed

A caller is never held up: at every point of a run its next step is the one that its operation asks
for, with the value that the provider has to give, and others do not move it from where it stands.
So a caller that nobody comes between takes a few steps for a seed, and they come to what the
provider issues in one go.
-/

namespace Redraw.SeedProvider

/-- Binding when no seed function is bound binds the one that is passed, and reports it. -/
theorem bind_run_of_none {p : SeedProvider} (h : p.seeder = none) (seeder : Seeder)
    (journal : Journal) :
    ((bind seeder).run.run p).run journal =
      ((.ok (), { p with seeder := some seeder }), journal ++ [.seederBound]) := by
  obtain ⟨bound, calls, fallback, entropy⟩ := p
  obtain rfl : bound = none := h
  rfl

/-- Binding when a seed function is bound is refused, and nothing changes. -/
theorem bind_run_of_some {p : SeedProvider} {bound : Seeder} (h : p.seeder = some bound)
    (seeder : Seeder) (journal : Journal) :
    ((bind seeder).run.run p).run journal = ((.error .alreadyBound, p), journal) := by
  obtain ⟨seeder?, calls, fallback, entropy⟩ := p
  obtain rfl : seeder? = some bound := h
  rfl

/-- A seed is the next answer of a seed function that is bound. -/
theorem next_run_of_some {p : SeedProvider} {seeder : Seeder} (h : p.seeder = some seeder)
    (journal : Journal) :
    (next.run p).run journal = ((seeder.answer p.calls, { p with calls := p.calls + 1 }),
      journal ++ [.seedIssued (seeder.answer p.calls) .bound]) := by
  obtain ⟨bound, calls, fallback, entropy⟩ := p
  obtain rfl : bound = some seeder := h
  rfl

/-- A seed is the next draw of the default generator when no seed function is bound. -/
theorem next_run_of_none {p : SeedProvider} (h : p.seeder = none) (journal : Journal) :
    (next.run p).run journal =
      ((p.fallbackGenerator.nextSeed, { p with fallback := some (p.fallbackGenerator.skip 1) }),
        journal ++ [.seedIssued p.fallbackGenerator.nextSeed .fallback]) := by
  obtain ⟨bound, calls, fallback, entropy⟩ := p
  obtain rfl : bound = none := h
  rfl

namespace Sharing

variable {s : Sharing} {caller : Nat}

/-- A caller's step moves that caller only. -/
theorem stage_step_of_ne {other : Nat} (h : other ≠ caller) (request : Request) :
    (s.step caller request).stage other = s.stage other := by
  obtain ⟨_, _, _, _, hstep⟩ := s.exists_step_eq caller request
  rw [hstep]
  exact if_neg h

/-- The steps of others leave a caller where it stands. -/
theorem stage_run_of_forall_ne {schedule : List (Nat × Request)}
    (h : ∀ turn ∈ schedule, turn.1 ≠ caller) (s : Sharing) :
    (s.run schedule).stage caller = s.stage caller := by
  induction schedule generalizing s with
  | nil => rfl
  | cons turn schedule ih =>
    obtain ⟨hturn, hschedule⟩ := List.forall_mem_cons.mp h
    exact (ih hschedule (s.step turn.1 turn.2)).trans (stage_step_of_ne hturn.symm turn.2)

theorem stage_record (s : Sharing) (caller : Nat) (stage : Stage) (deed : Deed) :
    (s.record caller stage deed).stage caller = stage :=
  if_pos rfl

/-- Of two things that a caller does in a row, the second says where it stands. -/
theorem record_record (s : Sharing) (caller : Nat) (p : SeedProvider) (stage stage' : Stage)
    (deed deed' : Deed) :
    { s.record caller stage deed with provider := p }.record caller stage' deed' =
      { s with provider := p, history := s.history ++ [deed] }.record caller stage' deed' := by
  simp only [record, Sharing.mk.injEq, true_and, and_true]
  funext other
  by_cases hother : other = caller
  · rw [if_pos hother, if_pos hother]
  · rw [if_neg hother, if_neg hother, if_neg hother]

/-- A caller that was between two operations and is so again stands where it stood. -/
theorem record_idle {stage : Nat → Stage} (h : stage caller = .idle) (p : SeedProvider)
    (history : List Deed) (deed : Deed) :
    (Sharing.mk p stage history).record caller .idle deed = ⟨p, stage, history ++ [deed]⟩ := by
  simp only [record, Sharing.mk.injEq, true_and, and_true]
  funext other
  by_cases hother : other = caller
  · rw [if_pos hother, hother, h]
  · rw [if_neg hother]

/-- A look and a call in a row. -/
theorem run_next_of_some (h : s.stage caller = .idle) {seeder : Seeder}
    (hseeder : s.provider.seeder = some seeder) :
    s.run [(caller, .next), (caller, .next)] =
      ⟨{ s.provider with calls := s.provider.calls + 1 }, s.stage,
        s.history ++ [.looked caller true,
          .issued caller (seeder.answer s.provider.calls) .bound]⟩ := by
  have hstands := stage_record s caller (.calling seeder) (.looked caller true)
  change (s.step caller .next).step caller .next = _
  rw [step_next_of_some h hseeder, step_of_calling hstands, record_record]
  refine (record_idle h _ _ _).trans ?_
  rw [List.append_assoc]
  rfl

/-- A look, a step to see to the default generator and a draw in a row. -/
theorem run_next_of_none (h : s.stage caller = .idle) (hseeder : s.provider.seeder = none) :
    s.run [(caller, .next), (caller, .next), (caller, .next)] =
      ⟨{ s.provider with fallback := some (s.provider.fallbackGenerator.skip 1) }, s.stage,
        s.history ++ [.looked caller false, .prepared caller s.provider.fallback.isNone,
          .issued caller s.provider.fallbackGenerator.nextSeed .fallback]⟩ := by
  have hstands := stage_record s caller .preparing (.looked caller false)
  change ((s.step caller .next).step caller .next).step caller .next = _
  rw [step_next_of_none h hseeder, step_of_preparing hstands, record_record,
    step_of_drawing (stage_record _ _ _ _), record_record]
  refine (record_idle h _ _ _).trans ?_
  rw [List.append_assoc, List.append_assoc]
  rfl

/-- What the next step of a caller comes to, wherever it stands, and what the steps of a caller come
to when nobody comes between. -/
structure Proceeding (entropy : UInt64) (s : Sharing) : Prop where
  /-- A run takes the steps of its schedule, one after the other. -/
  run_cons : ∀ caller request more, s.run ((caller, request) :: more) =
    (s.step caller request).run more
  /-- Whoever asks whether a seed function is bound is told. -/
  asks : ∀ caller, s.stage caller = .idle →
    s.step caller .isBound = s.record caller .idle (.asked caller s.provider.seeder.isSome)
  /-- Whoever asks for a seed goes on with a seed function that is bound. -/
  finds : ∀ caller seeder, s.stage caller = .idle → s.provider.seeder = some seeder →
    s.step caller .next = s.record caller (.calling seeder) (.looked caller true)
  /-- Otherwise it goes on with the default generator. -/
  misses : ∀ caller, s.stage caller = .idle → s.provider.seeder = none →
    s.step caller .next = s.record caller .preparing (.looked caller false)
  /-- Whoever found a seed function gets the next answer of it, and it is the one that is bound. -/
  calls : ∀ caller seeder request, s.stage caller = .calling seeder →
    s.provider.seeder = some seeder ∧ s.step caller request =
      { s with provider := { s.provider with calls := s.provider.calls + 1 } }.record caller .idle
        (.issued caller (seeder.answer s.provider.calls) .bound)
  /-- The default generator is the one that is there, or the one that is made of the entropy. -/
  fallbackGenerator_eq : s.provider.fallbackGenerator = s.provider.fallback.getD (.ofSeed entropy)
  /-- Whoever found no seed function sees to it that the default generator is there. -/
  prepares : ∀ caller request, s.stage caller = .preparing →
    s.step caller request =
      { s with provider :=
        { s.provider with fallback := some s.provider.fallbackGenerator } }.record
          caller .drawing (.prepared caller s.provider.fallback.isNone)
  /-- Then it gets the next draw of it. -/
  draws : ∀ caller request, s.stage caller = .drawing → ∃ g, s.provider.fallback = some g ∧
    s.step caller request =
      { s with provider := { s.provider with fallback := some (g.skip 1) } }.record caller .idle
        (.issued caller g.nextSeed .fallback)
  /-- The steps of others leave a caller where it stands. -/
  stage_run : ∀ caller others, (∀ turn ∈ others, turn.1 ≠ caller) →
    (s.run others).stage caller = s.stage caller
  /-- If nobody comes between, a look and a call are what issuing a seed is. -/
  next_of_some : ∀ caller seeder, s.stage caller = .idle → s.provider.seeder = some seeder →
    s.run [(caller, .next), (caller, .next)] =
        ⟨{ s.provider with calls := s.provider.calls + 1 }, s.stage,
          s.history ++ [.looked caller true,
            .issued caller (seeder.answer s.provider.calls) .bound]⟩ ∧
      ∀ journal, (SeedProvider.next.run s.provider).run journal =
        ((seeder.answer s.provider.calls, { s.provider with calls := s.provider.calls + 1 }),
          journal ++ [.seedIssued (seeder.answer s.provider.calls) .bound])
  /-- So are a look, a step to see to the default generator and a draw. -/
  next_of_none : ∀ caller, s.stage caller = .idle → s.provider.seeder = none →
    s.run [(caller, .next), (caller, .next), (caller, .next)] =
        ⟨{ s.provider with fallback := some (s.provider.fallbackGenerator.skip 1) }, s.stage,
          s.history ++ [.looked caller false, .prepared caller s.provider.fallback.isNone,
            .issued caller s.provider.fallbackGenerator.nextSeed .fallback]⟩ ∧
      ∀ journal, (SeedProvider.next.run s.provider).run journal =
        ((s.provider.fallbackGenerator.nextSeed,
            { s.provider with fallback := some (s.provider.fallbackGenerator.skip 1) }),
          journal ++ [.seedIssued s.provider.fallbackGenerator.nextSeed .fallback])

theorem Supply.proceeding {entropy : UInt64} (h : Supply entropy s) : Proceeding entropy s where
  run_cons _ _ _ := rfl
  asks _ hidle := step_isBound hidle
  finds _ _ hidle hseeder := step_next_of_some hidle hseeder
  misses _ hidle hseeder := step_next_of_none hidle hseeder
  calls caller seeder request hcalling :=
    ⟨h.calling caller seeder hcalling, step_of_calling hcalling request⟩
  fallbackGenerator_eq := by rw [fallbackGenerator, h.entropy_eq]
  prepares _ request hpreparing := step_of_preparing hpreparing request
  draws caller request hdrawing := by
    obtain ⟨g, hg⟩ := Option.isSome_iff_exists.mp (h.drawing caller hdrawing)
    have hsame : s.provider.fallbackGenerator = g := by rw [fallbackGenerator, hg, Option.getD_some]
    exact ⟨g, hg, hsame ▸ step_of_drawing hdrawing request⟩
  stage_run _ _ hothers := stage_run_of_forall_ne hothers s
  next_of_some _ _ hidle hseeder :=
    ⟨run_next_of_some hidle hseeder, next_run_of_some hseeder⟩
  next_of_none _ hidle hseeder := ⟨run_next_of_none hidle hseeder, next_run_of_none hseeder⟩

end Sharing

end Redraw.SeedProvider
