import Redraw.SeedProvider.Interleaving

/-!
# Binding once

A caller's step is one of eight, told apart by where the caller stands and by what it finds; what a
step does to the provider, to the caller and to the history is said once, and each invariant goes
through these eight. The first one is about the seed function. It is bound once at most, it stays
for good, and the history shows it: nobody finds it missing after anybody found it there.
-/

namespace Redraw.SeedProvider

variable {p p' : SeedProvider} {caller : Nat} {here there : Stage} {deed : Deed}

/-- One step of a caller: what it makes of the provider, where the caller stands then, and what it
did. -/
inductive Does (p : SeedProvider) (caller : Nat) :
    Stage → SeedProvider → Stage → Deed → Prop where
  /-- It asks whether a seed function is bound. -/
  | asks : Does p caller .idle p .idle (.asked caller p.isBound)
  /-- It binds a seed function. -/
  | binds (seeder : Seeder) (h : p.seeder = none) :
    Does p caller .idle { p with seeder := some seeder } .idle (.bound caller true)
  /-- It finds one bound, and binds none. -/
  | yields (seeder : Seeder) (h : p.seeder = some seeder) :
    Does p caller .idle p .idle (.bound caller false)
  /-- It looks for a seed function and finds one. -/
  | finds (seeder : Seeder) (h : p.seeder = some seeder) :
    Does p caller .idle p (.calling seeder) (.looked caller true)
  /-- It looks for a seed function and finds none. -/
  | misses (h : p.seeder = none) : Does p caller .idle p .preparing (.looked caller false)
  /-- It calls the seed function that it found. -/
  | calls (seeder : Seeder) :
    Does p caller (.calling seeder) { p with calls := p.calls + 1 } .idle
      (.issued caller (seeder.answer p.calls) .bound)
  /-- It sees to the default generator. -/
  | prepares :
    Does p caller .preparing { p with fallback := some p.fallbackGenerator } .drawing
      (.prepared caller p.fallback.isNone)
  /-- It draws from the default generator. -/
  | draws :
    Does p caller .drawing { p with fallback := some p.fallbackGenerator.next32.2 } .idle
      (.issued caller p.fallbackGenerator.next32.1 .fallback)

namespace Deed

/-- Whether a seed function was bound before the deed, as far as the deed shows it. -/
def before? : Deed → Option Bool
  | asked _ present => some present
  | bound _ accepted => some !accepted
  | looked _ present => some present
  | prepared .. => none
  | issued .. => none

/-- Whether a seed function was bound after the deed, as far as the deed shows it. -/
def after? : Deed → Option Bool
  | asked _ present => some present
  | bound .. => some true
  | looked _ present => some present
  | prepared .. => none
  | issued .. => none

/-- Whether a seed function was bound by the deed. -/
def isAccepted : Deed → Bool
  | bound _ accepted => accepted
  | _ => false

end Deed

/-- A bound seed function stays. -/
theorem Does.seeder_eq (h : Does p caller here p' there deed) {seeder : Seeder}
    (hseeder : p.seeder = some seeder) : p'.seeder = some seeder := by
  cases h with
  | binds _ hnone =>
    rw [hseeder] at hnone
    cases hnone
  | _ => exact hseeder

theorem Does.stays_bound (h : Does p caller here p' there deed) (hbound : p.isBound = true) :
    p'.isBound = true := by
  obtain ⟨seeder, hseeder⟩ := Option.isSome_iff_exists.mp hbound
  exact Option.isSome_iff_exists.mpr ⟨seeder, h.seeder_eq hseeder⟩

theorem Does.before?_eq (h : Does p caller here p' there deed) :
    deed.before? = none ∨ deed.before? = some p.isBound := by
  cases h <;> simp_all [Deed.before?, isBound]

theorem Does.after?_eq (h : Does p caller here p' there deed) :
    deed.after? = none ∨ deed.after? = some p'.isBound := by
  cases h <;> simp_all [Deed.after?, isBound]

/-- A deed binds a seed function exactly when one is bound after it but not before. -/
theorem Does.isAccepted_iff (h : Does p caller here p' there deed) :
    deed.isAccepted = true ↔ p.isBound = false ∧ p'.isBound = true := by
  cases h <;> simp_all [Deed.isAccepted, isBound]

namespace Sharing

variable {s : Sharing}

/-- A caller that asks whether a seed function is bound is told. -/
theorem step_isBound (h : s.stage caller = .idle) :
    s.step caller .isBound = s.record caller .idle (.asked caller s.provider.isBound) := by
  rw [step, h]
  rfl

/-- Binding when no seed function is bound binds the one that is passed. -/
theorem step_bind_of_none (h : s.stage caller = .idle) (hseeder : s.provider.seeder = none)
    (seeder : Seeder) :
    s.step caller (.bind seeder) =
      { s with provider := { s.provider with seeder := some seeder } }.record caller .idle
        (.bound caller true) := by
  simp only [step, h, start, install, hseeder]

/-- Binding when a seed function is bound is refused, and the provider stays as it is. -/
theorem step_bind_of_some (h : s.stage caller = .idle) {bound : Seeder}
    (hseeder : s.provider.seeder = some bound) (seeder : Seeder) :
    s.step caller (.bind seeder) = s.record caller .idle (.bound caller false) := by
  simp only [step, h, start, install, hseeder]

/-- A caller that asks for a seed looks for a seed function first, and finds one. -/
theorem step_next_of_some (h : s.stage caller = .idle) {seeder : Seeder}
    (hseeder : s.provider.seeder = some seeder) :
    s.step caller .next = s.record caller (.calling seeder) (.looked caller true) := by
  simp only [step, h, start, hseeder]

/-- A caller that asks for a seed looks for a seed function first, and finds none. -/
theorem step_next_of_none (h : s.stage caller = .idle) (hseeder : s.provider.seeder = none) :
    s.step caller .next = s.record caller .preparing (.looked caller false) := by
  simp only [step, h, start, hseeder]

/-- A caller that found a seed function gets the next answer of it. -/
theorem step_of_calling {seeder : Seeder} (h : s.stage caller = .calling seeder)
    (request : Request) :
    s.step caller request =
      { s with provider := { s.provider with calls := s.provider.calls + 1 } }.record caller .idle
        (.issued caller (seeder.answer s.provider.calls) .bound) := by
  rw [step, h]
  rfl

/-- A caller that found none sees to the default generator. -/
theorem step_of_preparing (h : s.stage caller = .preparing) (request : Request) :
    s.step caller request =
      { s with provider :=
        { s.provider with fallback := some s.provider.fallbackGenerator } }.record
          caller .drawing (.prepared caller s.provider.fallback.isNone) := by
  rw [step, h]
  rfl

/-- A caller that has seen to the default generator gets the next draw of it. -/
theorem step_of_drawing (h : s.stage caller = .drawing) (request : Request) :
    s.step caller request =
      { s with provider :=
        { s.provider with fallback := some s.provider.fallbackGenerator.next32.2 } }.record
          caller .idle (.issued caller s.provider.fallbackGenerator.next32.1 .fallback) := by
  rw [step, h]
  rfl

/-- A step of a schedule is one of the eight. -/
theorem exists_step_eq (s : Sharing) (caller : Nat) (request : Request) :
    ∃ p' there deed, Does s.provider caller (s.stage caller) p' there deed ∧
      s.step caller request = { s with provider := p' }.record caller there deed := by
  cases hstage : s.stage caller with
  | idle =>
    cases request with
    | isBound => exact ⟨_, _, _, .asks, step_isBound hstage⟩
    | bind seeder =>
      cases hseeder : s.provider.seeder with
      | none => exact ⟨_, _, _, .binds seeder hseeder, step_bind_of_none hstage hseeder seeder⟩
      | some bound =>
        exact ⟨_, _, _, .yields bound hseeder, step_bind_of_some hstage hseeder seeder⟩
    | next =>
      cases hseeder : s.provider.seeder with
      | none => exact ⟨_, _, _, .misses hseeder, step_next_of_none hstage hseeder⟩
      | some bound => exact ⟨_, _, _, .finds bound hseeder, step_next_of_some hstage hseeder⟩
  | calling seeder => exact ⟨_, _, _, .calls seeder, step_of_calling hstage request⟩
  | preparing => exact ⟨_, _, _, .prepares, step_of_preparing hstage request⟩
  | drawing => exact ⟨_, _, _, .draws, step_of_drawing hstage request⟩

/-- What every step keeps, every run keeps. -/
theorem run_induction {motive : Sharing → Prop}
    (step : ∀ s, motive s → ∀ caller p' there deed,
      Does s.provider caller (s.stage caller) p' there deed →
      motive ({ s with provider := p' }.record caller there deed))
    (s : Sharing) (h : motive s) (schedule : List (Nat × Request)) : motive (s.run schedule) := by
  induction schedule generalizing s with
  | nil => exact h
  | cons turn schedule ih =>
    obtain ⟨p', there, deed, hdoes, heq⟩ := s.exists_step_eq turn.1 turn.2
    refine ih _ ?_
    change motive (s.step turn.1 turn.2)
    rw [heq]
    exact step s h _ _ _ _ hdoes

/-- A provider that is shared from the start on, with a seed function or without. -/
def shared (first : Option Seeder) (entropy : UInt64) : Sharing where
  provider := match first with
    | none => .unbound entropy
    | some seeder => .withSeeder seeder entropy

/-- What a shared provider and its history say about the seed function. -/
structure Binding (first : Option Seeder) (s : Sharing) : Prop where
  /-- A seed function that is there from the start stays. -/
  seeder_eq : ∀ seeder, first = some seeder → s.provider.seeder = some seeder
  /-- It is found missing by nobody. -/
  before?_ne : first.isSome = true → ∀ deed ∈ s.history, deed.before? ≠ some false
  /-- As long as none is bound, nobody leaves one bound. -/
  after?_ne : s.provider.isBound = false → ∀ deed ∈ s.history, deed.after? ≠ some true
  /-- Nobody finds it missing after somebody left it bound. -/
  pairwise : s.history.Pairwise fun deed deed' =>
    deed.after? = some true → deed'.before? ≠ some false
  /-- One is bound exactly once, if it is bound now and was not from the start. -/
  accepted : (s.history.filter Deed.isAccepted).length =
    if s.provider.isBound && first.isNone then 1 else 0

theorem binding_shared (first : Option Seeder) (entropy : UInt64) :
    Binding first (shared first entropy) := by
  cases first with
  | none => exact ⟨by simp, by simp, by simp [shared], .nil, rfl⟩
  | some seeder => exact ⟨fun _ h => h, by simp [shared], by simp [shared], .nil, rfl⟩

theorem Binding.record {first : Option Seeder} (h : Binding first s)
    (hdoes : Does s.provider caller (s.stage caller) p' there deed) :
    Binding first ({ s with provider := p' }.record caller there deed) := by
  -- Once a seed function is bound, no deed shows it missing any more.
  have hlast : s.provider.isBound = true → deed.before? ≠ some false := by
    intro hbound
    rcases hdoes.before?_eq with hbefore | hbefore <;> rw [hbefore] <;> simp [hbound]
  constructor
  · exact fun seeder hfirst => hdoes.seeder_eq (h.seeder_eq seeder hfirst)
  · intro hfirst
    obtain ⟨seeder, hseeder⟩ := Option.isSome_iff_exists.mp hfirst
    have hbound : s.provider.isBound = true :=
      Option.isSome_iff_exists.mpr ⟨seeder, h.seeder_eq seeder hseeder⟩
    refine List.forall_mem_append.mpr ⟨h.before?_ne hfirst, ?_⟩
    exact List.forall_mem_singleton.mpr (hlast hbound)
  · intro hbound
    have hfree : s.provider.isBound = false :=
      eq_false_of_ne_true fun hs => ne_true_of_eq_false hbound (hdoes.stays_bound hs)
    refine List.forall_mem_append.mpr ⟨h.after?_ne hfree, ?_⟩
    refine List.forall_mem_singleton.mpr ?_
    change p'.isBound = false at hbound
    rcases hdoes.after?_eq with hafter | hafter <;> rw [hafter] <;> simp [hbound]
  · -- A deed that left a seed function bound shows that one is bound now.
    refine List.pairwise_append.mpr ⟨h.pairwise, List.pairwise_singleton _ _, ?_⟩
    intro earlier hearlier later hlater hafter
    obtain rfl := List.mem_singleton.mp hlater
    refine hlast ?_
    cases hs : s.provider.isBound with
    | true => rfl
    | false => exact absurd hafter (h.after?_ne hs earlier hearlier)
  · change ((s.history ++ [deed]).filter Deed.isAccepted).length =
      if p'.isBound && first.isNone then 1 else 0
    rw [List.filter_append, List.length_append, h.accepted]
    by_cases haccepted : deed.isAccepted = true
    · obtain ⟨hfree, hbound⟩ := hdoes.isAccepted_iff.mp haccepted
      have hfirst : first = none := by
        cases hfirst : first with
        | none => rfl
        | some seeder =>
          rw [isBound, h.seeder_eq seeder hfirst] at hfree
          cases hfree
      simp [haccepted, hfree, hbound, hfirst]
    · have hsame : p'.isBound = s.provider.isBound := by
        cases hs : s.provider.isBound with
        | true => exact hdoes.stays_bound hs
        | false =>
          exact eq_false_of_ne_true fun hbound => haccepted (hdoes.isAccepted_iff.mpr ⟨hs, hbound⟩)
      simp [haccepted, hsame]

/-- Whoever looks for a seed function after one was bound finds it. -/
theorem Binding.present {first : Option Seeder} (h : Binding first s) {present : Bool}
    {before after : List Deed} (hhistory : s.history = before ++ .looked caller present :: after)
    (hbound : first.isSome = true ∨ ∃ deed ∈ before, deed.isAccepted = true) :
    present = true := by
  have hne : (Deed.looked caller present).before? ≠ some false := by
    obtain hfirst | ⟨deed, hmem, haccepted⟩ := hbound
    · refine h.before?_ne hfirst _ ?_
      rw [hhistory]
      exact List.mem_append_right _ List.mem_cons_self
    · have hafter : deed.after? = some true := by
        cases deed with
        | bound => rfl
        | _ => cases haccepted
      have hpairwise := h.pairwise
      rw [hhistory] at hpairwise
      exact (List.pairwise_append.mp hpairwise).2.2 deed hmem _ List.mem_cons_self hafter
  cases present with
  | true => rfl
  | false => exact absurd rfl hne

end Sharing

end Redraw.SeedProvider
