import Mathlib.Data.List.Chain
import Redraw.Proofs.SeedProvider.Binding

/-!
# One caller at a time

What one caller did is a sequence of whole operations, of which the last may be half done: whoever
found a seed function calls it next, and whoever found none sees to the default generator and then
draws from it, however much others do in between. So what a caller did last says where it stands.
-/

namespace Redraw.SeedProvider

namespace Deed

/-- Who did it. -/
def caller : Deed → Nat
  | asked caller _ => caller
  | bound caller _ => caller
  | looked caller _ => caller
  | prepared caller _ => caller
  | issued caller _ _ => caller

/-- The deeds with which operations start. -/
def Starts : Deed → Prop
  | asked .. => True
  | bound .. => True
  | looked .. => True
  | prepared .. => False
  | issued .. => False

/-- What a caller may do after what it did last. -/
def Leads : Deed → Deed → Prop
  | asked .., next => next.Starts
  | bound .., next => next.Starts
  | looked _ true, next => ∃ seed, next = issued next.caller seed .bound
  | looked _ false, next => ∃ made, next = prepared next.caller made
  | prepared .., next => ∃ seed, next = issued next.caller seed .fallback
  | issued .., next => next.Starts

/-- Only a caller that found no seed function sees to the default generator. -/
theorem eq_looked_of_leads {last : Deed} {caller : Nat} {made : Bool}
    (h : last.Leads (prepared caller made)) : last = looked last.caller false := by
  cases last with
  | looked _ present =>
    cases present with
    | true => exact nomatch h.choose_spec
    | false => rfl
  | prepared => exact nomatch h.choose_spec
  | asked | bound | issued => exact h.elim

end Deed

/-- Where a caller stands after what it did last, if it did anything. -/
def Stage.Fits : Stage → Option Deed → Prop
  | .idle, last => ∀ deed ∈ last, ∀ next, deed.Leads next ↔ next.Starts
  | .calling _, last => ∃ caller, last = some (.looked caller true)
  | .preparing, last => ∃ caller, last = some (.looked caller false)
  | .drawing, last => ∃ caller made, last = some (.prepared caller made)

variable {p p' : SeedProvider} {caller : Nat} {here there : Stage} {deed : Deed}

theorem Does.caller_eq (h : Does p caller here p' there deed) : deed.caller = caller := by
  cases h <;> rfl

theorem Does.starts (h : Does p caller here p' there deed) (hfits : here.Fits none) :
    deed.Starts := by
  cases h <;> first | trivial | simp [Stage.Fits] at hfits

theorem Does.leads (h : Does p caller here p' there deed) {last : Deed}
    (hfits : here.Fits (some last)) : last.Leads deed := by
  cases h with
  | asks | binds | yields | finds | misses => exact (hfits last rfl _).mpr trivial
  | calls | prepares =>
    obtain ⟨_, hlast⟩ := hfits
    obtain rfl := Option.some.inj hlast
    exact ⟨_, rfl⟩
  | draws =>
    obtain ⟨_, _, hlast⟩ := hfits
    obtain rfl := Option.some.inj hlast
    exact ⟨_, rfl⟩

theorem Does.fits (h : Does p caller here p' there deed) : there.Fits (some deed) := by
  cases h <;> simp [Stage.Fits, Deed.Leads]

namespace Sharing

variable {s : Sharing}

/-- What one caller did, oldest first. -/
def deedsOf (caller : Nat) (history : List Deed) : List Deed :=
  history.filter fun deed => deed.caller == caller

theorem deedsOf_append (caller : Nat) (before after : List Deed) :
    deedsOf caller (before ++ after) = deedsOf caller before ++ deedsOf caller after :=
  List.filter_append ..

theorem deedsOf_cons_of_eq (h : deed.caller = caller) (after : List Deed) :
    deedsOf caller (deed :: after) = deed :: deedsOf caller after :=
  List.filter_cons_of_pos (beq_iff_eq.mpr h)

theorem deedsOf_cons_of_ne (h : deed.caller ≠ caller) (after : List Deed) :
    deedsOf caller (deed :: after) = deedsOf caller after :=
  List.filter_cons_of_neg fun hbeq => h (beq_iff_eq.mp hbeq)

/-- Every caller does whole operations, one after the other, the last up to where it stands. -/
structure Turns (s : Sharing) : Prop where
  /-- A caller stands where its last deed left it. -/
  fits : ∀ caller, (s.stage caller).Fits (deedsOf caller s.history).getLast?
  /-- Its first deed starts an operation. -/
  starts : ∀ caller, ∀ deed ∈ (deedsOf caller s.history).head?, deed.Starts
  /-- Each deed goes on with the operation of the one before, or starts the next. -/
  isChain : ∀ caller, (deedsOf caller s.history).IsChain Deed.Leads

theorem turns_shared (first : Option Seeder) (entropy : UInt64) : Turns (shared first entropy) :=
  ⟨fun _ _ h => (nomatch h), fun _ _ h => (nomatch h), fun _ => .nil⟩

theorem Turns.record (h : Turns s) (hdoes : Does s.provider caller (s.stage caller) p' there deed) :
    Turns ({ s with provider := p' }.record caller there deed) := by
  -- Nobody else's deeds change, and the caller's own get one more at their end.
  have hcaller := hdoes.caller_eq
  have hother : ∀ other, other ≠ caller →
      deedsOf other (s.history ++ [deed]) = deedsOf other s.history := by
    intro other hne
    rw [deedsOf_append, deedsOf_cons_of_ne fun heq => hne (heq.symm.trans hcaller)]
    exact List.append_nil _
  have hown : deedsOf caller (s.history ++ [deed]) = deedsOf caller s.history ++ [deed] := by
    rw [deedsOf_append, deedsOf_cons_of_eq hcaller]
    rfl
  have hfits := h.fits caller
  constructor
  · intro other
    change (if other = caller then there else s.stage other).Fits
      (deedsOf other (s.history ++ [deed])).getLast?
    by_cases hne : other = caller
    · rw [if_pos hne, hne, hown, List.getLast?_concat]
      exact hdoes.fits
    · rw [if_neg hne, hother other hne]
      exact h.fits other
  · intro other
    change ∀ deed' ∈ (deedsOf other (s.history ++ [deed])).head?, deed'.Starts
    by_cases hne : other = caller
    · rw [hne, hown]
      cases hdeeds : deedsOf caller s.history with
      | nil =>
        rw [hdeeds] at hfits
        rintro _ ⟨⟩
        exact hdoes.starts hfits
      | cons earlier deeds =>
        have hstarts := h.starts caller
        rw [hdeeds] at hstarts
        exact hstarts
    · rw [hother other hne]
      exact h.starts other
  · intro other
    change (deedsOf other (s.history ++ [deed])).IsChain Deed.Leads
    by_cases hne : other = caller
    · rw [hne, hown]
      refine (h.isChain caller).append (.singleton _) fun last hlast next hnext => ?_
      obtain rfl := Option.some.inj hnext
      rw [Option.mem_def.mp hlast] at hfits
      exact hdoes.leads hfits
    · rw [hother other hne]
      exact h.isChain other

/-- What a caller does next goes on with what it did. -/
theorem Turns.leads (h : Turns s) {before after : List Deed}
    (hhistory : s.history = before ++ deed :: after) {next : Deed}
    (hnext : next ∈ (deedsOf deed.caller after).head?) :
    deed.Leads next ∧ next.caller = deed.caller := by
  have hchain := h.isChain deed.caller
  rw [hhistory, deedsOf_append, deedsOf_cons_of_eq rfl] at hchain
  have hmem := List.mem_filter.mp (List.mem_of_mem_head? hnext)
  exact ⟨(List.isChain_cons.mp hchain.right_of_append).1 next hnext, beq_iff_eq.mp hmem.2⟩

/-- A caller that found a seed function and did nothing since is about to call one. -/
theorem Turns.exists_calling (h : Turns s) {before after : List Deed}
    (hhistory : s.history = before ++ .looked caller true :: after)
    (hafter : deedsOf caller after = []) : ∃ seeder, s.stage caller = .calling seeder := by
  have hown : deedsOf caller (.looked caller true :: after) =
      .looked caller true :: deedsOf caller after := deedsOf_cons_of_eq rfl after
  have hlast : (deedsOf caller s.history).getLast? = some (.looked caller true) := by
    rw [hhistory, deedsOf_append, hown, hafter, List.getLast?_concat]
  have hfits := h.fits caller
  rw [hlast] at hfits
  cases hstage : s.stage caller with
  | idle =>
    rw [hstage] at hfits
    obtain ⟨_, hnext⟩ := (hfits _ rfl (.asked caller true)).mpr trivial
    cases hnext
  | calling seeder => exact ⟨seeder, rfl⟩
  | preparing =>
    rw [hstage] at hfits
    obtain ⟨_, hlooked⟩ := hfits
    cases hlooked
  | drawing =>
    rw [hstage] at hfits
    obtain ⟨_, _, hprepared⟩ := hfits
    cases hprepared

/-- A caller that does not start an operation did something before, which leads to that. -/
theorem Turns.exists_getLast? (h : Turns s) {before after : List Deed}
    (hhistory : s.history = before ++ deed :: after) (hdeed : ¬ deed.Starts) :
    ∃ last, (deedsOf deed.caller before).getLast? = some last ∧ last.Leads deed ∧
      last.caller = deed.caller := by
  have hchain := h.isChain deed.caller
  have hstarts := h.starts deed.caller
  rw [hhistory, deedsOf_append, deedsOf_cons_of_eq rfl] at hchain hstarts
  cases hlast : (deedsOf deed.caller before).getLast? with
  | none =>
    rw [List.getLast?_eq_none_iff.mp hlast] at hstarts
    exact absurd (hstarts deed rfl) hdeed
  | some last =>
    have hleads := (List.isChain_append.mp hchain).2.2 last hlast deed rfl
    have hmem := List.mem_filter.mp (List.mem_of_getLast? hlast)
    exact ⟨last, rfl, hleads, beq_iff_eq.mp hmem.2⟩

/-- Whoever sees to the default generator has just found no seed function. -/
theorem Turns.getLast?_of_prepared (h : Turns s) {made : Bool} {before after : List Deed}
    (hhistory : s.history = before ++ .prepared caller made :: after) :
    (deedsOf caller before).getLast? = some (.looked caller false) := by
  obtain ⟨last, hlast, hleads, hcaller⟩ := h.exists_getLast? hhistory (fun h => h)
  rw [Deed.eq_looked_of_leads hleads, hcaller] at hlast
  exact hlast

end Sharing

end Redraw.SeedProvider
