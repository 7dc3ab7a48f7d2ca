import Redraw.Proofs.Generator.Cost
import Redraw.Proofs.SeedProvider.Turns

/-!
# Where seeds are from

Seeds from the bound function are its answers, in the order of its calls, each given to one caller.
Seeds from the default generator are its draws in a row: it is made once, when a caller is about to
draw for the first time, and each draw goes on where the one before it stopped. So a seed is neither
lost nor issued twice, whoever comes between.
-/

namespace Redraw

namespace Generator

/-- The seed that a default generator gives next. -/
def nextSeed (g : Generator) : UInt32 :=
  (g.next32).1

theorem below_widest_run (g : Generator) :
    (below widest).run.run g = (.ok g.nextSeed, g.skip 1) := by
  rw [below_run, if_neg (by decide)]
  rfl

end Generator

namespace SeedProvider

namespace Deed

/-- The seed from a source that a caller got. -/
def seed? (source : SeedSource) : Deed → Option UInt32
  | issued _ seed origin => if origin = source then some seed else none
  | _ => none

/-- Whether the default generator was made. -/
def isMaking : Deed → Bool
  | prepared _ made => made
  | _ => false

end Deed

variable {p p' : SeedProvider} {caller : Nat} {here there : Stage} {deed : Deed}

theorem Does.entropy_eq (h : Does p caller here p' there deed) : p'.entropy = p.entropy := by
  cases h <;> rfl

/-- A seed is drawn from the default generator, or the default generator stays as it is. -/
theorem Does.fallback (h : Does p caller here p' there deed) :
    deed.seed? .fallback = none ∧ p'.fallbackGenerator = p.fallbackGenerator ∨
      deed.seed? .fallback = some p.fallbackGenerator.nextSeed ∧
        p'.fallbackGenerator = p.fallbackGenerator.skip 1 := by
  cases h with
  | draws => exact Or.inr ⟨rfl, rfl⟩
  | _ => exact Or.inl ⟨rfl, rfl⟩

/-- The next answer of the seed function is issued, or the seed function is not called. -/
theorem Does.called (h : Does p caller here p' there deed) :
    deed.seed? .bound = none ∧ p'.calls = p.calls ∨
      ∃ seeder, here = .calling seeder ∧ deed.seed? .bound = some (seeder.answer p.calls) ∧
        p'.calls = p.calls + 1 := by
  cases h with
  | calls seeder => exact Or.inr ⟨seeder, rfl, rfl, rfl⟩
  | _ => exact Or.inl ⟨rfl, rfl⟩

/-- The default generator is there after a deed if it was before, or if the deed made it. -/
theorem Does.fallback_isSome (h : Does p caller here p' there deed)
    (hdrawing : here = .drawing → p.fallback.isSome = true) :
    p'.fallback.isSome = (p.fallback.isSome || deed.isMaking) ∧
      (deed.isMaking = true → p.fallback.isSome = false) := by
  cases h with
  | prepares => cases hp : p.fallback <;> simp [Deed.isMaking]
  | draws => simp [hdrawing rfl, Deed.isMaking]
  | _ => simp [Deed.isMaking]

/-- A caller that is about to call a seed function found it. -/
theorem Does.seeder_of_calling (h : Does p caller here p' there deed) {seeder : Seeder}
    (hthere : there = .calling seeder) : p'.seeder = some seeder := by
  cases h <;> cases hthere
  assumption

/-- A caller that is about to draw saw to the default generator. -/
theorem Does.fallback_of_drawing (h : Does p caller here p' there deed)
    (hthere : there = .drawing) : p'.fallback.isSome = true := by
  cases h <;> cases hthere
  rfl

namespace Sharing

variable {s : Sharing}

/-- The seeds that were issued from a source, oldest first. -/
def seeds (source : SeedSource) (history : List Deed) : List UInt32 :=
  history.filterMap (Deed.seed? source)

theorem seeds_append_of_none {source : SeedSource} (h : deed.seed? source = none)
    (history : List Deed) : seeds source (history ++ [deed]) = seeds source history := by
  rw [seeds, List.filterMap_append, List.filterMap_cons_none h]
  exact List.append_nil _

theorem seeds_append_of_some {source : SeedSource} {seed : UInt32}
    (h : deed.seed? source = some seed) (history : List Deed) :
    seeds source (history ++ [deed]) = seeds source history ++ [seed] := by
  rw [seeds, List.filterMap_append, List.filterMap_cons_some h]
  rfl

/-- What a shared provider and its history say about seeds. -/
structure Supply (entropy : UInt64) (s : Sharing) : Prop where
  /-- The default generator is made from one word of entropy. -/
  entropy_eq : s.provider.entropy = entropy
  /-- Callers call the seed function that is bound. -/
  calling : ∀ caller seeder, s.stage caller = .calling seeder → s.provider.seeder = some seeder
  /-- They draw from a default generator that is there. -/
  drawing : ∀ caller, s.stage caller = .drawing → s.provider.fallback.isSome = true
  /-- The default generator is there when it was made, which happens once. -/
  made : (s.history.filter Deed.isMaking).length = if s.provider.fallback.isSome then 1 else 0
  /-- Before a seed function is bound, none is called. -/
  uncalled : s.provider.seeder = none → s.provider.calls = 0 ∧ seeds .bound s.history = []
  /-- Its answers are issued in order. -/
  called : ∀ seeder, s.provider.seeder = some seeder →
    seeds .bound s.history = (List.range s.provider.calls).map seeder.answer
  /-- The draws of the default generator are issued in order. -/
  drawn : ∃ n, s.provider.fallbackGenerator = (Generator.ofSeed entropy).skip n ∧
    seeds .fallback s.history =
      (List.range n).map fun i => ((Generator.ofSeed entropy).skip i).nextSeed

theorem supply_shared (first : Option Seeder) (entropy : UInt64) :
    Supply entropy (shared first entropy) := by
  have hidle : ∀ caller, (shared first entropy).stage caller = .idle := fun _ => rfl
  have hcalls : (shared first entropy).provider.calls = 0 := by cases first <;> rfl
  have hmade : (shared first entropy).provider.fallback = none := by cases first <;> rfl
  have hentropy : (shared first entropy).provider.entropy = entropy := by cases first <;> rfl
  refine ⟨hentropy, by simp [hidle], by simp [hidle], by rw [hmade]; rfl, fun _ => ⟨hcalls, rfl⟩,
    fun _ _ => by rw [hcalls]; rfl, 0, ?_, rfl⟩
  rw [fallbackGenerator, hmade, hentropy]
  rfl

theorem Supply.made_record {entropy : UInt64} (h : Supply entropy s)
    (hdoes : Does s.provider caller (s.stage caller) p' there deed) :
    ((s.history ++ [deed]).filter Deed.isMaking).length =
      if p'.fallback.isSome then 1 else 0 := by
  obtain ⟨hthere, hmaking⟩ := hdoes.fallback_isSome (h.drawing caller)
  rw [List.filter_append, List.length_append, h.made, hthere]
  cases hdeed : deed.isMaking with
  | true => simp [hdeed, hmaking hdeed]
  | false => simp [hdeed]

/-- The answers stay in order: what is issued is the answer to the next call. -/
theorem Supply.called_record {entropy : UInt64} (h : Supply entropy s)
    (hdoes : Does s.provider caller (s.stage caller) p' there deed) {seeder : Seeder}
    (hseeder : p'.seeder = some seeder) :
    seeds .bound (s.history ++ [deed]) = (List.range p'.calls).map seeder.answer := by
  have hearlier : seeds .bound s.history = (List.range s.provider.calls).map seeder.answer := by
    cases hs : s.provider.seeder with
    | none =>
      -- The seed function is bound by this very deed, and was not called before.
      obtain ⟨hcalls, hseeds⟩ := h.uncalled hs
      rw [hcalls, hseeds]
      rfl
    | some bound =>
      obtain rfl := Option.some.inj ((hdoes.seeder_eq hs).symm.trans hseeder)
      exact h.called bound hs
  obtain ⟨hnone, hcalls⟩ | ⟨bound, hhere, hsome, hcalls⟩ := hdoes.called
  · rw [seeds_append_of_none hnone, hcalls, hearlier]
  · have hbound := hdoes.seeder_eq (h.calling caller bound hhere)
    obtain rfl := Option.some.inj (hbound.symm.trans hseeder)
    rw [seeds_append_of_some hsome, hcalls, hearlier, List.range_succ, List.map_append]
    rfl

theorem Supply.record {entropy : UInt64} (h : Supply entropy s)
    (hdoes : Does s.provider caller (s.stage caller) p' there deed) :
    Supply entropy ({ s with provider := p' }.record caller there deed) := by
  constructor
  · exact hdoes.entropy_eq.trans h.entropy_eq
  · intro other seeder hstage
    change (if other = caller then there else s.stage other) = .calling seeder at hstage
    by_cases hother : other = caller
    · rw [if_pos hother] at hstage
      exact hdoes.seeder_of_calling hstage
    · rw [if_neg hother] at hstage
      exact hdoes.seeder_eq (h.calling other seeder hstage)
  · intro other hstage
    change (if other = caller then there else s.stage other) = .drawing at hstage
    by_cases hother : other = caller
    · rw [if_pos hother] at hstage
      exact hdoes.fallback_of_drawing hstage
    · rw [if_neg hother] at hstage
      change p'.fallback.isSome = true
      rw [(hdoes.fallback_isSome (h.drawing caller)).1, h.drawing other hstage]
      rfl
  · exact h.made_record hdoes
  · intro hfree
    change p'.seeder = none at hfree
    have hunbound : s.provider.seeder = none := by
      cases hs : s.provider.seeder with
      | none => rfl
      | some seeder => rw [hdoes.seeder_eq hs] at hfree; cases hfree
    obtain ⟨hnone, hcalls⟩ | ⟨seeder, hhere, _⟩ := hdoes.called
    · obtain ⟨hzero, hseeds⟩ := h.uncalled hunbound
      exact ⟨hcalls.trans hzero, (seeds_append_of_none hnone s.history).trans hseeds⟩
    · rw [h.calling caller seeder hhere] at hunbound
      cases hunbound
  · exact fun seeder hseeder => h.called_record hdoes hseeder
  · obtain ⟨n, hgenerator, hseeds⟩ := h.drawn
    obtain ⟨hnone, hsame⟩ | ⟨hsome, hnext⟩ := hdoes.fallback
    · exact ⟨n, hsame.trans hgenerator, (seeds_append_of_none hnone s.history).trans hseeds⟩
    · rw [hgenerator] at hsome hnext
      refine ⟨n + 1, hnext.trans (Generator.skip_add n 1 _).symm, ?_⟩
      refine (seeds_append_of_some hsome s.history).trans ?_
      rw [hseeds, List.range_succ, List.map_append]
      rfl

/-- The seeds from the default generator are as many draws below the greatest bound. -/
theorem Supply.repeated_run {entropy : UInt64} (h : Supply entropy s) :
    (Generator.repeated (Generator.below Generator.widest)
        (seeds .fallback s.history).length).run.run (.ofSeed entropy) =
      (.ok (seeds .fallback s.history), s.provider.fallbackGenerator) := by
  obtain ⟨n, hgenerator, hseeds⟩ := h.drawn
  rw [hgenerator, hseeds, List.length_map, List.length_range]
  exact Generator.repeated_run Generator.below_widest_run n _

theorem Supply.seeds_bound {entropy : UInt64} (h : Supply entropy s) :
    seeds .bound s.history = match s.provider.seeder with
      | none => []
      | some seeder => (List.range s.provider.calls).map seeder.answer := by
  cases hs : s.provider.seeder with
  | none => exact (h.uncalled hs).2
  | some seeder => exact h.called seeder hs

/-- A seed that was issued from the seed function is an answer that it has given. -/
theorem Supply.exists_answer {entropy : UInt64} (h : Supply entropy s) {seed : UInt32}
    (hissued : .issued caller seed .bound ∈ s.history) :
    ∃ seeder n, s.provider.seeder = some seeder ∧ n < s.provider.calls ∧
      seed = seeder.answer n := by
  have hmem : seed ∈ seeds .bound s.history := List.mem_filterMap.mpr ⟨_, hissued, rfl⟩
  rw [h.seeds_bound] at hmem
  cases hs : s.provider.seeder with
  | none =>
    rw [hs] at hmem
    cases hmem
  | some seeder =>
    rw [hs] at hmem
    obtain ⟨n, hn, hanswer⟩ := List.mem_map.mp hmem
    exact ⟨seeder, n, rfl, List.mem_range.mp hn, hanswer.symm⟩

/-- Whoever found a seed function gets one of its answers next. -/
theorem Supply.exists_answer_of_looked {entropy : UInt64} (h : Supply entropy s) (hturns : Turns s)
    {before after : List Deed} (hhistory : s.history = before ++ .looked caller true :: after)
    {next : Deed} (hnext : next ∈ (deedsOf caller after).head?) :
    ∃ seeder n, s.provider.seeder = some seeder ∧ n < s.provider.calls ∧
      next = .issued caller (seeder.answer n) .bound := by
  obtain ⟨⟨seed, hissued⟩, hcaller⟩ := hturns.leads hhistory hnext
  have hmem : next ∈ s.history := by
    rw [hhistory]
    have hafter := (List.mem_filter.mp (List.mem_of_mem_head? hnext)).1
    exact List.mem_append_right _ (List.mem_cons_of_mem _ hafter)
  rw [hissued] at hmem
  obtain ⟨seeder, n, hseeder, hn, rfl⟩ := h.exists_answer hmem
  refine ⟨seeder, n, hseeder, hn, ?_⟩
  rw [hissued, hcaller]
  rfl

end Sharing

end SeedProvider

end Redraw
