import Redraw.Proofs.Sampling.Picks

/-!
# Selections are beginnings of a shuffle

Whatever number of items is selected, the whole population is shuffled first, so that the source is
asked the same questions and gives the same answers; the number says only how much of the order is
kept. To see which questions a source is asked, it is observed: the observed source answers as the
source does and writes down the bound of each question.
-/

namespace Redraw.IndexSource

variable {σ : Type} {α : Type u} (source : IndexSource σ)

/-- The source, with a list of the bounds that it was asked for, oldest first. -/
def observed : IndexSource (σ × List Nat) where
  draw n seen :=
    let (j, s) := source.draw n seen.1
    (j, (s, seen.2 ++ [n + 1]))

/-- The bounds that a shuffle of so many items asks for: their number, and so on down to two. -/
def bounds (length : Nat) : List Nat :=
  (List.range' 2 (length - 1)).reverse

/-- The bounds that a selection of `n` items asks for: those of a shuffle, unless nothing or too
much is to be selected. -/
def sampleBounds (length n : Nat) : List Nat :=
  if n = 0 ∨ length < n then [] else bounds length

theorem bounds_add_two (i : Nat) : bounds (i + 2) = (i + 2) :: bounds (i + 1) := by
  rw [bounds, bounds, Nat.add_sub_cancel, show i + 2 - 1 = i + 1 from rfl, List.range'_concat,
    List.reverse_append, Nat.one_mul, Nat.add_comm 2 i]
  rfl

/-- Observing exchanges shows one bound for each, and changes nothing. -/
theorem exchange_observed {n i : Nat} (h : i < n) (items : Vector α n) (s : σ) (asked : List Nat) :
    source.observed.exchange i h items (s, asked) =
      ((source.exchange i h items s).1,
        ((source.exchange i h items s).2, asked ++ bounds (i + 1))) := by
  induction i generalizing items s asked with
  | zero =>
    rw [show bounds (0 + 1) = [] from rfl, List.append_nil]
    rfl
  | succ i ih =>
    rw [exchange_succ, exchange_succ, bounds_add_two, List.append_cons]
    exact ih _ _ _ _

theorem shuffle_observed (items : List α) (s : σ) (asked : List Nat) :
    source.observed.shuffle items (s, asked) =
      ((source.shuffle items s).1, ((source.shuffle items s).2, asked ++ bounds items.length)) := by
  cases items with
  | nil =>
    rw [show bounds ([] : List α).length = [] from rfl, List.append_nil]
    rfl
  | cons item items =>
    have hshuffle := source.exchange_observed (Nat.lt_succ_self items.length)
      (item :: items).toArray.toVector s asked
    exact congrArg (fun outcome => (outcome.1.toList, outcome.2)) hshuffle

/-- Observing a selection shows the bounds of a shuffle or none, and changes nothing. -/
theorem sample_observed (population : List α) (n : Nat) (s : σ) (asked : List Nat) :
    source.observed.sample population n (s, asked) =
      ((source.sample population n s).1,
        ((source.sample population n s).2, asked ++ sampleBounds population.length n)) := by
  by_cases hnone : n = 0 ∨ population.length < n
  · rw [sampleBounds, if_pos hnone, List.append_nil]
    rcases hnone with rfl | hlt
    · rfl
    · rw [sample_of_lt _ hlt, sample_of_lt _ hlt]
  · obtain ⟨hpos, hle⟩ := not_or.mp hnone
    rw [sampleBounds, if_neg hnone, sample_of_le _ hpos (Nat.le_of_not_lt hle),
      sample_of_le _ hpos (Nat.le_of_not_lt hle), shuffle_observed]

/-- Choices are overwritten by the items that are selected. -/
theorem sampleInto_of_ok {population choices picked : List α} {s after : σ}
    (h : source.sample population choices.length s = (.ok picked, after)) :
    source.sampleInto population choices s = ((.ok (), picked), after) := by
  rw [sampleInto, h]

/-- Choices are left as they were when there are too few items. -/
theorem sampleInto_of_error {population choices : List α} {shortage : Shortage} {s after : σ}
    (h : source.sample population choices.length s = (.error shortage, after)) :
    source.sampleInto population choices s = ((.error shortage, choices), after) := by
  rw [sampleInto, h]

theorem sampleInto_observed (population choices : List α) (s : σ) (asked : List Nat) :
    source.observed.sampleInto population choices (s, asked) =
      ((source.sampleInto population choices s).1, ((source.sampleInto population choices s).2,
        asked ++ sampleBounds population.length choices.length)) := by
  have hsample := source.sample_observed population choices.length s asked
  rcases h : source.sample population choices.length s with ⟨shortage | picked, after⟩
  · rw [h] at hsample
    rw [sampleInto_of_error _ h, sampleInto_of_error _ hsample]
  · rw [h] at hsample
    rw [sampleInto_of_ok _ h, sampleInto_of_ok _ hsample]

/-- Items are some of a population, each from a position of its own. -/
structure IsSelection (population picked : List α) (n : Nat) : Prop where
  /-- The items are those at as many different positions. -/
  exists_positions : ∃ positions : List (Fin population.length),
    positions.Nodup ∧ positions.length = n ∧ positions.map population.get = picked
  /-- No item is there more often than in the population. -/
  subperm : picked.Subperm population
  /-- When there are as many, they are the whole population. -/
  perm : n = population.length → picked.Perm population

/-- The beginning of any order of a population is a selection from it: the order is that of its
positions. -/
theorem isSelection_take_shuffle {population : List α} {n : Nat} (h : n ≤ population.length)
    (s : σ) : IsSelection population ((source.shuffle population s).1.take n) n := by
  have hperm := source.shuffle_perm population s
  refine ⟨?_, (List.take_sublist _ _).subperm.trans hperm.subperm, fun hall => ?_⟩
  · have hpositions := source.shuffle_perm (List.finRange population.length) s
    refine ⟨(source.shuffle (List.finRange population.length) s).1.take n, ?_, ?_, ?_⟩
    · exact (hpositions.nodup_iff.mpr (List.nodup_finRange _)).sublist (List.take_sublist _ _)
    · rw [List.length_take, hpositions.length_eq, List.length_finRange, Nat.min_eq_left h]
    · rw [List.map_take, source.shuffle_eq_map_get population]
  · rw [List.take_of_length_le (by rw [hperm.length_eq, hall])]
    exact hperm

/-- Selecting asks for the bounds of a shuffle, or for none when nothing or too much is wanted; too
much is refused, and then choices are as they were. Otherwise what is selected is the beginning of
any shuffle of the population with the same answers, and how much of it is wanted makes no
difference to anything else. -/
theorem sample_begins_shuffle (population : List α) (n : Nat) (s : σ) :
    (∀ asked : List Nat, source.observed.sample population n (s, asked) =
      ((source.sample population n s).1,
        ((source.sample population n s).2, asked ++ sampleBounds population.length n))) ∧
    (∀ (choices : List α) (asked : List Nat), choices.length = n →
      source.observed.sampleInto population choices (s, asked) =
        ((source.sampleInto population choices s).1, ((source.sampleInto population choices s).2,
          asked ++ sampleBounds population.length n))) ∧
    (population.length < n → source.sample population n s = (.error ⟨n, population.length⟩, s) ∧
      ∀ choices : List α, choices.length = n →
        source.sampleInto population choices s = ((.error ⟨n, population.length⟩, choices), s)) ∧
    (n = 0 → source.sample population n s = (.ok [], s) ∧
      source.sampleInto population [] s = ((.ok (), []), s)) ∧
    (1 ≤ n → n ≤ population.length → ∃ picked after,
      source.sample population n s = (.ok picked, after) ∧
      (source.shuffle population s).2 = after ∧
      (∀ {τ : Type} (other : IndexSource τ) (t : τ),
        other.answers (population.length - 1) t = source.answers (population.length - 1) s →
          (other.shuffle population t).1.take n = picked) ∧
      (∀ m, 1 ≤ m → m ≤ n → ∃ fewer,
        source.sample population m s = (.ok fewer, after) ∧ fewer <+: picked) ∧
      (∀ choices : List α, choices.length = n →
        source.sampleInto population choices s = ((.ok (), picked), after)) ∧
      IsSelection population picked n) := by
  refine ⟨source.sample_observed population n s, ?_, fun hlt => ?_, ?_, fun hpos hle => ?_⟩
  · rintro choices asked rfl
    exact source.sampleInto_observed population choices s asked
  · have hsample := source.sample_of_lt hlt s
    refine ⟨hsample, ?_⟩
    rintro choices rfl
    exact source.sampleInto_of_error hsample
  · rintro rfl
    exact ⟨rfl, rfl⟩
  · have hsample := source.sample_of_le (Nat.one_le_iff_ne_zero.mp hpos) hle s
    refine ⟨_, _, hsample, rfl, fun other t hanswers => ?_, fun m hm hmn => ?_, ?_, ?_⟩
    · rw [← other.shuffle_answers, hanswers, shuffle_answers]
    · refine ⟨_, source.sample_of_le (Nat.one_le_iff_ne_zero.mp hm) (hmn.trans hle) s, ?_⟩
      exact List.take_prefix_take_left hmn
    · rintro choices rfl
      exact source.sampleInto_of_ok hsample
    · exact source.isSelection_take_shuffle hle s

example : Script.source.sample ['a', 'b', 'c', 'd'] 2 { picks := [0, 2, 0] } =
    (.ok ['b', 'd'], { picks := [], asked := [4, 3, 2] }) :=
  rfl

end Redraw.IndexSource
