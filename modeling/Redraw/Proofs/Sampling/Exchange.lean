import Mathlib.Data.List.FinRange
import Redraw.Sampling

/-!
# Exchanges

A shuffle asks for positions and never looks at an item, so it makes no difference whether items
are shuffled or put in the places of shuffled positions. Its exchanges go down from the last
position: each of them settles its own position, and those after it keep what they settled.
-/

namespace Redraw.IndexSource

variable {σ : Type} {α : Type u} {β : Type v} (source : IndexSource σ)

theorem map_swap (f : α → β) {n : Nat} (items : Vector α n) {i j : Nat} (hi : i < n) (hj : j < n) :
    (items.swap i j hi hj).map f = (items.map f).swap i j hi hj := by
  ext k hk
  simp only [Vector.getElem_map, Vector.getElem_swap]
  split
  · rfl
  · split <;> rfl

/-- One exchange, and then those below it. -/
theorem exchange_succ {n i : Nat} (h : i + 1 < n) (items : Vector α n) (s : σ) :
    source.exchange (i + 1) h items s =
      source.exchange i (Nat.lt_of_succ_lt h)
        (items.swap (i + 1) (source.draw (i + 1) s).1 h
          (Nat.lt_of_lt_of_le (source.draw (i + 1) s).1.isLt h))
        (source.draw (i + 1) s).2 :=
  rfl

/-- What is done to items before the exchanges may as well be done after them. -/
theorem exchange_map (f : α → β) {n i : Nat} (h : i < n) (items : Vector α n) (s : σ) :
    source.exchange i h (items.map f) s =
      ((source.exchange i h items s).1.map f, (source.exchange i h items s).2) := by
  induction i generalizing items s with
  | zero => rfl
  | succ i ih =>
    rw [exchange_succ, exchange_succ, ← map_swap]
    exact ih _ _ _

theorem shuffleVector_map (f : α → β) {n : Nat} (items : Vector α n) (s : σ) :
    source.shuffleVector (items.map f) s =
      ((source.shuffleVector items s).1.map f, (source.shuffleVector items s).2) := by
  cases n with
  | zero => rfl
  | succ n => exact source.exchange_map f _ items s

theorem shuffle_toList {n : Nat} (items : Vector α n) (s : σ) :
    source.shuffle items.toList s =
      ((source.shuffleVector items s).1.toList, (source.shuffleVector items s).2) := by
  obtain ⟨⟨items⟩, rfl⟩ := items
  rfl

theorem shuffle_map (f : α → β) (items : List α) (s : σ) :
    source.shuffle (items.map f) s =
      ((source.shuffle items s).1.map f, (source.shuffle items s).2) := by
  have hitems : items.map f = (items.toArray.toVector.map f).toList := by
    rw [Vector.toList_map]
    rfl
  rw [hitems, shuffle_toList, shuffleVector_map, Vector.toList_map]
  rfl

/-- Shuffling items is shuffling positions and looking the items up. -/
theorem shuffle_eq_map_get (items : List α) (s : σ) :
    source.shuffle items s =
      ((source.shuffle (List.finRange items.length) s).1.map items.get,
        (source.shuffle (List.finRange items.length) s).2) := by
  have hshuffle := source.shuffle_map items.get (List.finRange _) s
  rwa [List.map_get_finRange] at hshuffle

theorem sample_of_lt {population : List α} {n : Nat} (h : population.length < n) (s : σ) :
    source.sample population n s = (.error ⟨n, population.length⟩, s) := by
  rw [sample, if_neg (by omega), if_pos h]

/-- When there are enough items, the selected ones are the first of a shuffle. -/
theorem sample_of_le {population : List α} {n : Nat} (hpos : n ≠ 0) (hle : n ≤ population.length)
    (s : σ) : source.sample population n s =
      (.ok ((source.shuffle population s).1.take n), (source.shuffle population s).2) := by
  rw [sample, if_neg hpos, if_neg (by omega)]

/-- What is selected are the first items of a shuffle, and there are none of them without asking. -/
theorem fst_sample_of_le {population : List α} {n : Nat} (hle : n ≤ population.length) (s : σ) :
    (source.sample population n s).1 = .ok ((source.shuffle population s).1.take n) := by
  by_cases hpos : n = 0
  · subst hpos
    rfl
  · rw [source.sample_of_le hpos hle]

/-- Selected items are those at selected positions. -/
theorem sample_map (f : α → β) (population : List α) (n : Nat) (s : σ) :
    source.sample (population.map f) n s =
      ((source.sample population n s).1.map (List.map f), (source.sample population n s).2) := by
  by_cases hpos : n = 0
  · subst hpos
    rfl
  · by_cases hlt : population.length < n
    · have hlt' : (population.map f).length < n := by rwa [List.length_map]
      rw [sample_of_lt _ hlt, sample_of_lt _ hlt', List.length_map]
      rfl
    · have hle := Nat.le_of_not_lt hlt
      have hle' : n ≤ (population.map f).length := by rwa [List.length_map]
      rw [sample_of_le _ hpos hle, sample_of_le _ hpos hle', shuffle_map, ← List.map_take]
      rfl

/-- Selecting items is selecting positions and looking the items up. -/
theorem sample_eq_map_get (population : List α) (n : Nat) (s : σ) :
    source.sample population n s =
      ((source.sample (List.finRange population.length) n s).1.map (List.map population.get),
        (source.sample (List.finRange population.length) n s).2) := by
  have hsample := source.sample_map population.get (List.finRange _) n s
  rwa [List.map_get_finRange] at hsample

/-- The exchanges leave the positions above the first of them alone. -/
theorem getElem_exchange_of_lt {n i k : Nat} (h : i < n) (hk : k < n) (hik : i < k)
    (items : Vector α n) (s : σ) : (source.exchange i h items s).1[k] = items[k] := by
  induction i generalizing items s with
  | zero => rfl
  | succ i ih =>
    rw [exchange_succ]
    refine (ih _ (by omega) _ _).trans (Vector.getElem_swap_of_ne (by omega) ?_)
    have hj := (source.draw (i + 1) s).1.isLt
    omega

/-- The first exchange settles its position with the item at the drawn one. -/
theorem getElem_exchange_succ {n i : Nat} (h : i + 1 < n) (items : Vector α n) (s : σ) :
    (source.exchange (i + 1) h items s).1[i + 1] =
      items.get ((source.draw (i + 1) s).1.castLE h) := by
  rw [exchange_succ]
  exact (source.getElem_exchange_of_lt _ h (Nat.lt_succ_self i) _ _).trans
    (Vector.getElem_swap_left _ _)

theorem exchange_perm {n i : Nat} (h : i < n) (items : Vector α n) (s : σ) :
    (source.exchange i h items s).1.Perm items := by
  induction i generalizing items s with
  | zero => exact .rfl
  | succ i ih =>
    rw [exchange_succ]
    exact (ih _ _ _).trans (Vector.swap_perm _ _)

theorem shuffleVector_perm {n : Nat} (items : Vector α n) (s : σ) :
    (source.shuffleVector items s).1.Perm items := by
  cases n with
  | zero => exact .rfl
  | succ n => exact source.exchange_perm _ items s

/-- A shuffle loses no item and adds none. -/
theorem shuffle_perm (items : List α) (s : σ) : (source.shuffle items s).1.Perm items :=
  (source.shuffleVector_perm items.toArray.toVector s).toList

end Redraw.IndexSource
