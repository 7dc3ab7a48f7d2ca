import Mathlib.Data.List.Nodup
import Redraw.Proofs.Sampling.Exchange

/-!
# Picks

What a shuffle of a source comes to hangs on the picks alone, the positions that the source answers
with. There is one pick for each position from the last one down to the second, and it is not above
its position. Picks that are written down beforehand give the shuffles of all sources, and different
picks shuffle different items in different ways.
-/

namespace Redraw

/-- Whether picks are answers to the questions of a shuffle of so many items. -/
structure IsPicks (length : Nat) (picks : List Nat) : Prop where
  /-- There is a pick for each position but the first. -/
  length_eq : picks.length = length - 1
  /-- The picks are for the positions from the last one down, and none is above its position. -/
  le : ∀ k (h : k < picks.length), picks[k] ≤ length - 1 - k

theorem isPicks_one_iff {picks : List Nat} : IsPicks 1 picks ↔ picks = [] := by
  refine ⟨fun h => List.eq_nil_of_length_eq_zero h.length_eq, ?_⟩
  rintro rfl
  exact ⟨rfl, fun k h => absurd h (Nat.not_lt_zero k)⟩

/-- The first pick is for the last position, and the others are those for fewer items. -/
theorem isPicks_cons_iff {i j : Nat} {picks : List Nat} :
    IsPicks (i + 2) (j :: picks) ↔ j ≤ i + 1 ∧ IsPicks (i + 1) picks := by
  constructor
  · intro h
    refine ⟨h.le 0 (Nat.zero_lt_succ _), Nat.succ.inj h.length_eq, fun k hk => ?_⟩
    have hle := h.le (k + 1) (Nat.succ_lt_succ hk)
    rw [List.getElem_cons_succ] at hle
    omega
  · rintro ⟨hj, hlength, hle⟩
    refine ⟨congrArg (· + 1) hlength, fun k hk => ?_⟩
    cases k with
    | zero => exact hj
    | succ k =>
      have hk' := hle k (Nat.lt_of_succ_lt_succ hk)
      rw [List.getElem_cons_succ]
      omega

theorem IsPicks.exists_cons {i : Nat} {picks : List Nat} (h : IsPicks (i + 2) picks) :
    ∃ j rest, picks = j :: rest ∧ j ≤ i + 1 ∧ IsPicks (i + 1) rest := by
  cases picks with
  | nil => exact absurd h.length_eq (by simp)
  | cons j rest => exact ⟨j, rest, rfl, isPicks_cons_iff.mp h⟩

namespace IndexSource

variable {σ : Type} {α : Type u} (source : IndexSource σ)

theorem val_reduce_of_le {n j : Nat} (h : j ≤ n) : (reduce n j).val = j :=
  Nat.mod_eq_of_lt (Nat.lt_succ_of_le h)

/-- The answers of a source to the exchanges from a position down. -/
def answers : Nat → σ → List Nat
  | 0, _ => []
  | i + 1, s => (source.draw (i + 1) s).1 :: answers i (source.draw (i + 1) s).2

theorem isPicks_answers (i : Nat) (s : σ) : IsPicks (i + 1) (source.answers i s) := by
  induction i generalizing s with
  | zero => exact isPicks_one_iff.mpr rfl
  | succ i ih =>
    exact isPicks_cons_iff.mpr ⟨Nat.le_of_lt_succ (source.draw (i + 1) s).1.isLt, ih _⟩

/-- Exchanges are those of the answers when these are written down. -/
theorem exchange_answers {n i : Nat} (h : i < n) (items : Vector α n) (s : σ) (asked : List Nat) :
    (Script.source.exchange i h items ⟨source.answers i s, asked⟩).1 =
      (source.exchange i h items s).1 := by
  induction i generalizing items s asked with
  | zero => rfl
  | succ i ih =>
    have hdraw : (Script.source.draw (i + 1) ⟨source.answers (i + 1) s, asked⟩).1 =
        (source.draw (i + 1) s).1 :=
      Fin.ext (val_reduce_of_le (Nat.le_of_lt_succ (source.draw (i + 1) s).1.isLt))
    rw [exchange_succ, exchange_succ, hdraw]
    exact ih _ _ _ _

/-- A shuffle is that of the answers when these are written down. -/
theorem shuffle_answers (items : List α) (s : σ) :
    (Script.source.shuffle items { picks := source.answers (items.length - 1) s }).1 =
      (source.shuffle items s).1 := by
  cases items with
  | nil => rfl
  | cons item items =>
    exact congrArg Vector.toList (source.exchange_answers _ (item :: items).toArray.toVector s [])

/-- Every shuffle of every source is one of written picks. -/
theorem exists_picks_shuffle (items : List α) (s : σ) : ∃ picks, IsPicks items.length picks ∧
    (Script.source.shuffle items { picks }).1 = (source.shuffle items s).1 := by
  refine ⟨source.answers (items.length - 1) s, ?_, source.shuffle_answers items s⟩
  cases items with
  | nil => exact ⟨rfl, fun k h => absurd h (Nat.not_lt_zero k)⟩
  | cons item items => exact source.isPicks_answers _ s

end IndexSource

namespace Script

variable {α : Type u}

/-- A written pick is answered as it stands when it is not above its position. -/
theorem draw_cons {i j : Nat} (hj : j ≤ i + 1) (rest asked : List Nat) :
    source.draw (i + 1) ⟨j :: rest, asked⟩ =
      (⟨j, Nat.lt_succ_of_le hj⟩, ⟨rest, asked ++ [i + 2]⟩) :=
  Prod.ext (Fin.ext (IndexSource.val_reduce_of_le hj)) rfl

/-- The position is exchanged with the written pick. -/
theorem exchange_cons {n i : Nat} (h : i + 1 < n) (items : Vector α n) {j : Nat} (hj : j ≤ i + 1)
    (rest asked : List Nat) :
    source.exchange (i + 1) h items ⟨j :: rest, asked⟩ =
      source.exchange i (Nat.lt_of_succ_lt h)
        (items.swap (i + 1) j h (Nat.lt_of_le_of_lt hj h)) ⟨rest, asked ++ [i + 2]⟩ := by
  rw [IndexSource.exchange_succ, draw_cons hj]

/-- A written pick says which item its position has at the end. -/
theorem getElem_exchange_cons {n i j : Nat} (h : i + 1 < n) (items : Vector α n) (hj : j ≤ i + 1)
    (hjn : j < n) (rest asked : List Nat) :
    (source.exchange (i + 1) h items ⟨j :: rest, asked⟩).1[i + 1] = items[j] := by
  rw [source.getElem_exchange_succ h, draw_cons hj]
  rfl

/-- From the order that different items have after exchanges the picks can be read off. -/
theorem exchange_injective {n i : Nat} (h : i < n) {items : Vector α n}
    (hitems : items.toList.Nodup) {picks picks' asked asked' : List Nat}
    (hpicks : IsPicks (i + 1) picks) (hpicks' : IsPicks (i + 1) picks')
    (he : (source.exchange i h items ⟨picks, asked⟩).1 =
      (source.exchange i h items ⟨picks', asked'⟩).1) : picks = picks' := by
  induction i generalizing items picks picks' asked asked' with
  | zero => rw [isPicks_one_iff.mp hpicks, isPicks_one_iff.mp hpicks']
  | succ i ih =>
    obtain ⟨j, rest, rfl, hj, hrest⟩ := hpicks.exists_cons
    obtain ⟨j', rest', rfl, hj', hrest'⟩ := hpicks'.exists_cons
    have hjn : j < n := Nat.lt_of_le_of_lt hj h
    have hjn' : j' < n := Nat.lt_of_le_of_lt hj' h
    -- The items at the last of the positions differ unless the picks for it are the same.
    have hlast : items[j] = items[j'] := by
      rw [← getElem_exchange_cons h items hj hjn rest asked,
        ← getElem_exchange_cons h items hj' hjn' rest' asked', he]
    obtain rfl : j = j' := by
      have hlength : items.toList.length = n := Vector.length_toList
      have hlist : items.toList[j] = items.toList[j'] := by
        rw [Vector.getElem_toList, Vector.getElem_toList, hlast]
      exact hitems.getElem_inj_iff.mp hlist
    rw [exchange_cons h items hj, exchange_cons h items hj] at he
    have hswapped : (items.swap (i + 1) j h hjn).toList.Nodup :=
      (Vector.swap_perm h hjn).toList.nodup_iff.mpr hitems
    rw [ih (Nat.lt_of_succ_lt h) hswapped hrest hrest' he]

theorem shuffle_injective {items : List α} (hitems : items.Nodup) {picks picks' : List Nat}
    (hpicks : IsPicks items.length picks) (hpicks' : IsPicks items.length picks')
    (he : (source.shuffle items { picks }).1 = (source.shuffle items { picks := picks' }).1) :
    picks = picks' := by
  cases items with
  | nil =>
    rw [List.eq_nil_of_length_eq_zero hpicks.length_eq,
      List.eq_nil_of_length_eq_zero hpicks'.length_eq]
  | cons item items =>
    have hnodup : (item :: items).toArray.toVector.toList.Nodup := hitems
    exact exchange_injective (Nat.lt_succ_self items.length) hnodup hpicks hpicks'
      (Vector.toList_inj.mp he)

end Script

end Redraw
