import Mathlib
import Redraw.Proofs.Sampling.Picks

/-!
# Fairness by counting

There are as many picks for a shuffle as there are orders of the items, and different picks lead to
different orders. So each order comes from picks of its own, and a selection comes from as many
picks as there are orders of the items that are not selected.
-/

namespace Redraw.Script

open scoped Nat

variable {α : Type u}

/-- A pick for the last position, in front of the picks for the others. -/
def consPick (i : Nat) (p : Fin (i + 2) × {picks // IsPicks (i + 1) picks}) :
    {picks // IsPicks (i + 2) picks} :=
  ⟨p.1 :: p.2.val, isPicks_cons_iff.mpr ⟨Nat.le_of_lt_succ p.1.isLt, p.2.property⟩⟩

theorem consPick_bijective (i : Nat) : Function.Bijective (consPick i) := by
  constructor
  · rintro ⟨j, rest⟩ ⟨j', rest'⟩ he
    obtain ⟨hj, hrest⟩ := List.cons.inj (Subtype.ext_iff.mp he)
    exact Prod.ext (Fin.ext hj) (Subtype.ext hrest)
  · rintro ⟨picks, hpicks⟩
    obtain ⟨j, rest, rfl, hj, hrest⟩ := hpicks.exists_cons
    exact ⟨(⟨j, Nat.lt_succ_of_le hj⟩, ⟨rest, hrest⟩), rfl⟩

theorem card_picks_succ (i : Nat) : Nat.card {picks // IsPicks (i + 1) picks} = (i + 1)! := by
  induction i with
  | zero =>
    have hunique : Nat.card {picks : List Nat // picks = []} = 1 := Nat.card_unique
    exact (Nat.card_congr (Equiv.subtypeEquivRight fun _ => isPicks_one_iff)).trans hunique
  | succ i ih =>
    rw [← Nat.card_eq_of_bijective _ (consPick_bijective i), Nat.card_prod, Nat.card_fin, ih,
      Nat.factorial_succ (i + 1)]

/-- There are as many picks as orders. -/
theorem card_picks (length : Nat) : Nat.card {picks // IsPicks length picks} = length ! := by
  cases length with
  | zero =>
    have hsame : ∀ picks, IsPicks 0 picks ↔ IsPicks 1 picks := fun picks =>
      ⟨fun h => ⟨h.length_eq, h.le⟩, fun h => ⟨h.length_eq, h.le⟩⟩
    exact (Nat.card_congr (Equiv.subtypeEquivRight hsame)).trans (card_picks_succ 0)
  | succ i => exact card_picks_succ i

theorem card_orders {items : List α} (h : items.Nodup) :
    Nat.card {order : List α // order.Perm items} = items.length ! := by
  classical
  have hmem : ∀ order, order ∈ items.permutations.toFinset ↔ order.Perm items := fun order => by
    rw [List.mem_toFinset, List.mem_permutations]
  rw [Nat.subtype_card _ hmem, List.toFinset_card_of_nodup (List.nodup_permutations items h),
    List.length_permutations]

/-- The order that picks put items in. -/
def arranged (items : List α) (picks : {picks // IsPicks items.length picks}) :
    {order : List α // order.Perm items} :=
  ⟨(source.shuffle items { picks := picks.val }).1, source.shuffle_perm items _⟩

/-- Every order of different items comes from picks of its own. -/
theorem arranged_bijective {items : List α} (h : items.Nodup) :
    Function.Bijective (arranged items) := by
  have hcard : Nat.card {order : List α // order.Perm items} ≠ 0 := by
    rw [card_orders h]
    exact Nat.factorial_ne_zero _
  have : Finite {order : List α // order.Perm items} := Nat.finite_of_card_ne_zero hcard
  have hinjective : Function.Injective (arranged items) := fun picks picks' he =>
    Subtype.ext (shuffle_injective h picks.property picks'.property (Subtype.ext_iff.mp he))
  exact hinjective.bijective_of_nat_card_le (by rw [card_orders h, card_picks])

theorem append_drop_of_take {front order : List α} (h : order.take front.length = front) :
    front ++ order.drop front.length = order :=
  List.prefix_iff_eq_append.mp (List.prefix_iff_eq_take.mpr h.symm)

/-- Orders that start alike are orders of what comes behind. -/
def behind (front rest : List α) : {order : List α // order.Perm rest} ≃
    {order : List α // order.Perm (front ++ rest) ∧ order.take front.length = front} where
  toFun order := ⟨front ++ order.val, (List.perm_append_left_iff front).mpr order.property,
    List.take_left⟩
  invFun order := ⟨order.val.drop front.length, by
    obtain ⟨order, hperm, htake⟩ := order
    rwa [← append_drop_of_take htake, List.perm_append_left_iff] at hperm⟩
  left_inv order := Subtype.ext List.drop_left
  right_inv order := Subtype.ext (append_drop_of_take order.property.2)

/-- There are as many orders that start with given items as there are orders of the others. -/
theorem card_orders_take {population front : List α} (hpopulation : population.Nodup)
    (hfront : front.Nodup) (hsub : front ⊆ population) :
    Nat.card {order : List α // order.Perm population ∧ order.take front.length = front} =
      (population.length - front.length)! := by
  obtain ⟨front', hperm, hsublist⟩ := List.subperm_of_subset hfront hsub
  obtain ⟨rest, hrest⟩ := hsublist.exists_perm_append
  have hall : population.Perm (front ++ rest) := hrest.trans (hperm.append_right rest)
  have hnodup : rest.Nodup := (List.nodup_append.mp (hall.nodup_iff.mp hpopulation)).2.1
  have hlength : rest.length = population.length - front.length := by
    rw [hall.length_eq, List.length_append, Nat.add_sub_cancel_left]
  have hsame : ∀ order : List α, order.Perm population ↔ order.Perm (front ++ rest) := fun order =>
    ⟨fun h => h.trans hall, fun h => h.trans hall.symm⟩
  simp only [hsame]
  rw [← Nat.card_congr (behind front rest), card_orders hnodup, hlength]

/-- Picks whose order starts with given items are as many as those orders. -/
theorem card_picks_take {population : List α} (hpopulation : population.Nodup) (front : List α) :
    Nat.card {picks // IsPicks population.length picks ∧
      (source.shuffle population { picks }).1.take front.length = front} =
        Nat.card {order : List α // order.Perm population ∧ order.take front.length = front} := by
  let order := Equiv.ofBijective _ (arranged_bijective hpopulation)
  let starts (order : List α) : Prop := order.take front.length = front
  let fits (picks : List Nat) : Prop := starts (source.shuffle population { picks }).1
  calc Nat.card {picks // IsPicks population.length picks ∧ fits picks}
      = Nat.card {p : {picks // IsPicks population.length picks} // fits p.val} :=
        Nat.card_congr (Equiv.subtypeSubtypeEquivSubtypeInter _ fits).symm
    _ = Nat.card {o : {order : List α // order.Perm population} // starts o.val} :=
        Nat.card_congr (order.subtypeEquiv fun _ => Iff.rfl)
    _ = Nat.card {order : List α // order.Perm population ∧ starts order} :=
        Nat.card_congr (Equiv.subtypeSubtypeEquivSubtypeInter _ starts)

/-- Each order of different items comes from one sequence of picks alone. -/
theorem existsUnique_picks {population order : List α} (hpopulation : population.Nodup)
    (horder : order.Perm population) : ∃! picks, IsPicks population.length picks ∧
      (source.shuffle population { picks }).1 = order := by
  obtain ⟨⟨picks, hpicks⟩, hsame⟩ := (arranged_bijective hpopulation).surjective ⟨order, horder⟩
  have hshuffle : (source.shuffle population { picks }).1 = order := Subtype.ext_iff.mp hsame
  refine ⟨picks, ⟨hpicks, hshuffle⟩, fun picks' ⟨hpicks', hshuffle'⟩ => ?_⟩
  exact shuffle_injective hpopulation hpicks' hpicks (hshuffle'.trans hshuffle.symm)

/-- Selecting from different items is fair: each arrangement of some of them comes from as many
picks as there are orders of the others, and picks can be had from any source. -/
theorem selection_fair {population arrangement : List α} (hpopulation : population.Nodup)
    (harrangement : arrangement.Nodup) (hsub : arrangement ⊆ population) :
    Nat.card {picks // IsPicks population.length picks} = population.length ! ∧
    Nat.card {picks // IsPicks population.length picks ∧
      (source.sample population arrangement.length { picks }).1 = .ok arrangement} =
        (population.length - arrangement.length)! ∧
    (arrangement.length = population.length → ∃! picks, IsPicks population.length picks ∧
      (source.shuffle population { picks }).1 = arrangement) ∧
    ∀ {σ : Type} (other : IndexSource σ) (s : σ), ∃ picks, IsPicks population.length picks ∧
      (other.shuffle population s).1 = (source.shuffle population { picks }).1 ∧
      (other.sample population arrangement.length s).1 =
        (source.sample population arrangement.length { picks }).1 := by
  have hsubperm := List.subperm_of_subset harrangement hsub
  have hlength := hsubperm.length_le
  have hsample : ∀ {σ : Type} (source : IndexSource σ) (s : σ),
      (source.sample population arrangement.length s).1 =
        .ok ((source.shuffle population s).1.take arrangement.length) :=
    fun source s => source.fst_sample_of_le hlength s
  refine ⟨card_picks _, ?_, fun hall => ?_, fun other s => ?_⟩
  · simp only [hsample, Except.ok.injEq]
    rw [card_picks_take hpopulation, card_orders_take hpopulation harrangement hsub]
  · exact existsUnique_picks hpopulation (hsubperm.perm_of_length_le hall.ge)
  · obtain ⟨picks, hpicks, hsame⟩ := other.exists_picks_shuffle population s
    exact ⟨picks, hpicks, hsame.symm, by rw [hsample, hsample, hsame]⟩

/-- Of the picks for four letters two select the last letter and, after it, the first. -/
theorem selection_fair_letters :
    (['a', 'b', 'c', 'd'].Nodup ∧ ['d', 'a'].Nodup ∧ ['d', 'a'] ⊆ ['a', 'b', 'c', 'd']) ∧
    Nat.card {picks // IsPicks 4 picks} = 24 ∧
    Nat.card {picks // IsPicks 4 picks ∧
      (source.sample ['a', 'b', 'c', 'd'] 2 { picks }).1 = .ok ['d', 'a']} = 2 := by
  have hdifferent : ['a', 'b', 'c', 'd'].Nodup ∧ ['d', 'a'].Nodup ∧
      ['d', 'a'] ⊆ ['a', 'b', 'c', 'd'] := by decide
  obtain ⟨hall, hpicked, _⟩ := selection_fair hdifferent.1 hdifferent.2.1 hdifferent.2.2
  exact ⟨hdifferent, hall, hpicked⟩

end Redraw.Script
