import Redraw.Proofs.Dynamic.Selection
import Redraw.Proofs.Generator.Lookups

/-!
# Lists of anything, with lookups

A list of anything is shuffled or sampled by numbers that stand for its positions. Here these are
mere numbers, and each of them is looked up in the list. As they are drawn from the numbers of the
list's own positions, every one of them is found.
-/

namespace Redraw

namespace Checked

variable {α : Type}

/-- The item at a position, which must be there. -/
def lookup (items : Array α) (i : Nat) : Checked α :=
  if h : i < items.size then return items[i] else failure

/-- Overwrites the item at a position, which must be there. -/
def overwrite (items : Array α) (i : Nat) (item : α) : Checked (Array α) :=
  if h : i < items.size then return items.set i item else failure

/-- Overwrites the positions from `i` on, each by the item of the originals at the next position. -/
def place (originals : Array α) : (i : Nat) → (order : List Nat) → Array α → Checked (Array α)
  | _, [], written => return written
  | i, j :: order, written => do
    let item ← lookup originals j
    place originals (i + 1) order (← overwrite written i item)

/-- Puts the items of a list in random order. -/
def shuffleList (items : List α) : Checked (List α) := do
  let order ← shuffle (List.range items.length)
  return (← place items.toArray 0 order items.toArray).toList

/-- A random selection of items of a list in random order. -/
def sampleList (population : List α) (n : Nat) : Checked (Except Shortage (List α)) := do
  match ← sample (List.range population.length) n with
  | .ok picked => return .ok (← picked.mapM (lookup population.toArray))
  | .error shortage => return .error shortage

theorem lookup_val (items : List α) (i : Fin items.length) :
    lookup items.toArray i = pure (items.get i) := by
  have hi : i.val < items.toArray.size := by
    rw [List.size_toArray]
    exact i.isLt
  rw [lookup, dif_pos hi]
  rfl

theorem mapM_lookup (items : List α) (picked : List (Fin items.length)) :
    (picked.map Fin.val).mapM (lookup items.toArray) = pure (picked.map items.get) := by
  induction picked with
  | nil => rfl
  | cons i picked ih =>
    simp only [List.map_cons, List.mapM_cons, lookup_val, ih, pure_bind]

/-- The items behind a position are overwritten in their order. -/
theorem place_eq (originals : List α) (order : List (Fin originals.length)) {i : Nat}
    {written : Array α} (h : i + order.length = written.size) :
    place originals.toArray i (order.map Fin.val) written =
      pure (written.toList.take i ++ order.map originals.get).toArray := by
  induction order generalizing i written with
  | nil =>
    have hwhole : written.toList.take i = written.toList :=
      List.take_of_length_le (by rw [Array.length_toList, ← h]; exact Nat.le_refl _)
    rw [List.map_nil, List.map_nil, List.append_nil, place, hwhole]
  | cons j order ih =>
    rw [List.length_cons] at h
    have hi : i < written.size := by omega
    have hnext : i + 1 + order.length = (written.set i (originals.get j)).size := by
      rw [Array.size_set]
      omega
    have htake : (written.set i (originals.get j)).toList.take (i + 1) =
        written.toList.take i ++ [originals.get j] := by
      have hi' : i < (written.toList.set i (originals.get j)).length := by
        rwa [List.length_set, Array.length_toList]
      rw [Array.toList_set, List.take_succ_eq_append_getElem hi', List.getElem_set_self,
        List.take_set_of_le (Nat.le_refl i)]
    rw [List.map_cons, place, lookup_val, pure_bind, overwrite, dif_pos hi, pure_bind, ih hnext,
      htake, List.append_assoc]
    rfl

/-- Shuffling numbers is shuffling the positions that they stand for. -/
theorem shuffle_range_run (n : Nat) (g : Generator) :
    (shuffle (List.range n)).run g.tape =
      some ((g.shuffle (List.finRange n)).1.map Fin.val,
        (g.shuffle (List.finRange n)).2.tape) := by
  have hshuffle := Generator.positions.shuffle_map Fin.val (List.finRange n) g
  rw [List.map_coe_finRange_eq_range] at hshuffle
  exact (realizes_shuffle _ g).trans (congrArg (fun p => some (p.1, p.2.tape)) hshuffle)

theorem sample_range_run (n choices : Nat) (g : Generator) :
    (sample (List.range n) choices).run g.tape =
      some ((g.sample (List.finRange n) choices).1.map (List.map Fin.val),
        (g.sample (List.finRange n) choices).2.tape) := by
  have hsample := Generator.positions.sample_map Fin.val (List.finRange n) choices g
  rw [List.map_coe_finRange_eq_range] at hsample
  exact (realizes_sample _ choices g).trans (congrArg (fun p => some (p.1, p.2.tape)) hsample)

theorem realizes_shuffleList (items : List α) :
    Realizes (shuffleList items) (Generator.shuffle items) := by
  intro g
  have hlength : 0 + (g.shuffle (List.finRange items.length)).1.length = items.toArray.size := by
    have hperm := Generator.positions.shuffle_perm (List.finRange items.length) g
    rw [Nat.zero_add, List.size_toArray]
    exact hperm.length_eq.trans List.length_finRange
  change _ = some ((g.shuffle items).1, (g.shuffle items).2.tape)
  rw [Dynamic.shuffle_eq items, shuffleList, StateT.run_bind, shuffle_range_run]
  simp only [Option.bind_eq_bind, Option.bind_some, place_eq items _ hlength, pure_bind]
  rfl

theorem realizes_sampleList (population : List α) (n : Nat) :
    Realizes (sampleList population n) (Generator.sample population n) := by
  intro g
  change _ = some ((g.sample population n).1, (g.sample population n).2.tape)
  rw [Dynamic.sample_eq population, sampleList, StateT.run_bind, sample_range_run]
  rcases g.sample (List.finRange population.length) n with ⟨shortage | picked, after⟩
  · rfl
  · simp only [Option.bind_eq_bind, Option.bind_some, Except.map, mapM_lookup, pure_bind]
    rfl

end Checked

end Redraw
