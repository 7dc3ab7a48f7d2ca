import Redraw.Generator.Operation

/-!
# What operations cost

Whatever an operation asks of a generator, it takes a number of raw draws that is known beforehand:
what is drawn decides about values only. So the generator after an operation is the one after as
many raw draws.
-/

namespace Redraw

/-- A draw that is not refused hands its value and the generator on. -/
theorem Draw.run_bind {α β : Type} {draw : Draw α} {next : α → Draw β} {value : α}
    {g after : Generator} (h : draw.run.run g = (.ok value, after)) :
    (draw >>= next).run.run g = (next value).run.run after := by
  rw [ExceptT.run_bind, StateT.run_bind, h]
  rfl

namespace Generator

variable {α β : Type}

theorem skip_add (m n : Nat) (g : Generator) : g.skip (m + n) = (g.skip m).skip n := by
  have htwister : ∀ t : Twister, t.skip (m + n) = (t.skip m).skip n := by
    induction m with
    | zero => intro t; rw [Nat.zero_add]; rfl
    | succ m ih => intro t; rw [Nat.add_right_comm]; exact ih t.next.2
  exact congrArg (Generator.mk g.seed) (htwister g.twister)

/-- A draw that takes `n` raw draws, whatever it is run on. -/
def Costs (draw : StateM Generator α) (n : Nat) : Prop :=
  ∀ g, (draw.run g).2 = g.skip n

theorem costs_pure (value : α) : Costs (pure value) 0 :=
  fun _ => rfl

theorem Costs.bind {draw : StateM Generator α} {next : α → StateM Generator β} {m n : Nat}
    (h : Costs draw m) (h' : ∀ value, Costs (next value) n) : Costs (draw >>= next) (m + n) := by
  intro g
  rw [skip_add, ← h g]
  exact h' _ _

theorem costs_raw : Costs raw 1 :=
  fun _ => rfl

/-- A zero bound is refused before anything is drawn, and no other bound is refused. -/
theorem below_run (bound : UInt32) (g : Generator) :
    (below bound).run.run g = if bound = 0 then (.error .zeroBound, g)
      else (.ok (g.twister.next.1 % bound.toUInt64).toUInt32, g.skip 1) := by
  by_cases hb : bound = 0
  · rw [if_pos hb, below, if_pos hb]
    rfl
  · have hwide : bound.toUInt64 ≠ 0 := by
      intro h
      exact hb (UInt32.toNat_inj.mp (by simpa using congrArg UInt64.toNat h))
    simp only [below, Reduction.below, hb, hwide, if_false]
    rfl

theorem costs_below (bound : UInt32) : Costs (below bound).run (if bound = 0 then 0 else 1) := by
  intro g
  rw [below_run]
  split <;> rfl

theorem costs_position (bound : UInt64) : Costs (position bound).run 1 := by
  exact fun _ => rfl

theorem costs_wholeWords (n : Nat) : Costs (wholeWords n) n := by
  induction n with
  | zero => exact costs_pure []
  | succ n ih =>
    have h : Costs (wholeWords (n + 1)) (1 + (n + 0)) :=
      costs_raw.bind fun _ => ih.bind fun _ => costs_pure _
    rwa [Nat.add_zero n, Nat.add_comm 1 n] at h

theorem costs_lastBytes (n : Nat) : Costs (lastBytes n) (if n = 0 then 0 else 1) := by
  unfold lastBytes
  by_cases hn : n = 0
  · rw [if_pos hn, if_pos hn]
    exact costs_pure _
  · rw [if_neg hn, if_neg hn]
    by_cases hfour : n ≤ 4
    · rw [if_pos hfour]
      exact (costs_raw.bind fun _ => costs_pure _).bind fun _ => costs_pure _
    · rw [if_neg hfour]
      exact costs_raw.bind fun _ => costs_pure _

/-- Bytes cost a raw draw for every eight of them, and one for a rest. -/
theorem costs_fill (n : Nat) : Costs (fill n) ((n + 7) / 8) := by
  have hcost : (n + 7) / 8 = n / 8 + ((if n % 8 = 0 then 0 else 1) + 0) := by
    split <;> omega
  rw [hcost]
  exact (costs_wholeWords _).bind fun _ => (costs_lastBytes _).bind fun _ => costs_pure _

/-- Drawing bytes costs no more when it might be refused. -/
theorem costs_tryFill (n : Nat) : Costs (tryFill n : Draw Bytes).run ((n + 7) / 8) :=
  (costs_fill n).bind fun _ => costs_pure _

/-- Exchanging every position but the first costs a raw draw for each of them. -/
theorem exchange_snd {n i : Nat} (h : i < n) (items : Vector α n) (g : Generator) :
    (positions.exchange i h items g).2 = g.skip i := by
  induction i generalizing items g with
  | zero => rfl
  | succ i ih => exact ih (Nat.lt_of_succ_lt h) _ (g.skip 1)

/-- A shuffle costs a raw draw for every item but one. -/
theorem shuffle_snd (items : List α) (g : Generator) :
    (g.shuffle items).2 = g.skip (items.length - 1) := by
  have hvector : ∀ {n : Nat} (items : Vector α n),
      (positions.shuffleVector items g).2 = g.skip (n - 1) := by
    intro n items
    cases n with
    | zero => rfl
    | succ n => exact exchange_snd _ items g
  exact hvector items.toArray.toVector

/-- A selection costs as much as a shuffle, unless nothing or too much is asked for. -/
theorem sample_snd (population : List α) (n : Nat) (g : Generator) :
    (g.sample population n).2 = g.skip (Operation.sampleCost population.length n) := by
  unfold sample IndexSource.sample Operation.sampleCost
  by_cases hn : n = 0
  · rw [if_pos hn, if_pos (Or.inl hn)]
    rfl
  · rw [if_neg hn]
    by_cases hshort : population.length < n
    · rw [if_pos hshort, if_pos (Or.inr hshort)]
      rfl
    · rw [if_neg hshort, if_neg (by simp only [hn, hshort, or_self, not_false_iff])]
      exact shuffle_snd population g

theorem sampleInto_snd (population choices : List α) (g : Generator) :
    (g.sampleInto population choices).2 =
      g.skip (Operation.sampleCost population.length choices.length) := by
  rw [← sample_snd]
  unfold sampleInto IndexSource.sampleInto sample
  split <;> rename_i h <;> rw [h]

/-- Repeating a draw that takes one raw draw and is not refused gives its values in a row. -/
theorem repeated_run {α : Type} {draw : Draw α} {value : Generator → α}
    (h : ∀ g, draw.run.run g = (.ok (value g), g.skip 1)) (n : Nat) (g : Generator) :
    (repeated draw n).run.run g =
      (.ok ((List.range n).map fun i => value (g.skip i)), g.skip n) := by
  induction n generalizing g with
  | zero => rfl
  | succ n ih =>
    have hvalues : (List.range (n + 1)).map (fun i => value (g.skip i)) =
        value g :: (List.range n).map fun i => value ((g.skip 1).skip i) := by
      rw [List.range_succ_eq_map, List.map_cons, List.map_map]
      rfl
    rw [repeated, Draw.run_bind (h g), Draw.run_bind (ih (g.skip 1)), hvalues]
    rfl

theorem costs_repeated_next32 (n : Nat) : Costs (repeated next32 n) n := by
  induction n with
  | zero => exact costs_pure []
  | succ n ih =>
    have hnext : Costs next32 1 := fun _ => rfl
    have h : Costs (repeated next32 (n + 1)) (1 + (n + 0)) :=
      hnext.bind fun _ => ih.bind fun _ => costs_pure _
    rwa [Nat.add_zero n, Nat.add_comm 1 n] at h

end Generator

namespace Operation

variable {α : Type}

/-- The generator after an operation is the one after as many raw draws as the operation costs,
provided that reloading changes nothing. -/
theorem apply_eq_skip (g : Generator) (operation : Operation α)
    (hreload : apply g (reload : Operation α) = g) :
    apply g operation = g.skip operation.cost := by
  cases operation with
  | below bound => exact Generator.costs_below bound g
  | asFunction bound => exact Generator.costs_below bound g
  | position bound => exact Generator.costs_position bound g
  | fill n => exact Generator.costs_fill n g
  | tryFill n => exact Generator.costs_tryFill n g
  | shuffle items => exact Generator.shuffle_snd items g
  | sample population n => exact Generator.sample_snd population n g
  | sampleInto population choices => exact Generator.sampleInto_snd population choices g
  | reload => exact hreload
  | next32 | lowHalf | raw | real | save | toJson | checkpoint | copy | compare => rfl

end Operation

end Redraw
