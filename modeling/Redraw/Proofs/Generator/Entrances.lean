import Redraw.Proofs.Reduction.Bias
import Redraw.Proofs.Twister.Recurrence

/-!
# Ways to ask for a bounded integer

A generator is asked for a bounded integer directly, as a function, or for a position. All ways give
the remainder of one raw draw and refuse a zero bound, so that a row of requests gives the same
integers and the same refusal whichever ways are taken. But a refused position has spent a raw draw,
and the other ways have not: only rows without a zero bound leave the same generator.
-/

namespace Redraw

theorem Twister.index_next_ne (t : Twister) : t.next.2.index ≠ t.index := by
  by_cases hi : t.index < blockSize
  · rw [snd_next_of_lt hi]
    exact Nat.succ_ne_self _
  · have hfull := index_eq_of_not_lt hi
    rw [snd_next_of_eq hfull, hfull]
    exact Nat.succ_ne_succ_iff.mpr (by decide)

namespace Generator

/-- A raw draw always makes a difference. -/
theorem skip_succ_ne (n : ℕ) (g : Generator) : g.skip (n + 1) ≠ g.skip n := by
  intro h
  rw [skip_add] at h
  exact (g.skip n).twister.index_next_ne (congrArg (fun g => g.twister.index) h)

/-- The ways to ask for a bounded integer. -/
inductive Entrance where
  /-- Directly. -/
  | below
  /-- By way of the generator as a function. -/
  | asFunction
  /-- As a position. -/
  | position
  deriving DecidableEq, Repr

namespace Entrance

/-- An integer below a 32-bit bound. -/
def draw : Entrance → UInt32 → Draw UInt64
  | below, bound => return (← Generator.below bound).toUInt64
  | asFunction, bound => return (← asBoundedFunction bound).toUInt64
  | position, bound => Generator.position bound.toUInt64

/-- The raw draws that are spent on a request that is refused. -/
def spent : Entrance → ℕ
  | below | asFunction => 0
  | position => 1

/-- Whichever way is taken, a bounded integer is the remainder of a raw draw, and a zero bound is
refused. -/
theorem draw_run (entrance : Entrance) (bound : UInt32) (g : Generator) :
    (entrance.draw bound).run.run g =
      if bound = 0 then (.error .zeroBound, g.skip entrance.spent)
      else (.ok (g.twister.next.1 % bound.toUInt64), g.skip 1) := by
  by_cases hzero : bound = 0
  · subst hzero
    cases entrance <;> rfl
  have hpos : 0 < bound := UInt32.pos_iff_ne_zero.mpr hzero
  have hbelow := below_run bound g
  rw [if_neg hzero] at hbelow ⊢
  cases entrance with
  | below | asFunction =>
    refine (Draw.run_bind hbelow).trans ?_
    rw [Reduction.toUInt64_toUInt32_mod _ hpos]
    rfl
  | position =>
    have hwide : 0 < bound.toUInt64 := Reduction.toUInt64_pos hpos
    change (Reduction.below g.twister.next.1 bound.toUInt64, g.skip 1) = _
    rw [Reduction.below_of_pos hwide]

end Entrance

/-- Asks for integers one after the other, until a request is refused: the integers, the refusal if
there is one, and the generator that is left. -/
def ask : List (Entrance × UInt32) → Generator → (List UInt64 × Option DrawFault) × Generator
  | [], g => (([], none), g)
  | (entrance, bound) :: requests, g =>
    match (entrance.draw bound).run.run g with
    | (.ok value, g) =>
      let ((values, fault), g) := ask requests g
      ((value :: values, fault), g)
    | (.error fault, g) => (([], some fault), g)

/-- The remainders of the next raw draws. -/
def remainders : List UInt32 → Generator → List UInt64
  | [], _ => []
  | bound :: bounds, g => g.twister.next.1 % bound.toUInt64 :: remainders bounds (g.skip 1)

/-- The bounds that are not refused: those before the first zero. -/
def granted (bounds : List UInt32) : List UInt32 :=
  bounds.takeWhile (· ≠ 0)

/-- The raw draws that are spent on the request that is refused, if there is one. -/
def lost (requests : List (Entrance × UInt32)) : ℕ :=
  (requests.find? (·.2 = 0)).elim 0 (·.1.spent)

variable {requests : List (Entrance × UInt32)} {bounds : List UInt32} {bound : UInt32}

theorem granted_cons_of_ne (h : bound ≠ 0) : granted (bound :: bounds) = bound :: granted bounds :=
  List.takeWhile_cons_of_pos (decide_eq_true h)

theorem lost_cons_of_ne (h : bound ≠ 0) (entrance : Entrance) :
    lost ((entrance, bound) :: requests) = lost requests := by
  have hfind : ((entrance, bound) :: requests).find? (·.2 = 0) = requests.find? (·.2 = 0) :=
    List.find?_cons_of_neg (by simpa using h)
  rw [lost, hfind, lost]

/-- A row of requests gives the remainders of raw draws up to the first zero bound. -/
theorem ask_eq (requests : List (Entrance × UInt32)) (g : Generator) :
    ask requests g = ((remainders (granted (requests.map Prod.snd)) g,
      if 0 ∈ requests.map Prod.snd then some .zeroBound else none),
        g.skip ((granted (requests.map Prod.snd)).length + lost requests)) := by
  induction requests generalizing g with
  | nil => rfl
  | cons request requests ih =>
    obtain ⟨entrance, bound⟩ := request
    have hdraw := entrance.draw_run bound g
    rw [List.map_cons]
    by_cases hzero : bound = 0
    · subst hzero
      have hlost : (granted (0 :: requests.map Prod.snd)).length +
          lost ((entrance, 0) :: requests) = entrance.spent := Nat.zero_add _
      rw [if_pos rfl] at hdraw
      rw [ask, hdraw, hlost, if_pos List.mem_cons_self]
      rfl
    · have hmem : 0 ∈ bound :: requests.map Prod.snd ↔ 0 ∈ requests.map Prod.snd :=
        List.mem_cons.trans (or_iff_right (Ne.symm hzero))
      have hlost : (granted (bound :: requests.map Prod.snd)).length +
          lost ((entrance, bound) :: requests) =
            1 + ((granted (requests.map Prod.snd)).length + lost requests) := by
        rw [granted_cons_of_ne hzero, lost_cons_of_ne hzero, List.length_cons]
        omega
      rw [if_neg hzero] at hdraw
      rw [hlost, skip_add]
      simp only [ask, hdraw, ih, hmem, granted_cons_of_ne hzero, remainders]

/-- Without a zero bound nothing is lost. -/
theorem lost_of_notMem (h : 0 ∉ requests.map Prod.snd) : lost requests = 0 := by
  have hnone : requests.find? (·.2 = 0) = none := by
    rw [List.find?_eq_none]
    intro request hrequest hzero
    exact h (List.mem_map.mpr ⟨request, hrequest, of_decide_eq_true hzero⟩)
  rw [lost, hnone]
  rfl

/-- Only positions lose a raw draw. -/
theorem lost_of_forall_ne (h : ∀ request ∈ requests, request.1 ≠ .position) :
    lost requests = 0 := by
  unfold lost
  cases hrefused : requests.find? (·.2 = 0) with
  | none => rfl
  | some request =>
    obtain ⟨entrance, bound⟩ := request
    have hne := h _ (List.mem_of_find?_eq_some hrefused)
    cases entrance with
    | below | asFunction => rfl
    | position => exact absurd rfl hne

/-- Of requests for positions alone, the first with a zero bound loses a raw draw. -/
theorem lost_positions (h : 0 ∈ bounds) : lost (bounds.map (Entrance.position, ·)) = 1 := by
  induction bounds with
  | nil => exact absurd h List.not_mem_nil
  | cons bound bounds ih =>
    by_cases hzero : bound = 0
    · subst hzero
      rfl
    · rw [List.map_cons, lost_cons_of_ne hzero]
      exact ih ((List.mem_cons.mp h).resolve_left (Ne.symm hzero))

theorem map_snd_alone (entrance : Entrance) (bounds : List UInt32) :
    (bounds.map (entrance, ·)).map Prod.snd = bounds := by
  rw [List.map_map]
  exact List.map_id bounds

/-- If no position is asked for, the generator is left behind as many raw draws as integers. -/
theorem snd_ask_of_forall_ne (hbounds : requests.map Prod.snd = bounds)
    (h : ∀ request ∈ requests, request.1 ≠ .position) (g : Generator) :
    (ask requests g).2 = g.skip (granted bounds).length := by
  rw [ask_eq, lost_of_forall_ne h, hbounds]
  rfl

/-- If positions are asked for, the generator is left one raw draw behind that. -/
theorem snd_ask_positions (h : 0 ∈ bounds) (g : Generator) :
    (ask (bounds.map (Entrance.position, ·)) g).2 = g.skip ((granted bounds).length + 1) := by
  rw [ask_eq, lost_positions h, map_snd_alone]

/-- Bounded integers are the same remainders of raw draws, and the first zero bound is refused in
the same words, whichever ways they are asked for. Unless positions are asked for, the generator
that is left is the one behind as many raw draws as there are integers. But a refused position has
spent one more: so all ways leave the same generator exactly if there is no zero bound. -/
theorem ask_interchangeable (bounds : List UInt32) (g : Generator) :
    (∀ requests, requests.map Prod.snd = bounds →
      (ask requests g).1 = (remainders (granted bounds) g,
        if 0 ∈ bounds then some .zeroBound else none) ∧
      (ask requests g).2 = g.skip ((granted bounds).length + lost requests) ∧
      ((∀ request ∈ requests, request.1 ≠ .position) →
        (ask requests g).2 = g.skip (granted bounds).length)) ∧
    (0 ∈ bounds → (ask (bounds.map (Entrance.position, ·)) g).2 =
      g.skip ((granted bounds).length + 1)) ∧
    ((∀ requests others, requests.map Prod.snd = bounds → others.map Prod.snd = bounds →
      ask requests g = ask others g) ↔ 0 ∉ bounds) ∧
    DrawFault.zeroBound.message = "max must be greater than zero" := by
  refine ⟨?_, fun hzero => snd_ask_positions hzero g, ⟨?_, ?_⟩, rfl⟩
  · rintro requests rfl
    rw [ask_eq]
    refine ⟨rfl, rfl, fun hways => ?_⟩
    rw [lost_of_forall_ne hways]
    rfl
  · intro hall hzero
    -- Requests for positions leave the generator one raw draw behind the one that others leave.
    have hsame := hall _ _ (map_snd_alone .position bounds) (map_snd_alone .below bounds)
    have hbelow : ∀ request ∈ bounds.map (Entrance.below, ·), request.1 ≠ .position := by
      intro request hrequest
      obtain ⟨bound, _, rfl⟩ := List.mem_map.mp hrequest
      exact Entrance.noConfusion
    have hgenerator := congrArg Prod.snd hsame
    rw [snd_ask_positions hzero, snd_ask_of_forall_ne (map_snd_alone .below bounds) hbelow]
      at hgenerator
    exact skip_succ_ne _ g hgenerator
  · rintro hzero requests others rfl hothers
    have hlost : lost others = 0 := lost_of_notMem (hothers ▸ hzero)
    rw [ask_eq, ask_eq, hothers, hlost, lost_of_notMem hzero]

/-- Of the bounds six, zero and three only the first is granted, and a refused position spends a
second raw draw. -/
theorem ask_interchangeable_three :
    ([(Entrance.below, (6 : UInt32)), (.asFunction, 0), (.below, 3)].map Prod.snd = [6, 0, 3] ∧
      (∀ request ∈ [(Entrance.below, (6 : UInt32)), (.asFunction, 0), (.below, 3)],
        request.1 ≠ .position) ∧ (0 : UInt32) ∈ [6, 0, 3]) ∧
    (ask [(.below, 6), (.asFunction, 0), (.below, 3)] (ofSeed 5)).2 = (ofSeed 5).skip 1 ∧
    (ask [(.position, 6), (.position, 0), (.position, 3)] (ofSeed 5)).2 = (ofSeed 5).skip 2 := by
  have hrequests : [(Entrance.below, (6 : UInt32)), (.asFunction, 0), (.below, 3)].map Prod.snd =
      [6, 0, 3] := rfl
  have hways : ∀ request ∈ [(Entrance.below, (6 : UInt32)), (.asFunction, 0), (.below, 3)],
      request.1 ≠ .position := by decide
  have hzero : (0 : UInt32) ∈ [6, 0, 3] := by decide
  obtain ⟨hall, hpositions, _⟩ := ask_interchangeable [6, 0, 3] (ofSeed 5)
  exact ⟨⟨hrequests, hways, hzero⟩, (hall _ hrequests).2.2 hways, hpositions hzero⟩

/-- Asked for integers below five and below zero, a generator gives one and refuses the other either
way; but it is left behind one raw draw when it is asked directly, and behind two when it is asked
for positions. -/
theorem ask_five_zero_differs :
    (ask [(.position, 5), (.position, 0)] (ofSeed 7)).1 =
      (ask [(.below, 5), (.below, 0)] (ofSeed 7)).1 ∧
    (ask [(.below, 5), (.below, 0)] (ofSeed 7)).2 = (ofSeed 7).skip 1 ∧
    (ask [(.position, 5), (.position, 0)] (ofSeed 7)).2 = (ofSeed 7).skip 2 ∧
    ask [(.position, 5), (.position, 0)] (ofSeed 7) ≠
      ask [(.below, 5), (.below, 0)] (ofSeed 7) := by
  have hbelow : (ask [(.below, 5), (.below, 0)] (ofSeed 7)).2 = (ofSeed 7).skip 1 :=
    snd_ask_of_forall_ne (show _ = [5, 0] from rfl) (by decide) _
  have hpositions : (ask [(.position, 5), (.position, 0)] (ofSeed 7)).2 = (ofSeed 7).skip 2 :=
    snd_ask_positions (show 0 ∈ [5, 0] by decide) _
  refine ⟨?_, hbelow, hpositions, fun hsame => ?_⟩
  · rw [ask_eq, ask_eq]
    rfl
  · have hgenerator := congrArg Prod.snd hsame
    rw [hpositions, hbelow] at hgenerator
    exact skip_succ_ne 1 _ hgenerator

end Generator

end Redraw
