import Redraw.Dynamic.Generator
import Redraw.Proofs.Generator.Cost
import Redraw.Proofs.Generator.Storing
import Redraw.Proofs.Sampling.Exchange
import Redraw.Proofs.Twister.Refinement

/-!
# Draws with lookups

Here draws are made from words and an index that are not known to fit together, and items are moved
in arrays of which nothing is known. Every position is looked up before it is read or written, every
modulus is looked at before anything is divided by it, and work breaks off where the position is not
there or the modulus is zero. From a generator no draw breaks off, and it does what it does when the
types keep the positions.
-/

namespace Redraw

/-- Work with lookups on words and an index. It may break off. -/
abbrev Checked (α : Type) := StateT Tape Option α

/-- The words and the index of a generator. -/
def Generator.tape (g : Generator) : Tape :=
  .ofTwister g.twister

/-- A generator has as many words as a block holds, and its index does not lie beyond them. -/
theorem Generator.tape_fits (g : Generator) : g.tape.words.size = 312 ∧ g.tape.index ≤ 312 :=
  ⟨g.twister.block.size_toArray, g.twister.index_le⟩

/-- What is read of a generator are its words and its index. -/
theorem Snapshot.tape_eq {s : Snapshot} {g : Generator} (h : s.toGenerator? = .ok g) :
    g.tape = ⟨s.words.toArray, s.index.toNat⟩ := by
  obtain ⟨hwords, hindex, _⟩ := toGenerator?_eq_ok h
  rw [← hwords, ← hindex]
  exact congrArg (Tape.mk · _) (Array.toArray_toList).symm

namespace Checked

variable {α β : Type}

/-- One raw draw. -/
def raw : Checked UInt64 :=
  Tape.next?

/-- A remainder. The modulus must not be zero. -/
def remainder (number modulus : Nat) : Checked Nat :=
  if modulus = 0 then failure else return number % modulus

/-- An integer below a bound, which must not be zero. -/
def below (bound : UInt32) : Checked UInt32 := do
  if bound = 0 then failure
  let word ← raw
  return .ofNat (← remainder word.toNat bound.toNat)

/-- A real in [0, 1). -/
def real : Checked Float :=
  return Reduction.unit (← raw)

/-- Makes `n` draws below the greatest bound and forgets them. -/
def skip (n : Nat) : Checked Unit := do
  let _ ← Generator.repeated (below Generator.widest) n

/-- One of `n` positions. -/
def position (n : Nat) : Checked Nat := do
  let word ← raw
  remainder word.toNat n

/-- Exchanges the items at two positions, which must be there. -/
def swap (items : Array α) (i j : Nat) : Checked (Array α) :=
  if h : i < items.size ∧ j < items.size then return items.swap i j h.1 h.2 else failure

/-- Exchanges each position from `i` down to the first but one with a drawn position. -/
def exchange : Nat → Array α → Checked (Array α)
  | 0, items => return items
  | i + 1, items => do
    let j ← position (i + 2)
    exchange i (← swap items (i + 1) j)

/-- A random order of the items of a list. -/
def shuffle (items : List α) : Checked (List α) :=
  return (← exchange (items.length - 1) items.toArray).toList

/-- A random selection of `n` items in random order. -/
def sample (population : List α) (n : Nat) : Checked (Except Shortage (List α)) := do
  if n = 0 then return .ok []
  else if population.length < n then return .error ⟨n, population.length⟩
  else return .ok ((← shuffle population).take n)

/-- From the tape of a generator the work does not break off, and it gives and leaves what the draw
does. -/
def Realizes (work : Checked α) (draw : StateM Generator α) : Prop :=
  ∀ g : Generator, work.run g.tape = some ((draw.run g).1, (draw.run g).2.tape)

/-- From the tape of a generator the work does not break off, nor is the draw refused, and both give
and leave the same. -/
def Fulfils (work : Checked α) (draw : Draw α) : Prop :=
  ∀ g : Generator, ∃ value after, draw.run.run g = (.ok value, after) ∧
    work.run g.tape = some (value, after.tape)

theorem realizes_pure (value : α) : Realizes (pure value) (pure value) :=
  fun _ => rfl

theorem Realizes.bind {work : Checked α} {draw : StateM Generator α} {next : α → Checked β}
    {next' : α → StateM Generator β} (h : Realizes work draw)
    (h' : ∀ value, Realizes (next value) (next' value)) :
    Realizes (work >>= next) (draw >>= next') := by
  intro g
  rw [StateT.run_bind, h g]
  exact h' _ _

theorem Realizes.repeated {work : Checked α} {draw : StateM Generator α} (h : Realizes work draw)
    (n : Nat) : Realizes (Generator.repeated work n) (Generator.repeated draw n) := by
  induction n with
  | zero => exact realizes_pure []
  | succ n ih => exact h.bind fun value => ih.bind fun values => realizes_pure (value :: values)

theorem Realizes.fulfils {work : Checked α} {draw : StateM Generator α} (h : Realizes work draw) :
    Fulfils work (liftM draw) :=
  fun g => ⟨(draw.run g).1, (draw.run g).2, rfl, h g⟩

theorem fulfils_pure (value : α) : Fulfils (pure value) (pure value) :=
  fun g => ⟨value, g, rfl, rfl⟩

theorem Fulfils.bind {work : Checked α} {draw : Draw α} {next : α → Checked β}
    {next' : α → Draw β} (h : Fulfils work draw)
    (h' : ∀ value, Fulfils (next value) (next' value)) :
    Fulfils (work >>= next) (draw >>= next') := by
  intro g
  obtain ⟨value, after, hdraw, hwork⟩ := h g
  obtain ⟨value', after', hdraw', hwork'⟩ := h' value after
  refine ⟨value', after', (Draw.run_bind hdraw).trans hdraw', ?_⟩
  rw [StateT.run_bind, hwork]
  exact hwork'

theorem Fulfils.repeated {work : Checked α} {draw : Draw α} (h : Fulfils work draw) (n : Nat) :
    Fulfils (Generator.repeated work n) (Generator.repeated draw n) := by
  induction n with
  | zero => exact fulfils_pure []
  | succ n ih => exact h.bind fun value => ih.bind fun values => fulfils_pure (value :: values)

theorem realizes_raw : Realizes raw Generator.raw :=
  fun g => Tape.next?_ofTwister g.twister

theorem realizes_real : Realizes real Generator.real :=
  realizes_raw.bind fun _ => realizes_pure _

/-- A bound that is not zero is a modulus that is not zero. -/
theorem below_eq {bound : UInt32} (h : bound ≠ 0) :
    below bound = raw >>= fun word => pure (word % bound.toUInt64).toUInt32 := by
  have hmodulus : bound.toNat ≠ 0 := fun h' => h (UInt32.toNat_inj.mp h')
  have hvalue (word : UInt64) :
      UInt32.ofNat (word.toNat % bound.toNat) = (word % bound.toUInt64).toUInt32 := by
    apply UInt32.toNat_inj.mp
    simp
  simp only [below, remainder, if_neg h, if_neg hmodulus, pure_bind, hvalue]

theorem fulfils_below {bound : UInt32} (h : bound ≠ 0) :
    Fulfils (below bound) (Generator.below bound) := by
  intro g
  refine ⟨(g.twister.next.1 % bound.toUInt64).toUInt32, g.skip 1, ?_, ?_⟩
  · rw [Generator.below_run, if_neg h]
  · rw [below_eq h, StateT.run_bind, realizes_raw g]
    rfl

theorem realizes_next32 : Realizes (below Generator.widest) Generator.next32 := by
  rw [below_eq (by decide)]
  exact realizes_raw.bind fun _ => realizes_pure _

theorem skip_run (n : Nat) (g : Generator) :
    (skip n).run g.tape = some ((), (g.skip n).tape) := by
  rw [← Generator.costs_repeated_next32 n g]
  exact (realizes_next32.repeated n).bind (fun _ => realizes_pure ()) g

/-- What is drawn for `n + 1` positions is one of them. -/
theorem position_run (n : Nat) (g : Generator) :
    (position (n + 1)).run g.tape =
      some ((Generator.positions.draw n g).1.val, (Generator.positions.draw n g).2.tape) := by
  rw [position, StateT.run_bind, realizes_raw g]
  rfl

theorem swap_toArray {n : Nat} (items : Vector α n) {i j : Nat} (hi : i < n) (hj : j < n) :
    swap items.toArray i j = pure (items.swap i j hi hj).toArray := by
  have hsize : i < items.toArray.size ∧ j < items.toArray.size := by
    rw [Vector.size_toArray]
    exact ⟨hi, hj⟩
  rw [swap, dif_pos hsize]
  rfl

/-- All exchanges are between positions that are there. -/
theorem exchange_run {n i : Nat} (h : i < n) (items : Vector α n) (g : Generator) :
    (exchange i items.toArray).run g.tape =
      some ((Generator.positions.exchange i h items g).1.toArray,
        (Generator.positions.exchange i h items g).2.tape) := by
  induction i generalizing items g with
  | zero => rfl
  | succ i ih =>
    have hj := Nat.lt_of_lt_of_le (Generator.positions.draw (i + 1) g).1.isLt h
    rw [exchange, StateT.run_bind, position_run, IndexSource.exchange_succ]
    simp only [Option.bind_eq_bind, Option.bind_some, swap_toArray items h hj, pure_bind]
    exact ih _ _ _

theorem realizes_shuffle (items : List α) :
    Realizes (shuffle items) (Generator.shuffle items) := by
  intro g
  cases items with
  | nil => rfl
  | cons item items =>
    have hrun := exchange_run (Nat.lt_succ_self items.length) (item :: items).toArray.toVector g
    rw [shuffle, StateT.run_bind]
    exact (congrArg (· >>= _) hrun).trans rfl

theorem realizes_sample (population : List α) (n : Nat) :
    Realizes (sample population n) (Generator.sample population n) := by
  unfold sample Generator.sample IndexSource.sample
  by_cases hn : n = 0
  · simp only [if_pos hn]
    exact realizes_pure _
  · by_cases hshort : population.length < n
    · simp only [if_neg hn, if_pos hshort]
      exact realizes_pure _
    · simp only [if_neg hn, if_neg hshort]
      exact (realizes_shuffle population).bind fun order => realizes_pure (Except.ok (order.take n))

end Checked

end Redraw
