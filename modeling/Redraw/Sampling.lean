/-!
# Shuffling and sampling

Both ask a source for positions and for nothing else, so their result depends on the source's
answers alone. A source answers the question "which of the positions 0, …, n" with one of them:
the type leaves it no other answer, and no exchange can fall outside the list.
-/

namespace Redraw

/-- A source of positions, with a state that its answers may change. -/
structure IndexSource (σ : Type) where
  /-- One of the positions 0, …, n. -/
  draw : (n : Nat) → StateM σ (Fin (n + 1))

/-- A request for more items than there are. -/
structure Shortage where
  /-- The number of items asked for. -/
  requested : Nat
  /-- The number of items there are. -/
  population : Nat
  deriving DecidableEq, Repr

namespace Shortage

/-- The wording of a shortage. -/
def message (s : Shortage) : String :=
  s!"population size {s.population} is smaller than requested choice count {s.requested}"

end Shortage

namespace IndexSource

/-- The position among 0, …, n that is a number's remainder. -/
def reduce (n number : Nat) : Fin (n + 1) :=
  Fin.ofNat (n + 1) number

variable {σ : Type} {α : Type u} (source : IndexSource σ)

/-- Exchanges each position from `i` down to the first but one with a drawn position not above
it. -/
def exchange {n : Nat} : (i : Nat) → i < n → Vector α n → σ → Vector α n × σ
  | 0, _, items, s => (items, s)
  | i + 1, h, items, s =>
    let (j, s) := source.draw (i + 1) s
    exchange i (Nat.lt_of_succ_lt h)
      (items.swap (i + 1) j h (Nat.lt_of_lt_of_le j.isLt h)) s

/-- A random order of a vector's items. -/
def shuffleVector : {n : Nat} → Vector α n → σ → Vector α n × σ
  | 0, items, s => (items, s)
  | n + 1, items, s => source.exchange n (Nat.lt_succ_self n) items s

/-- A random order of the items of a list. -/
def shuffle (items : List α) (s : σ) : List α × σ :=
  let (items, s) := source.shuffleVector items.toArray.toVector s
  (items.toList, s)

/-- A random selection of `n` items in random order: the first `n` items of a shuffle. No items are
selected without asking the source, and so is the refusal to select more than there are. -/
def sample (population : List α) (n : Nat) (s : σ) : Except Shortage (List α) × σ :=
  if n = 0 then (.ok [], s)
  else if population.length < n then (.error ⟨n, population.length⟩, s)
  else
    let (items, s) := source.shuffle population s
    (.ok (items.take n), s)

/-- Overwrites all choices by a random selection of as many items. When there are too few items the
choices are left as they were. -/
def sampleInto (population choices : List α) (s : σ) : (Except Shortage Unit × List α) × σ :=
  match source.sample population choices.length s with
  | (.ok picked, s) => ((.ok (), picked), s)
  | (.error shortage, s) => ((.error shortage, choices), s)

end IndexSource

/-- A source whose answers are written down beforehand, with the questions it was asked. -/
structure Script where
  /-- The answers still to be given, each reduced to what the question admits; zero when used up. -/
  picks : List Nat
  /-- The numbers of positions that were asked for, oldest first. -/
  asked : List Nat := []
  deriving DecidableEq, Repr

namespace Script

/-- A script as a source of positions. -/
def source : IndexSource Script where
  draw n s :=
    (IndexSource.reduce n (s.picks.headD 0), ⟨s.picks.tail, s.asked ++ [n + 1]⟩)

end Script

end Redraw
