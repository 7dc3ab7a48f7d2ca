import Redraw.Proofs.Twister.Decay

/-!
# Seeded blocks

The words of a seeded block are computed each from the one before it. The position is added to each
of them, so that no two neighbours are zero, and a seeded block is never idle.
-/

namespace Redraw.Block

/-- The words computed from a seed, without an end. -/
def seededWord (seed : UInt64) : Nat → UInt64
  | 0 => seed
  | i + 1 => seedStep (seededWord seed i) (i + 1)

private theorem getElem_fold_seedStep (seed : UInt64) (n : Nat) (hn : n < blockSize) {i : Nat}
    (hi : i < blockSize) (hin : i ≤ n) :
    (n.fold (fun j hj (block : Block) => block.set (j + 1) (seedStep block[j] (j + 1)))
      (Vector.replicate blockSize seed))[i] = seededWord seed i := by
  induction n generalizing i with
  | zero =>
    obtain rfl : i = 0 := Nat.le_zero.mp hin
    rw [Nat.fold_zero, Vector.getElem_replicate, seededWord]
  | succ n ih =>
    rw [Nat.fold_succ, Vector.getElem_set]
    by_cases he : n + 1 = i
    · have hn' := Nat.lt_of_succ_lt hn
      rw [if_pos he, ← he, seededWord, ih hn' hn' (Nat.le_refl n)]
    · rw [if_neg he]
      exact ih (Nat.lt_of_succ_lt hn) hi (by omega)

/-- Each word of a seeded block is the one computed for its position. -/
theorem getElem_ofSeed (seed : UInt64) {i : Nat} (hi : i < blockSize) :
    (ofSeed seed)[i] = seededWord seed i :=
  getElem_fold_seedStep seed (blockSize - 1) (by decide) hi (Nat.le_pred_of_lt hi)

/-- A zero is not followed by a zero. -/
theorem not_idle_ofSeed (seed : UInt64) : ¬ (ofSeed seed).Idle := by
  rintro ⟨_, hzero⟩
  have hone := hzero 1 (by decide) (by decide)
  have htwo := hzero 2 (by decide) (by decide)
  rw [getElem_ofSeed] at hone htwo
  rw [seededWord, hone] at htwo
  exact absurd htwo (by decide)

end Redraw.Block
