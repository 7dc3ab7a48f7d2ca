import Redraw.Proofs.Generator.Cost
import Redraw.Proofs.Reduction.Counting
import Redraw.Proofs.Twister.Temper

/-!
# The bias of bounded draws

Tempering gives out every word for one state word. So a bounded draw gives a value for as many state
words as there are words with that remainder: equally many for all values, but for one word more
for each of the low ones.
-/

namespace Redraw

theorem Block.temper_bijective : Function.Bijective Block.temper :=
  Finite.injective_iff_bijective.mp fun _ _ => Block.temper_injective

namespace Reduction

/-- How many state words give a value in a bounded draw. -/
noncomputable def share (bound value : UInt64) : ℕ :=
  Nat.card {word : UInt64 // below (Block.temper word) bound = .ok value}

/-- A bound that is not zero is not refused. -/
theorem below_of_pos {bound : UInt64} (h : 0 < bound) (raw : UInt64) :
    below raw bound = .ok (raw % bound) := by
  have hne : bound ≠ 0 := by
    rintro rfl
    exact UInt64.lt_irrefl _ h
  exact if_neg hne

theorem below_eq_ok_iff {bound raw value : UInt64} (h : 0 < bound) :
    below raw bound = .ok value ↔ raw.toNat % bound.toNat = value.toNat := by
  rw [below_of_pos h, Except.ok.injEq, ← UInt64.toNat_inj, UInt64.toNat_mod]

/-- A value has an equal share of the state words, and one word more if it is low. -/
theorem share_eq {bound value : UInt64} (h : value < bound) :
    share bound value = 2 ^ 64 / bound.toNat +
      if value.toNat < 2 ^ 64 % bound.toNat then 1 else 0 := by
  have hlt : value.toNat < bound.toNat := UInt64.lt_iff_toNat_lt.mp h
  have hpos : 0 < bound := UInt64.lt_iff_toNat_lt.mpr (Nat.zero_lt_of_lt hlt)
  let words := Equiv.ofBijective _ Block.temper_bijective
  calc share bound value
      = Nat.card {raw : UInt64 // below raw bound = .ok value} :=
        Nat.card_congr (words.subtypeEquiv fun _ => Iff.rfl)
    _ = Nat.card {raw : UInt64 // raw.toNat % bound.toNat = value.toNat} :=
        Nat.card_congr (Equiv.subtypeEquivRight fun _ => below_eq_ok_iff hpos)
    _ = _ := card_words_mod hlt

/-- No value has two words more than another. -/
theorem share_le_succ {bound value value' : UInt64} (h : value < bound) (h' : value' < bound) :
    share bound value ≤ share bound value' + 1 := by
  rw [share_eq h, share_eq h']
  split <;> split <;> omega

/-- Low values have no smaller share than high ones. -/
theorem share_antitone {bound value value' : UInt64} (hle : value ≤ value') (h : value' < bound) :
    share bound value' ≤ share bound value := by
  have hnat : value.toNat ≤ value'.toNat := UInt64.le_iff_toNat_le.mp hle
  rw [share_eq h, share_eq (UInt64.lt_of_le_of_lt hle h)]
  split <;> split <;> omega

/-- A remainder of a 32-bit bound fits into 32 bits. -/
theorem toUInt64_toUInt32_mod (raw : UInt64) {bound : UInt32} (h : 0 < bound) :
    (raw % bound.toUInt64).toUInt32.toUInt64 = raw % bound.toUInt64 := by
  have hpos : 0 < bound.toNat := UInt32.lt_iff_toNat_lt.mp h
  have hlt : raw.toNat % bound.toNat < 2 ^ 32 := (Nat.mod_lt _ hpos).trans bound.toNat_lt
  apply UInt64.toNat_inj.mp
  rw [UInt32.toNat_toUInt64, UInt64.toNat_toUInt32, UInt64.toNat_mod, UInt32.toNat_toUInt64,
    Nat.mod_eq_of_lt hlt]

theorem toUInt64_pos {bound : UInt32} (h : 0 < bound) : 0 < bound.toUInt64 := by
  rw [UInt64.lt_iff_toNat_lt, UInt32.toNat_toUInt64]
  exact UInt32.lt_iff_toNat_lt.mp h

/-- A bounded draw gives every value below the bound, and no other, for an equal share of the state
words, up to one word more for the values below what 2⁶⁴ leaves when it is divided by the bound. For
a 32-bit bound the value is given out whole. -/
theorem shares_within_one :
    (∀ bound : UInt64, 0 < bound →
      (∀ value < bound, share bound value = 2 ^ 64 / bound.toNat +
        if value.toNat < 2 ^ 64 % bound.toNat then 1 else 0) ∧
      (∀ word, ∃ value < bound, below (Block.temper word) bound = .ok value) ∧
      ∀ value < bound, ∀ value' < bound, share bound value ≤ share bound value' + 1 ∧
        (value ≤ value' → share bound value' ≤ share bound value)) ∧
    ∀ bound : UInt32, 0 < bound → ∀ g : Generator, ∃ value : UInt32,
      (Generator.below bound).run.run g = (.ok value, g.skip 1) ∧
        below g.twister.next.1 bound.toUInt64 = .ok value.toUInt64 := by
  refine ⟨fun bound hpos => ⟨fun value h => share_eq h, fun word => ?_, ?_⟩,
    fun bound hpos g => ?_⟩
  · exact ⟨_, UInt64.mod_lt _ hpos, below_of_pos hpos _⟩
  · intro value h value' h'
    exact ⟨share_le_succ h h', fun hle => share_antitone hle h'⟩
  · have hne : bound ≠ 0 := by
      rintro rfl
      exact UInt32.lt_irrefl _ hpos
    refine ⟨_, by rw [Generator.below_run, if_neg hne], ?_⟩
    rw [toUInt64_toUInt32_mod _ hpos, below_of_pos (toUInt64_pos hpos)]

/-- Of the values below ten the first six have one state word more than the last four. -/
theorem shares_within_one_ten :
    (0 < (10 : UInt64) ∧ (5 : UInt64) < 10 ∧ (6 : UInt64) < 10 ∧ 0 < (10 : UInt32)) ∧
    share 10 5 = 1844674407370955162 ∧ share 10 6 = 1844674407370955161 ∧
    ∃ value,
      (Generator.below 10).run.run (.ofSeed 5) = (.ok value, (Generator.ofSeed 5).skip 1) := by
  have hpos : 0 < (10 : UInt64) ∧ (5 : UInt64) < 10 ∧ (6 : UInt64) < 10 ∧ 0 < (10 : UInt32) := by
    decide
  obtain ⟨hshare, _⟩ := shares_within_one.1 10 hpos.1
  obtain ⟨value, hvalue, _⟩ := shares_within_one.2 10 hpos.2.2.2 (.ofSeed 5)
  exact ⟨hpos, hshare 5 hpos.2.1, hshare 6 hpos.2.2.1, value, hvalue⟩

end Reduction

end Redraw
