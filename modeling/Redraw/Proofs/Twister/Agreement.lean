import Redraw.Proofs.Twister.Recurrence

/-!
# Sequences that agree

Regenerating reads all of a block but the lower bits of its first word. When two sequences agree on
what is read of the window at one position, they agree at the next, since the word that enters is
made of nothing else; and at the position before as well, since the word that left can be told from
the one that entered. So two sequences that agree somewhere agree everywhere.
-/

namespace Redraw

/-- Two sequences agree on what regenerating reads of the window at a position. -/
def Agree (x y : Nat → UInt64) (start : Nat) : Prop :=
  x start &&& Block.upperMask = y start &&& Block.upperMask ∧
    ∀ k, start < k → k < start + blockSize → x k = y k

/-- Two windows that are the same agree. -/
theorem agree_of_eq {x y : Nat → UInt64} {start : Nat}
    (h : ∀ k, start ≤ k → k < start + blockSize → x k = y k) : Agree x y start :=
  ⟨by rw [h start (Nat.le_refl _) (Nat.lt_add_of_pos_right (by decide))],
    fun k hk hkb => h k (Nat.le_of_lt hk) hkb⟩

/-- Two windows agree exactly when the ones before them do. -/
theorem agree_succ_iff {x y : Nat → UInt64} (hx : Recurrent x) (hy : Recurrent y) (start : Nat) :
    Agree x y (start + 1) ↔ Agree x y start := by
  have hsize : blockSize = 312 := rfl
  have hmiddle : Block.middle = 156 := rfl
  have hentry : ∀ {z : Nat → UInt64}, Recurrent z → z (start + blockSize) =
      z (start + Block.middle) ^^^ Block.shift (Block.splice (z start) (z (start + 1))) :=
    fun hz => hz start
  constructor
  · rintro ⟨hupper, hwords⟩
    have hlast := hwords (start + blockSize) (by omega) (by omega)
    have hahead := hwords (start + Block.middle) (by omega) (by omega)
    rw [hentry hx, hentry hy, hahead, UInt64.xor_right_inj] at hlast
    obtain ⟨hfirst, hlower⟩ := Block.splice_inj.mp (Block.shift_injective hlast)
    -- The two parts of the second word are known from different sides: its lower bits from the word
    -- that entered, its upper bits from the later window.
    refine ⟨hfirst, fun k hk hkb => ?_⟩
    rcases Nat.eq_or_lt_of_le hk with rfl | hlt
    · exact Block.eq_of_parts hupper hlower
    · exact hwords k hlt (by omega)
  · rintro ⟨hupper, hwords⟩
    have hnext := hwords (start + 1) (by omega) (by omega)
    have hahead := hwords (start + Block.middle) (by omega) (by omega)
    have hspliced : Block.splice (x start) (x (start + 1)) =
        Block.splice (y start) (y (start + 1)) :=
      Block.splice_inj.mpr ⟨hupper, by rw [hnext]⟩
    refine ⟨by rw [hnext], fun k hk hkb => ?_⟩
    rcases Nat.eq_or_lt_of_le (show k ≤ start + blockSize by omega) with rfl | hlt
    · rw [hentry hx, hentry hy, hspliced, hahead]
    · exact hwords k (by omega) hlt

/-- Two sequences agree everywhere or nowhere. -/
theorem agree_iff_agree_zero {x y : Nat → UInt64} (hx : Recurrent x) (hy : Recurrent y)
    (start : Nat) : Agree x y start ↔ Agree x y 0 := by
  induction start with
  | zero => rfl
  | succ start ih => exact (agree_succ_iff hx hy start).trans ih

/-- Two sequences that agree at a position have the same words behind it. -/
theorem Agree.eq_of_lt {x y : Nat → UInt64} (hx : Recurrent x) (hy : Recurrent y) {start k : Nat}
    (h : Agree x y start) (hk : start < k) : x k = y k := by
  have hzero := (agree_iff_agree_zero hx hy start).mp h
  have hlate := (agree_iff_agree_zero hx hy (k - 1)).mpr hzero
  exact hlate.2 k (by omega) (by simp only [blockSize]; omega)

end Redraw
