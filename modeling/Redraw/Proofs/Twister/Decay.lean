import Redraw.Proofs.Twister.Agreement

/-!
# Blocks that decay

A block is idle when none of the bits that regenerating reads is one: the upper bits of its first
word and all other words are zero. Only the lower bits of the first word are then left, and they are
dropped. Being idle is handed on by the recurrence in both directions, so that no block ever becomes
idle by being regenerated, and an idle one is all zero from the next block on.
-/

namespace Redraw

/-- Nothing that later words are made of is left in the window at a position of a sequence. -/
def Idle (x : Nat → UInt64) (start : Nat) : Prop :=
  x start &&& Block.upperMask = 0 ∧ ∀ k, start < k → k < start + blockSize → x k = 0

/-- A sequence of zeros satisfies the recurrence. -/
theorem recurrent_zero : Recurrent fun _ => 0 :=
  fun _ => show 0 = Block.successor 0 0 0 by decide

/-- A window is idle when it agrees with one of zeros. -/
theorem idle_iff_agree (x : Nat → UInt64) (start : Nat) :
    Idle x start ↔ Agree x (fun _ => 0) start := by
  rw [Idle, Agree, UInt64.zero_and]

/-- All windows of a sequence are idle, or none is. -/
theorem idle_iff_idle_zero {x : Nat → UInt64} (hx : Recurrent x) (start : Nat) :
    Idle x start ↔ Idle x 0 := by
  rw [idle_iff_agree, idle_iff_agree]
  exact agree_iff_agree_zero hx recurrent_zero start

namespace Block

/-- None of the bits that regenerating reads is one. -/
def Idle (block : Block) : Prop :=
  block.cyclic 0 &&& upperMask = 0 ∧ ∀ i (h : i < blockSize), 0 < i → block[i] = 0

/-- A block is idle when the window that it holds is. -/
theorem Holds.idle_iff {block : Block} {x : Nat → UInt64} {turns : Nat}
    (h : block.Holds x (turns * blockSize)) :
    block.Idle ↔ Redraw.Idle x (turns * blockSize) := by
  unfold Idle Redraw.Idle
  rw [cyclic_of_lt block (by decide), h.getElem_zero]
  refine and_congr_right fun _ => ⟨fun hzero k hk hkb => ?_, fun hzero i hi hpos => ?_⟩
  · have hi : k - turns * blockSize < blockSize := by omega
    have hword := h.getElem hi
    rw [Nat.add_sub_cancel' (Nat.le_of_lt hk)] at hword
    rw [← hword]
    exact hzero _ hi (by omega)
  · rw [h.getElem hi]
    exact hzero _ (by omega) (by omega)

/-- A block of zeros is idle. -/
theorem idle_of_eq_zero {block : Block} (h : ∀ i (hi : i < blockSize), block[i] = 0) :
    block.Idle :=
  ⟨by rw [cyclic_of_lt block (by decide), h 0, UInt64.zero_and], fun i hi _ => h i hi⟩

end Block

namespace Twister

/-- Whether a block is idle can be read off the beginning of the sequence that it is part of. -/
theorem Follows.idle_iff {t : Twister} {x : Nat → UInt64} (hx : Recurrent x) {position : Nat}
    (h : t.Follows x position) : t.block.Idle ↔ Redraw.Idle x 0 := by
  obtain ⟨turns, hblock, _⟩ := h
  rw [hblock.idle_iff, idle_iff_idle_zero hx]

/-- No number of draws makes a block idle, and none wakes an idle one. -/
theorem idle_skip_iff (t : Twister) (n : Nat) : (t.skip n).block.Idle ↔ t.block.Idle := by
  have hx := t.block.recurrent_sequence
  rw [(t.follows_sequence.skip hx n).idle_iff hx, t.follows_sequence.idle_iff hx]

/-- As long as words are left, drawing changes the index only. -/
theorem block_skip_of_le {t : Twister} {n : Nat} (h : t.index + n ≤ blockSize) :
    (t.skip n).block = t.block := by
  induction n generalizing t with
  | zero => rfl
  | succ n ih =>
    have hi : t.index < blockSize := by omega
    rw [skip, snd_next_of_lt hi]
    exact ih (show t.index + 1 + n ≤ blockSize by omega)

/-- Once an idle block is regenerated, nothing but zeros is left. -/
theorem getElem_skip_of_idle {t : Twister} (hidle : t.block.Idle) {n : Nat}
    (h : blockSize < t.index + n) {i : Nat} (hi : i < blockSize) : (t.skip n).block[i] = 0 := by
  have hx := t.block.recurrent_sequence
  obtain ⟨turns, hblock, hposition⟩ := t.follows_sequence.skip hx n
  have hturns : 0 < turns := by
    rcases Nat.eq_zero_or_pos turns with rfl | hpos
    · have := (t.skip n).index_le
      omega
    · exact hpos
  have hsize : blockSize = 312 := rfl
  have hturn : blockSize ≤ turns * blockSize := Nat.le_mul_of_pos_left _ hturns
  have hzero : Agree t.block.sequence (fun _ => 0) 0 :=
    (idle_iff_agree _ 0).mp ((t.follows_sequence.idle_iff hx).mp hidle)
  -- Every word of a later block lies behind the first word of the sequence.
  rw [hblock.getElem hi]
  exact hzero.eq_of_lt hx recurrent_zero (by omega)

end Twister

end Redraw
