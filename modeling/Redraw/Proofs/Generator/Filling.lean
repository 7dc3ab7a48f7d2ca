import Mathlib
import Redraw.Proofs.Generator.Cost

/-!
# Bytes of one stream

The bytes that a generator gives out are those of its raw draws, each least significant byte first,
up to the number that is asked for; what is left of the last draw is lost. A short rest is taken
from the low half of a draw, and that makes no difference: the low half has the first four bytes.
-/

namespace Redraw

namespace Bytes

@[simp] theorem length_littleEndian (n : Nat) (word : UInt64) :
    (littleEndian n word).length = n := by
  induction n generalizing word with
  | zero => rfl
  | succ n ih => rw [littleEndian, List.length_cons, ih]

/-- The bytes of a word are its digits to the base 256, from the units on. -/
theorem map_toNat_littleEndian (n : Nat) (word : UInt64) :
    (littleEndian n word).map UInt8.toNat =
      (List.range n).map fun i => word.toNat / 256 ^ i % 256 := by
  induction n generalizing word with
  | zero => rfl
  | succ n ih =>
    have hunit : word.toUInt8.toNat = word.toNat / 256 ^ 0 % 256 := by
      rw [pow_zero, Nat.div_one]
      rfl
    have hshift : (word >>> 8).toNat = word.toNat / 256 := by
      rw [UInt64.toNat_shiftRight, Nat.shiftRight_eq_div_pow]
      rfl
    have hdigit : ∀ i, (word >>> 8).toNat / 256 ^ i % 256 = word.toNat / 256 ^ (i + 1) % 256 := by
      intro i
      rw [hshift, Nat.div_div_eq_div_mul, ← pow_succ']
    rw [littleEndian, List.map_cons, ih, List.range_succ_eq_map, List.map_cons, List.map_map, hunit]
    simp only [hdigit, Function.comp_def]

/-- The low half of a word has its first four bytes. -/
theorem littleEndian_lowHalf (word : UInt64) :
    littleEndian 4 word.toUInt32.toUInt64 = (littleEndian 8 word).take 4 := by
  have hlow : word.toUInt32.toUInt64.toNat = word.toNat % 2 ^ 32 := rfl
  have hdigit : ∀ i < 4, word.toNat % 2 ^ 32 / 256 ^ i % 256 = word.toNat / 256 ^ i % 256 := by
    intro i hi
    interval_cases i <;> omega
  apply List.map_injective_iff.mpr fun _ _ => UInt8.toNat_inj.mp
  rw [List.map_take, map_toNat_littleEndian, map_toNat_littleEndian, ← List.map_take, hlow]
  exact List.map_congr_left fun i hi => hdigit i (List.mem_range.mp hi)

end Bytes

namespace Generator

/-- The bytes of the next `n` raw draws, each least significant byte first. -/
def drawnBytes (n : Nat) (g : Generator) : Bytes :=
  ((repeated raw n).run g).1.flatMap (Bytes.littleEndian 8)

/-- Raw draws of a generator are the draws of its twister. -/
theorem repeated_raw_run (n : Nat) (g : Generator) :
    (repeated raw n).run g = ((g.twister.draws n).1, g.skip n) := by
  induction n generalizing g with
  | zero => rfl
  | succ n ih =>
    have hstep : (repeated raw (n + 1)).run g =
        (g.twister.next.1 :: ((repeated raw n).run (g.skip 1)).1,
          ((repeated raw n).run (g.skip 1)).2) := rfl
    rw [hstep, ih]
    rfl

theorem drawnBytes_succ (n : Nat) (g : Generator) :
    drawnBytes (n + 1) g = Bytes.littleEndian 8 g.twister.next.1 ++ drawnBytes n (g.skip 1) :=
  rfl

/-- The bytes of some draws and those of the draws behind them. -/
theorem drawnBytes_add (m n : Nat) (g : Generator) :
    drawnBytes (m + n) g = drawnBytes m g ++ drawnBytes n (g.skip m) := by
  induction m generalizing g with
  | zero => rw [Nat.zero_add]; rfl
  | succ m ih =>
    have hskip : g.skip (m + 1) = (g.skip 1).skip m := rfl
    rw [Nat.add_right_comm, drawnBytes_succ, drawnBytes_succ, ih, hskip, List.append_assoc]

@[simp] theorem length_drawnBytes (n : Nat) (g : Generator) : (drawnBytes n g).length = 8 * n := by
  induction n generalizing g with
  | zero => rfl
  | succ n ih =>
    rw [drawnBytes_succ, List.length_append, Bytes.length_littleEndian, ih, Nat.mul_succ,
      Nat.add_comm]

theorem wholeWords_run (n : Nat) (g : Generator) :
    (wholeWords n).run g = (drawnBytes n g, g.skip n) := by
  induction n generalizing g with
  | zero => rfl
  | succ n ih =>
    have hrest := ih (g.skip 1)
    have hstep : (wholeWords (n + 1)).run g =
        (Bytes.littleEndian 8 g.twister.next.1 ++ ((wholeWords n).run (g.skip 1)).1,
          ((wholeWords n).run (g.skip 1)).2) := rfl
    rw [hstep, hrest, drawnBytes_succ]
    rfl

/-- Fewer than eight bytes are the first ones of one draw, and none are those of no draw. -/
theorem lastBytes_run {n : Nat} (h : n < 8) (g : Generator) :
    (lastBytes n).run g = ((drawnBytes ((n + 7) / 8) g).take n, g.skip ((n + 7) / 8)) := by
  unfold lastBytes
  by_cases hzero : n = 0
  · rw [if_pos hzero, hzero]
    rfl
  have hone : (n + 7) / 8 = 1 := by omega
  have hbytes : drawnBytes 1 g = Bytes.littleEndian 8 g.twister.next.1 := List.append_nil _
  rw [if_neg hzero, hone, hbytes]
  by_cases hhalf : n ≤ 4
  · -- The bytes come from the low half of the draw.
    have hlow : (Bytes.littleEndian 4 g.twister.next.1.toUInt32.toUInt64).take n =
        (Bytes.littleEndian 8 g.twister.next.1).take n := by
      rw [Bytes.littleEndian_lowHalf, List.take_take, Nat.min_eq_left hhalf]
    rw [if_pos hhalf, ← hlow]
    rfl
  · rw [if_neg hhalf]
    rfl

/-- The next bytes are the front of the bytes of the draws that they cost. -/
theorem fill_run (n : Nat) (g : Generator) :
    (fill n).run g = ((drawnBytes ((n + 7) / 8) g).take n, g.skip ((n + 7) / 8)) := by
  have hcost : (n + 7) / 8 = n / 8 + (n % 8 + 7) / 8 := by omega
  have hstep : (fill n).run g =
      (((wholeWords (n / 8)).run g).1 ++ ((lastBytes (n % 8)).run ((wholeWords (n / 8)).run g).2).1,
        ((lastBytes (n % 8)).run ((wholeWords (n / 8)).run g).2).2) := rfl
  have hfront : (drawnBytes ((n + 7) / 8) g).take n = drawnBytes (n / 8) g ++
      (drawnBytes ((n % 8 + 7) / 8) (g.skip (n / 8))).take (n % 8) := by
    have hle : (drawnBytes (n / 8) g).length ≤ n := by
      rw [length_drawnBytes]
      exact Nat.mul_div_le n 8
    have hrest : n - (drawnBytes (n / 8) g).length = n % 8 := by
      rw [length_drawnBytes, Nat.mod_eq_sub]
    rw [hcost, drawnBytes_add, List.take_append, List.take_of_length_le hle, hrest]
  rw [hstep, wholeWords_run, lastBytes_run (Nat.mod_lt n (by decide)), ← skip_add, ← hcost, hfront]

theorem tryFill_run {ε : Type} (n : Nat) (g : Generator) :
    (tryFill n : ExceptT ε (StateM Generator) Bytes).run.run g =
      (.ok ((fill n).run g).1, ((fill n).run g).2) :=
  rfl

/-- More bytes begin with fewer. -/
theorem fill_isPrefix {m n : Nat} (h : m ≤ n) (g : Generator) :
    ((fill m).run g).1 <+: ((fill n).run g).1 := by
  obtain ⟨k, hk⟩ : ∃ k, (n + 7) / 8 = (m + 7) / 8 + k := Nat.exists_eq_add_of_le (by omega)
  have hshort : ((fill m).run g).1 = (drawnBytes ((n + 7) / 8) g).take m := by
    rw [fill_run, hk, drawnBytes_add, List.take_append_of_le_length]
    rw [length_drawnBytes]
    omega
  rw [hshort, fill_run]
  exact List.take_prefix_take_left h

/-- Behind whole draws, more bytes go on where the bytes before them ended. -/
theorem fill_add {m : Nat} (h : 8 ∣ m) (n : Nat) (g : Generator) :
    (fill (m + n)).run g = (((fill m).run g).1 ++ ((fill n).run ((fill m).run g).2).1,
      ((fill n).run ((fill m).run g).2).2) := by
  obtain ⟨k, rfl⟩ := h
  have hdraws : (8 * k + n + 7) / 8 = k + (n + 7) / 8 := by omega
  have hwhole : (8 * k + 7) / 8 = k := by omega
  have hlength : (drawnBytes k g).length = 8 * k := length_drawnBytes k g
  simp only [fill_run, hdraws, hwhole, drawnBytes_add, skip_add]
  rw [List.take_of_length_le (Nat.le_of_eq hlength), ← hlength, List.take_length_add_append]

/-- Asked for `n` bytes, a generator gives out the first `n` bytes of the next raw draws, a draw for
every eight bytes or less, and goes on behind these draws; and it never refuses to. Raw draws are
those of the twister, and the bytes of a draw are its digits to the base 256, from the units on. So
fewer bytes are the front of more, and bytes that use up whole draws are continued by those asked
for next. -/
theorem fill_draws :
    (∀ word : UInt64, (Bytes.littleEndian 8 word).map UInt8.toNat =
      (List.range 8).map fun i => word.toNat / 256 ^ i % 256) ∧
    (∀ (n : Nat) (g : Generator), (repeated raw n).run g =
      ((g.twister.draws n).1, ⟨g.seed, g.twister.skip n⟩)) ∧
    (∀ (n : Nat) (g : Generator),
      (fill n).run g =
        ((((repeated raw ((n + 7) / 8)).run g).1.flatMap (Bytes.littleEndian 8)).take n,
          ((repeated raw ((n + 7) / 8)).run g).2) ∧
      ((fill n).run g).1.length = n ∧
      ∀ ε : Type, (tryFill n : ExceptT ε (StateM Generator) Bytes).run.run g =
        (.ok ((fill n).run g).1, ((fill n).run g).2)) ∧
    (∀ (m n : Nat) (g : Generator), m ≤ n → ((fill m).run g).1 <+: ((fill n).run g).1) ∧
    ∀ (m n : Nat) (g : Generator), 8 ∣ m →
      (fill (m + n)).run g = (((fill m).run g).1 ++ ((fill n).run ((fill m).run g).2).1,
        ((fill n).run ((fill m).run g).2).2) := by
  refine ⟨Bytes.map_toNat_littleEndian 8, repeated_raw_run,
    fun n g => ⟨?_, ?_, fun ε => tryFill_run n g⟩,
    fun m n g h => fill_isPrefix h g, fun m n g h => fill_add h n g⟩
  · have hbehind := congrArg Prod.snd (repeated_raw_run ((n + 7) / 8) g)
    rw [hbehind]
    exact fill_run n g
  · rw [fill_run, List.length_take, length_drawnBytes]
    omega

/-- Three bytes are the first of twelve, and twelve are eight and four more. -/
theorem fill_draws_twelve :
    3 ≤ 12 ∧ 8 ∣ 8 ∧ ((fill 3).run (ofSeed 5)).1 <+: ((fill 12).run (ofSeed 5)).1 ∧
      (fill (8 + 4)).run (ofSeed 5) =
        (((fill 8).run (ofSeed 5)).1 ++ ((fill 4).run ((fill 8).run (ofSeed 5)).2).1,
          ((fill 4).run ((fill 8).run (ofSeed 5)).2).2) :=
  ⟨by decide, by decide, fill_draws.2.2.2.1 3 12 _ (by decide),
    fill_draws.2.2.2.2 8 4 _ (by decide)⟩

end Generator

end Redraw
