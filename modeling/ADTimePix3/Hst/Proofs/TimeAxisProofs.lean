import ADTimePix3.Hst.TimeAxis
import ADTimePix3.Stream.Proofs.JsonProofs
import Mathlib.Data.Int.ModEq

/-!
# The time axis of a histogram: proofs

The ticks go straight from the first bin's to the last bin's. So they are in a range as soon as these two are.
-/

namespace ADTimePix3.Hst

open Img (toInt32 toUInt64)
open MachineInt (Fits int)
open ADTimePix3.Stream (toInt32_of_range)

variable {b : Binning} {i j n : ℕ} {w o x : ℤ}

/-! ## The three formulas -/

/-- `size_t` arithmetic gives the exact tick modulo `2 ^ 64`. -/
theorem timeTick_eq_emod (w o : ℤ) (i : ℕ) : timeTick w o i = (o + i * w) % 2 ^ 64 := by
  unfold timeTick toUInt64
  push_cast
  rw [Int.toNat_of_nonneg (by omega), Int.toNat_of_nonneg (by omega)]
  have hw : (w % 2 ^ 64) ≡ w [ZMOD 2 ^ 64] := Int.mod_modEq w (2 ^ 64)
  exact (Int.mod_modEq o (2 ^ 64)).add (hw.mul_left i)

theorem timeTick_nonneg (w o : ℤ) (i : ℕ) : 0 ≤ timeTick w o i := Int.natCast_nonneg _

/-- An edge is the tick that a frame computes for the bin. -/
theorem calculate_bin_edges_getElem? (hi : i ≤ n) :
    (calculate_bin_edges n w o)[i]?.map Int.ofNat = some (timeTick w o i) := by
  have hrange : (List.range (n + 1))[i]? = some i := by
    rw [List.getElem?_range (by omega)]
  rw [calculate_bin_edges, List.getElem?_map, hrange]
  rfl

theorem checkedPushTick_eq_some_iff (hi : i < 2 ^ 31) :
    checkedPushTick w o i = some x ↔ Fits (i * w) ∧ Fits (o + i * w) ∧ x = o + i * w := by
  have hcast : toInt32 i = i := toInt32_of_range (by omega)
  unfold checkedPushTick int
  rw [hcast]
  by_cases hprod : Fits (i * w)
  · by_cases hsum : Fits (o + i * w)
    · simp [hprod, hsum, eq_comm]
    · simp [hprod, hsum]
  · simp [hprod]

/-- Where the tick of a push does not overflow, the wrapping arithmetic gives it, too. -/
theorem pushTimeTick_eq (hi : i < 2 ^ 31) (h : checkedPushTick w o i = some x) : pushTimeTick w o i = x := by
  obtain ⟨hprod, hsum, rfl⟩ := (checkedPushTick_eq_some_iff hi).mp h
  have hcast : toInt32 i = i := toInt32_of_range (by omega)
  rw [pushTimeTick, hcast, toInt32_of_range hprod, toInt32_of_range hsum]

/-! ## The range of the ticks -/

/-- A bin's distance from the first one is between none and that of the last bin. -/
theorem mul_between (hi : i < n) (w : ℤ) :
    (0 ≤ i * w ∧ i * w ≤ ((n : ℤ) - 1) * w) ∨ (((n : ℤ) - 1) * w ≤ i * w ∧ i * w ≤ 0) := by
  have hle : (i : ℤ) ≤ (n : ℤ) - 1 := by omega
  rcases Int.le_total 0 w with hw | hw
  · exact Or.inl ⟨Int.mul_nonneg (Int.natCast_nonneg i) hw, Int.mul_le_mul_of_nonneg_right hle hw⟩
  · exact Or.inr ⟨Int.mul_le_mul_of_nonpos_right hle hw, Int.mul_nonpos_of_nonneg_of_nonpos (Int.natCast_nonneg i) hw⟩

/-- Every tick is in the range of the first and the last one. -/
theorem tick_range (hr : TicksInRange b) (hoffset : Fits b.binOffset) (hi : i < b.binSize.toNat) :
    0 ≤ b.tick i ∧ b.tick i < 2 ^ 31 ∧ Fits (i * b.binWidth) := by
  obtain ⟨hfirst, hlast, hlt⟩ := hr
  have hsize : ((b.binSize.toNat : ℕ) : ℤ) = b.binSize := Int.toNat_of_nonneg (by omega)
  have hbetween := mul_between hi b.binWidth
  rw [hsize] at hbetween
  unfold Fits at hoffset
  unfold Binning.tick Fits
  rcases hbetween with ⟨hlo, hhi⟩ | ⟨hlo, hhi⟩
  · omega
  · omega

theorem tick_lt (hw : 0 < b.binWidth) (hij : i < j) : b.tick i < b.tick j := by
  have hmul : (i : ℤ) * b.binWidth < j * b.binWidth := Int.mul_lt_mul_of_pos_right (by omega) hw
  unfold Binning.tick
  omega

theorem TicksInRange.exact (hr : TicksInRange b) (hle : b.binSize ≤ 1000000) (hoffset : Fits b.binOffset) :
    TicksExact b := by
  have htick : ∀ i < b.binSize.toNat, timeTick b.binWidth b.binOffset i = b.tick i := by
    intro i hi
    obtain ⟨h0, hlt, -⟩ := tick_range hr hoffset hi
    rw [timeTick_eq_emod]
    exact Int.emod_eq_of_lt h0 (lt_trans hlt (by decide))
  have hpush : ∀ i < b.binSize.toNat, checkedPushTick b.binWidth b.binOffset i = some (b.tick i) := by
    intro i hi
    obtain ⟨h0, hlt, hprod⟩ := tick_range hr hoffset hi
    have hfits : Fits (b.tick i) := ⟨by omega, hlt⟩
    exact (checkedPushTick_eq_some_iff (by omega)).mpr ⟨hprod, hfits, rfl⟩
  refine ⟨fun i hi => ?_, htick, hpush, fun i hi => ?_, fun hw i j hij hj => ?_⟩
  · rw [calculate_bin_edges_getElem? hi.le, htick i hi]
  · exact pushTimeTick_eq (by omega) (hpush i hi)
  · rw [htick i (hij.trans hj), htick j hj]
    exact tick_lt hw hij

theorem TicksExact.inRange (h : TicksExact b) (hpos : 1 ≤ b.binSize) (hle : b.binSize ≤ 1000000) :
    TicksInRange b := by
  have hlast : ((b.binSize.toNat - 1 : ℕ) : ℤ) = b.binSize - 1 := by omega
  have htick : b.tick (b.binSize.toNat - 1) = b.binOffset + (b.binSize - 1) * b.binWidth := by
    rw [Binning.tick, hlast]
  refine ⟨?_, ?_, ?_⟩
  · have hfirst : b.tick 0 = b.binOffset := by simp [Binning.tick]
    rw [← hfirst, ← h.frame 0 (by omega)]
    exact timeTick_nonneg _ _ _
  · rw [← htick, ← h.frame _ (by omega)]
    exact timeTick_nonneg _ _ _
  · have hpush := h.push (b.binSize.toNat - 1) (by omega)
    rw [checkedPushTick_eq_some_iff (by omega), hlast] at hpush
    exact hpush.2.1.2

/-- The three time axes are exact if and only if the first and the last tick are not negative and the last one
is below `2 ^ 31`. -/
theorem ticksExact_iff (hpos : 1 ≤ b.binSize) (hle : b.binSize ≤ 1000000) (hoffset : Fits b.binOffset) :
    TicksExact b ↔ TicksInRange b :=
  ⟨fun h => h.inRange hpos hle, fun hr => hr.exact hle hoffset⟩

/-- Bins that run downwards, to tick 0. -/
theorem ticksExact_iff_downwards : TicksExact ⟨1000, -16, 15984⟩ :=
  (ticksExact_iff (b := ⟨1000, -16, 15984⟩) (by decide) (by decide) (by decide)).mpr (by decide)

/-- A negative offset: a frame's first tick wraps to `2 ^ 64 - 1`, a push keeps it. With wide bins it is the push
that overflows. -/
theorem not_ticksExact :
    ¬ TicksExact ⟨2, 1, -1⟩ ∧ timeTick 1 (-1) 0 = 2 ^ 64 - 1 ∧ checkedPushTick 1 (-1) 0 = some (-1) ∧
      ¬ TicksExact ⟨1000000, 3000, 0⟩ ∧ checkedPushTick 3000 0 999999 = none := by
  refine ⟨fun h => ?_, by decide, by decide, fun h => ?_, by decide⟩
  · exact absurd (h.inRange (by decide) (by decide)) (by decide)
  · exact absurd (h.inRange (by decide) (by decide)) (by decide)

end ADTimePix3.Hst
