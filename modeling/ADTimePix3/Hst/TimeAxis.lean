import ADTimePix3.Hst.Run
import ADTimePix3.Lib.MachineInt

/-!
# The time axis of a histogram

The tick numbers that `HistogramData::calculate_bin_edges`, `processPrvHstFrame` (both `histogram_io.cpp`) and
`pushProcessedHstToPlugins` (`ADTimePix.cpp`) turn into seconds or milliseconds: one formula, in `size_t`
arithmetic at the first two places and in `int` arithmetic at the third.
-/

namespace ADTimePix3.Hst

open Img (toInt32)
open MachineInt (int)

/-- The exact tick number of bin `i`. -/
def Binning.tick (b : Binning) (i : ℕ) : ℤ := b.binOffset + i * b.binWidth

/-- `binOffset + (int) i * binWidth`; there is no result when the product or the sum overflows. -/
def checkedPushTick (binWidth binOffset : ℤ) (i : ℕ) : Option ℤ := do
  let product ← int (toInt32 i * binWidth)
  int (binOffset + product)

/-- The three time axes of a binning have the exact tick numbers; so they agree, and they are increasing if the
width is positive. `pushed` is the axis of a push as `pushProcessedHstToPlugins` of `Hst/Accumulation.lean` fills it,
where an overflow wraps. -/
structure TicksExact (b : Binning) : Prop where
  edges : ∀ i < b.binSize.toNat,
    (calculate_bin_edges b.binSize.toNat b.binWidth b.binOffset)[i]?.map Int.ofNat = some (b.tick i)
  frame : ∀ i < b.binSize.toNat, timeTick b.binWidth b.binOffset i = b.tick i
  push : ∀ i < b.binSize.toNat, checkedPushTick b.binWidth b.binOffset i = some (b.tick i)
  pushed : ∀ i < b.binSize.toNat, pushTimeTick b.binWidth b.binOffset i = b.tick i
  increasing : 0 < b.binWidth → ∀ i j, i < j → j < b.binSize.toNat →
    timeTick b.binWidth b.binOffset i < timeTick b.binWidth b.binOffset j

/-- The first and the last bin are at ticks that are not negative and are `int`s. -/
def TicksInRange (b : Binning) : Prop :=
  0 ≤ b.binOffset ∧ 0 ≤ b.binOffset + (b.binSize - 1) * b.binWidth ∧
    b.binOffset + (b.binSize - 1) * b.binWidth < 2 ^ 31

instance (b : Binning) : Decidable (TicksInRange b) := inferInstanceAs (Decidable (_ ∧ _ ∧ _))

end ADTimePix3.Hst
