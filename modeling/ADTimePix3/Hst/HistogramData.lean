import ADTimePix3.Lib.Counts
import ADTimePix3.Img.Accumulation

/-!
# Histograms

`HistogramData` of `histogram_io.h`. A `FrameHistogram` holds the 32-bit bins of one frame, a `SumHistogram`
the 64-bit bins of a sum of frames. Bin edges are kept as the tick numbers that the driver multiplies by the
clock period.
-/

namespace ADTimePix3.Hst

open Counts
open Img (toUInt64)

/-- A `HistogramData` of type `FRAME_DATA`. -/
structure FrameHistogram where
  bin_edges : List ℕ
  bin_values_32 : List ℕ
  value_lt : ∀ v ∈ bin_values_32, v < 2 ^ 32
deriving DecidableEq

/-- A `HistogramData` of type `RUNNING_SUM`. -/
structure SumHistogram where
  bin_edges : List ℕ
  bin_values_64 : List ℕ
deriving DecidableEq

/-- `calculate_bin_edges`: `bin_size + 1` edges, in `size_t` arithmetic. -/
def calculate_bin_edges (bin_size : ℕ) (bin_width bin_offset : ℤ) : List ℕ :=
  (List.range (bin_size + 1)).map fun i => (toUInt64 bin_offset + i * toUInt64 bin_width) % 2 ^ 64

namespace FrameHistogram

def bin_size (h : FrameHistogram) : ℕ := h.bin_values_32.length

end FrameHistogram

namespace SumHistogram

def bin_size (h : SumHistogram) : ℕ := h.bin_values_64.length

/-- An empty running sum with the bin edges of a frame. -/
def zero (frame : FrameHistogram) : SumHistogram where
  bin_edges := frame.bin_edges
  bin_values_64 := List.replicate frame.bin_size 0

/-- `add_histogram`: `none` is the exception thrown when the bin sizes differ. -/
def add_histogram (s : SumHistogram) (other : FrameHistogram) : Option SumHistogram :=
  if other.bin_size = s.bin_size then
    some { s with bin_values_64 := List.zipWith (satAdd (2 ^ 64)) s.bin_values_64 other.bin_values_32 }
  else none

end SumHistogram

end ADTimePix3.Hst
