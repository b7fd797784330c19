import ADTimePix3.Lib.Buffers
import ADTimePix3.Lib.Counts

/-!
# Images

`ImageData` of `img_accumulation.h`. The two kinds of image the driver builds are types of their own: a
`Frame` holds the 16- or 32-bit pixels of one image, a `RunningSum` the 64-bit pixels of a sum of frames.
Both carry the size of their pixel vector, so every access below `pixelCount` is in bounds.
-/

namespace ADTimePix3.Img

open Buffers Counts

/-- `ImageData::PixelFormat`. -/
inductive PixelFormat where
  | uint16
  | uint32
deriving DecidableEq, Repr

/-- One more than the largest pixel value. -/
def PixelFormat.bound : PixelFormat → ℕ
  | uint16 => 2 ^ 16
  | uint32 => 2 ^ 32

/-- An `ImageData` of type `FRAME_DATA`. -/
structure Frame where
  width : ℕ
  height : ℕ
  format : PixelFormat
  pixels : List ℕ
  length_eq : pixels.length = width * height
  pixel_lt : ∀ p ∈ pixels, p < format.bound
deriving DecidableEq

namespace Frame

/-- `ImageData::get_pixel_count`. -/
def pixelCount (f : Frame) : ℕ := f.width * f.height

/-- Pixel `i`, row by row; `0` beyond the image. -/
def pixel (f : Frame) (i : ℕ) : ℕ := f.pixels.getD i 0

def SameSize (f g : Frame) : Prop := f.width = g.width ∧ f.height = g.height

instance (f g : Frame) : Decidable (f.SameSize g) := inferInstanceAs (Decidable (_ ∧ _))

/-- `ImageData(width, height, format, FRAME_DATA)`. -/
def blank (width height : ℕ) (format : PixelFormat) : Frame where
  width := width
  height := height
  format := format
  pixels := List.replicate (width * height) 0
  length_eq := List.length_replicate
  pixel_lt := by
    intro p hp
    rw [List.eq_of_mem_replicate hp]
    cases format <;> decide

end Frame

/-- An `ImageData` of type `RUNNING_SUM`. -/
structure RunningSum where
  width : ℕ
  height : ℕ
  pixels : List ℕ
  length_eq : pixels.length = width * height
deriving DecidableEq

namespace RunningSum

/-- `ImageData::get_pixel_count`. -/
def pixelCount (s : RunningSum) : ℕ := s.width * s.height

/-- `ImageData(width, height, format, RUNNING_SUM)`. -/
def zero (width height : ℕ) : RunningSum where
  width := width
  height := height
  pixels := List.replicate (width * height) 0
  length_eq := List.length_replicate

/-- `ImageData::add_image`: `none` is the exception thrown when the dimensions differ. -/
def addImage (s : RunningSum) (other : Frame) : Option RunningSum :=
  if h : other.width = s.width ∧ other.height = s.height then
    some
      { width := s.width
        height := s.height
        pixels := List.zipWith (satAdd (2 ^ 64)) s.pixels other.pixels
        length_eq := by
          rw [List.length_zipWith, s.length_eq, other.length_eq, h.1, h.2, Nat.min_self] }
  else none

end RunningSum

/-! ## Pixel sums -/

/-- The sum of pixel `i` over a list of frames. -/
def pixelSum (frames : List Frame) (i : ℕ) : ℕ := (frames.map fun f => f.pixel i).sum

/-- The sum of all pixels of a frame. -/
def Frame.counts (f : Frame) : ℕ := f.pixels.sum

end ADTimePix3.Img
