import ADTimePix3.Lib.MachineInt
import ADTimePix3.Stream.JsonImage

/-!
# Sizes of an image

The size arithmetic of `processPreviewJsonimageLine` and `processImgDataLine` (`serval_stream.cpp`), which form
the product of the dimensions as `int`s before they look at the dimensions, and the conversion loop over the
data of the array, with every access checked.
-/

namespace ADTimePix3.Stream

open Img (PixelFormat)

/-- `pixels[i]` in host byte order. -/
def hostPixel (format : PixelFormat) (pixel_buffer : List UInt8) (i : ℕ) : ℕ :=
  match format with
  | .uint16 => bswap16 (word16 pixel_buffer i)
  | .uint32 => bswap32 (word32 pixel_buffer i)

/-- Read `pixels[i]`; there is no result when the vector ends before it. -/
def loadPixel (format : PixelFormat) (pixel_buffer : List UInt8) (i : ℕ) : Option ℕ :=
  if (i + 1) * bytesPerPixel format ≤ pixel_buffer.length then some (hostPixel format pixel_buffer i) else none

/-- `pData[i] = value`; there is no result when `i` is outside the array. -/
def storePixel (pData : List ℕ) (i value : ℕ) : Option (List ℕ) :=
  if i < pData.length then some (pData.set i value) else none

/-- `for (size_t i = 0; i < pixel_count; ++i)` over the data of the array. -/
def convertInto (format : PixelFormat) (pixel_count : ℕ) (pixel_buffer : List UInt8) (pData : List ℕ) :
    Option (List ℕ) :=
  (List.range pixel_count).foldlM
    (fun pData i => (loadPixel format pixel_buffer i).bind (storePixel pData i)) pData

namespace ImageHeader

/-- The driver's validation of the dimensions. -/
def Validated (h : ImageHeader) : Prop :=
  0 < h.width ∧ 0 < h.height ∧ h.width ≤ 100000 ∧ h.height ≤ 100000

instance (h : ImageHeader) : Decidable h.Validated := inferInstanceAs (Decidable (_ ∧ _))

/-- The `int` product `width * height`; there is no result when it overflows. -/
def checkedProduct (h : ImageHeader) : Option ℤ := MachineInt.int (h.width * h.height)

/-- The sizes are those of the image, and the conversion loop writes the elements of an array of that size: all
of them, and no others. -/
structure SizesExact (h : ImageHeader) : Prop where
  pixelCount : (h.pixelCount : ℤ) = h.width * h.height
  binaryNeeded : (h.binaryNeeded : ℤ) = h.width * h.height * bytesPerPixel h.format
  converts : ∀ (pixel_buffer : List UInt8) (pData : List ℕ), pixel_buffer.length = h.binaryNeeded →
    (pData.length : ℤ) = h.width * h.height →
      convertInto h.format h.pixelCount pixel_buffer pData =
        some (convertPixels h.format pData.length pixel_buffer)

/-- The size arithmetic of a header: a product that does not overflow, and exact sizes when the header is
accepted. -/
def SizesRight (h : ImageHeader) : Prop := h.checkedProduct.isSome ∧ (h.Validated → h.SizesExact)

end ImageHeader

end ADTimePix3.Stream
