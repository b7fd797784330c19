import ADTimePix3.Stream.ImageSize
import ADTimePix3.Stream.Proofs.JsonProofs
import Mathlib.Tactic.Linarith

/-!
# Sizes of an image: proofs

The product of two accepted dimensions may be as large as 10¹⁰. It is the number of pixels exactly when it is a
value of the type `int`.
-/

namespace ADTimePix3.Stream

open Img (toInt32 toUInt64 PixelFormat)
open MachineInt (Fits)

variable {format : PixelFormat} {pixel_buffer : List UInt8} {pData : List ℕ} {n : ℕ} {h : ImageHeader}

/-! ## The conversion loop -/

theorem loadPixel_eq {i : ℕ} (hbuf : (i + 1) * bytesPerPixel format ≤ pixel_buffer.length) :
    loadPixel format pixel_buffer i = some (hostPixel format pixel_buffer i) := by
  rw [loadPixel, if_pos hbuf]

theorem convertPixels_succ :
    convertPixels format (n + 1) pixel_buffer =
      convertPixels format n pixel_buffer ++ [hostPixel format pixel_buffer n] := by
  rw [convertPixels, List.range_succ, List.map_append]
  cases format with
  | uint16 => rfl
  | uint32 => rfl

theorem length_convertPixels : (convertPixels format n pixel_buffer).length = n := by
  rw [convertPixels, List.length_map, List.length_range]

/-- The loop writes the first `n` elements, in an array and from a vector that have as many. -/
theorem convertInto_eq (hbuf : n * bytesPerPixel format ≤ pixel_buffer.length) (hlen : n ≤ pData.length) :
    convertInto format n pixel_buffer pData =
      some (convertPixels format n pixel_buffer ++ pData.drop n) := by
  induction n with
  | zero => rfl
  | succ n ih =>
    have hbuf' : n * bytesPerPixel format ≤ pixel_buffer.length :=
      (Nat.mul_le_mul_right _ (Nat.le_succ n)).trans hbuf
    have hprev := ih hbuf' (by omega)
    unfold convertInto at hprev ⊢
    rw [List.range_succ, List.foldlM_append, hprev]
    have hstore : storePixel (convertPixels format n pixel_buffer ++ pData.drop n) n
        (hostPixel format pixel_buffer n) =
          some (convertPixels format (n + 1) pixel_buffer ++ pData.drop (n + 1)) := by
      have hdrop : pData.drop n = pData[n] :: pData.drop (n + 1) := List.drop_eq_getElem_cons hlen
      rw [storePixel, if_pos (by rw [List.length_append, length_convertPixels, List.length_drop]; omega),
        List.set_append_right _ _ (by rw [length_convertPixels]), length_convertPixels, Nat.sub_self, hdrop,
        List.set_cons_zero, convertPixels_succ, List.append_assoc, List.singleton_append]
    simp only [Option.bind_eq_bind, Option.bind_some, List.foldlM_cons, List.foldlM_nil, loadPixel_eq hbuf, hstore]
    rfl

/-! ## The sizes -/

theorem mul_le_of_validated (hv : h.Validated) :
    1 ≤ h.width * h.height ∧ h.width * h.height ≤ 10000000000 := by
  obtain ⟨hw, hh, hw', hh'⟩ := hv
  constructor
  · exact Int.mul_pos hw hh
  · nlinarith

theorem pixelCount_eq_iff (hv : h.Validated) :
    (h.pixelCount : ℤ) = h.width * h.height ↔ h.width * h.height < 2 ^ 31 := by
  obtain ⟨hlo, hhi⟩ := mul_le_of_validated hv
  unfold ImageHeader.pixelCount toUInt64 toInt32
  generalize h.width * h.height = x at hlo hhi
  omega

theorem binaryNeeded_of_lt (hv : h.Validated) (hlt : h.width * h.height < 2 ^ 31) :
    h.binaryNeeded = h.pixelCount * bytesPerPixel h.format := by
  have hcount := (pixelCount_eq_iff hv).mpr hlt
  have hbytes : bytesPerPixel h.format ≤ 4 := by cases h.format <;> decide
  have hprod : h.pixelCount * bytesPerPixel h.format ≤ 2 ^ 31 * 4 :=
    Nat.mul_le_mul (by omega) hbytes
  rw [ImageHeader.binaryNeeded, Nat.mod_eq_of_lt (by omega)]

theorem sizesExact_of_lt (hv : h.Validated) (hlt : h.width * h.height < 2 ^ 31) : h.SizesExact := by
  have hcount := (pixelCount_eq_iff hv).mpr hlt
  have hneeded := binaryNeeded_of_lt hv hlt
  refine ⟨hcount, ?_, fun pixel_buffer pData hbuf hlen => ?_⟩
  · rw [hneeded, Nat.cast_mul, hcount]
  · have hpData : h.pixelCount = pData.length := by omega
    rw [convertInto_eq (by rw [hbuf, hneeded]) hpData.le, hpData, List.drop_length, List.append_nil]

/-- The sizes of a header are right exactly when the number of its pixels is an `int`. An accepted header has
exact sizes exactly when it has fewer than `2 ^ 31` pixels; and nothing wraps, in the unsigned arithmetic either,
exactly when besides the product is not negative. -/
theorem sizesRight_iff (h : ImageHeader) :
    (h.SizesRight ↔ Fits (h.width * h.height)) ∧
      (h.Validated → (h.SizesExact ↔ h.width * h.height < 2 ^ 31)) ∧
      (h.checkedProduct.isSome ∧ h.pixelCount * bytesPerPixel h.format < 2 ^ 64 ↔
        0 ≤ h.width * h.height ∧ h.width * h.height < 2 ^ 31) := by
  have hproduct : h.checkedProduct.isSome ↔ Fits (h.width * h.height) := by
    unfold ImageHeader.checkedProduct MachineInt.int
    by_cases hfits : Fits (h.width * h.height) <;> simp [hfits]
  refine ⟨⟨fun hright => hproduct.mp hright.1, fun hfits => ⟨hproduct.mpr hfits, fun hv => ?_⟩⟩, ?_, ?_⟩
  · exact sizesExact_of_lt hv hfits.2
  · intro hv
    exact ⟨fun hexact => (pixelCount_eq_iff hv).mp hexact.pixelCount, sizesExact_of_lt hv⟩
  · rw [hproduct]
    have hbytes : bytesPerPixel h.format = 2 ∨ bytesPerPixel h.format = 4 := by cases h.format <;> decide
    unfold ImageHeader.pixelCount toUInt64 toInt32 Fits
    generalize h.width * h.height = x
    rcases hbytes with hbytes | hbytes
    · rw [hbytes]
      omega
    · rw [hbytes]
      omega

/-- 50000 times 50000 pixels pass the validation; the product overflows, and wrapped it gives a size that has
nothing to do with the image. -/
theorem not_sizesRight :
    ∃ h : ImageHeader, h.width = 50000 ∧ h.height = 50000 ∧ h.Validated ∧ ¬ h.SizesRight ∧ ¬ h.SizesExact := by
  refine ⟨⟨50000, 50000, .uint16, 0, 0, 0, 0⟩, rfl, rfl, by decide, fun hright => ?_, fun hexact => ?_⟩
  · exact absurd hright.1 (by decide)
  · exact absurd hexact.pixelCount (by decide)

end ADTimePix3.Stream
