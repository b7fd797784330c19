import ADTimePix3.Lib.MachineInt
import ADTimePix3.Stream.Pairing

/-!
# The band-pass image and its address

`emitPreviewThresholdDiff` (`serval_stream.cpp`) with the arrays on its three addresses: what it computes pixel by
pixel, and what it leaves on the address of the difference when it gives up. `Stream.Pairing` has the same
function as a part of the pairing of images, where the earlier difference does not matter.

The signed subtraction of the pixels is a parameter `arith`, the machine's value for the exact one: `int`, where
an overflow has no result, or `wrap`, what the compiler makes of it.
-/

namespace ADTimePix3.Stream.BandPass

open Img (toInt32 PixelFormat)
open MachineInt (Fits)

/-- The array of an image: as many pixels as the dimensions say, each in the range of its type. `pData` may be
null. -/
structure SourceArray where
  dataType : PixelFormat
  dims : List ℕ
  uniqueId : ℤ
  pData : Option (List ℕ)
  length_eq : ∀ data ∈ pData, data.length = dims.prod
  pixel_lt : ∀ data ∈ pData, ∀ t ∈ data, t < 2 ^ (8 * bytesPerPixel dataType)

/-- The array of a difference. -/
structure DiffArray where
  dims : List ℕ
  uniqueId : ℤ
  data : List ℤ
  clipped : Bool

/-- `pArrays` at `addrT0`, `addrT1` and `addrDiff`, and the member `lastDiffT0Frame` of the stream. -/
structure Slots where
  pT0 : Option SourceArray
  pT1 : Option SourceArray
  pDiff : Option DiffArray
  lastDiffT0Frame : ℤ

/-- Two's complement. -/
def wrap (x : ℤ) : Option ℤ := some (toInt32 x)

section Pixels

variable (arith : ℤ → Option ℤ) (clipDiff : Bool)

/-- `static_cast<int32_t>(t0[i]) - static_cast<int32_t>(t1[i])`, clipped at zero. -/
def diffPixel (t0 t1 : ℕ) : Option ℤ :=
  (arith (toInt32 t0 - toInt32 t1)).map fun d => if clipDiff then (if d > 0 then d else 0) else d

/-- The loop over the pixels; there is no result when it reads past the end of an array. -/
def diffPixels (pixel_count : ℕ) (t0 t1 : List ℕ) : Option (List ℤ) :=
  (List.range pixel_count).mapM fun i => do
    let a ← t0[i]?
    let b ← t1[i]?
    diffPixel arith clipDiff a b

end Pixels

/-- The two arrays with their data, once the checks before the allocation are passed. -/
def sources (settings : DiffSettings) (s : Slots) : Option (SourceArray × SourceArray × List ℕ × List ℕ) :=
  if !settings.bothCounters then none
  else
    match s.pT0, s.pT1 with
    | some pT0, some pT1 =>
      match pT0.pData, pT1.pData with
      | some t0, some t1 =>
        if pT0.uniqueId = s.lastDiffT0Frame then none
        else if pT0.dims.length ≠ 2 ∨ pT1.dims.length ≠ 2 ∨ pT0.dims ≠ pT1.dims then none
        else some (pT0, pT1, t0, t1)
      | _, _ => none
    | _, _ => none

/-- What `emitPreviewThresholdDiff` leaves, and whether it has emitted a difference. -/
structure Emission where
  emitted : Bool
  slots : Slots

def emitPreviewThresholdDiff (arith : ℤ → Option ℤ) (settings : DiffSettings) (s : Slots) : Option Emission :=
  match sources settings s with
  | none => some ⟨false, s⟩
  | some (pT0, pT1, t0, t1) =>
    -- the old difference is released before anything else can fail
    let s := { s with pDiff := none }
    if !settings.alloc then some ⟨false, s⟩
    else if pT0.dataType = pT1.dataType then
      (diffPixels arith settings.clipDiff pT0.dims.prod t0 t1).map fun data =>
        ⟨true,
          { s with
            pDiff := some ⟨pT0.dims, pT0.uniqueId, data, settings.clipDiff⟩
            lastDiffT0Frame := pT0.uniqueId }⟩
    else some ⟨false, s⟩

/-- The array holds an image of the pairing model. -/
structure Represents (array : SourceArray) (image : Image) : Prop where
  dataType_eq : array.dataType = image.dataType
  dims_eq : array.dims = [image.width.toNat, image.height.toNat]
  uniqueId_eq : array.uniqueId = image.uniqueId
  pData_eq : array.pData = some image.pixels
  dims_nonneg : 0 ≤ image.width ∧ 0 ≤ image.height

/-! ## What is expected of it -/

/-- The value of a pixel of the difference. -/
def exactPixel (clipDiff : Bool) (t0 t1 : ℕ) : ℤ := if clipDiff then max 0 ((t0 : ℤ) - t1) else (t0 : ℤ) - t1

/-- A pixel is exact whenever the exact value is an `int32_t`; a clipped one is zero for `T0 <= T1` only. -/
def PixelRight (clipDiff : Bool) (t0 t1 : ℕ) (d : ℤ) : Prop :=
  (Fits (exactPixel clipDiff t0 t1) → d = exactPixel clipDiff t0 t1) ∧ (clipDiff = true → (d = 0 ↔ t0 ≤ t1))

/-- The difference of two arrays: of their dimensions, with a right pixel for each pair of pixels. -/
structure IsDifference (clipDiff : Bool) (pT0 pT1 : SourceArray) (t0 t1 : List ℕ) (diff : DiffArray) : Prop where
  dims_eq : diff.dims = pT0.dims ∧ diff.dims = pT1.dims
  pixels : List.Forall₂ (fun (p : ℕ × ℕ) d => PixelRight clipDiff p.1 p.2 d) (t0.zip t1) diff.data
  length_eq : diff.data.length = diff.dims.prod

/-- A difference is emitted that is right, or the address of the difference and `lastDiffT0Frame` are left as
they were. -/
def DiffRight (arith : ℤ → Option ℤ) (settings : DiffSettings) (s : Slots) : Prop :=
  ∃ r, emitPreviewThresholdDiff arith settings s = some r ∧
    if r.emitted then
      ∃ pT0 pT1 t0 t1 diff, s.pT0 = some pT0 ∧ s.pT1 = some pT1 ∧ pT0.pData = some t0 ∧ pT1.pData = some t1 ∧
        r.slots.pDiff = some diff ∧ IsDifference settings.clipDiff pT0 pT1 t0 t1 diff
    else r.slots.pDiff = s.pDiff ∧ r.slots.lastDiffT0Frame = s.lastDiffT0Frame

/-! ## When it goes right -/

/-- A pair of pixels whose signed subtraction gives what is expected: the difference does not overflow, or it is
wrong where nothing is expected. -/
def PixelSafe (clipDiff : Bool) (t0 t1 : ℕ) : Prop :=
  (t0 < 2 ^ 31 ↔ t1 < 2 ^ 31) ∨ (clipDiff = false ∧ ¬ Fits ((t0 : ℤ) - t1))

/-- The same, when an overflow wraps. -/
def PixelSafeWrapped (clipDiff : Bool) (t0 t1 : ℕ) : Prop := clipDiff = false ∨ Fits ((t0 : ℤ) - t1)

/-- Once the checks before the allocation are passed, either the address of the difference is empty or nothing
fails any more, and if nothing fails all pairs of pixels are safe. -/
def Harmless (safe : Bool → ℕ → ℕ → Prop) (settings : DiffSettings) (s : Slots) : Prop :=
  ∀ pT0 pT1 t0 t1, sources settings s = some (pT0, pT1, t0, t1) →
    if settings.alloc ∧ pT0.dataType = pT1.dataType then ∀ p ∈ t0.zip t1, safe settings.clipDiff p.1 p.2
    else s.pDiff = none

end ADTimePix3.Stream.BandPass
