import ADTimePix3.Mask.Geometry

/-!
# `bpc2ImgIndex`: from BPC file index to image index

`ADTimePix::bpc2ImgIndex` (`mask_io.cpp`), branch by branch. The pixel `(i, j)` it computes for one
chip and for the 2x2 quad are functions of their own.
-/

namespace ADTimePix3.Mask

/-- Single-chip branch: the pixel `(i, j)`. An unsupported orientation leaves `i = j = 0`. -/
def bpcSinglePel (detOrientation bpcIndex chipPelWidth : ℤ) : ℤ × ℤ :=
  if detOrientation = 0 then  -- UP
    (bpcIndex.tmod chipPelWidth, chipPelWidth - 1 - bpcIndex.tdiv chipPelWidth)
  else if detOrientation = 1 then  -- RIGHT
    (bpcIndex.tdiv chipPelWidth, bpcIndex.tmod chipPelWidth)
  else if detOrientation = 2 then  -- DOWN
    (chipPelWidth - 1 - bpcIndex.tmod chipPelWidth, bpcIndex.tdiv chipPelWidth)
  else if detOrientation = 3 then  -- LEFT
    (chipPelWidth - 1 - bpcIndex.tdiv chipPelWidth, chipPelWidth - 1 - bpcIndex.tmod chipPelWidth)
  else if detOrientation = 4 then  -- UP MIRRORED
    (chipPelWidth - 1 - bpcIndex.tmod chipPelWidth, chipPelWidth - 1 - bpcIndex.tdiv chipPelWidth)
  else if detOrientation = 5 then  -- RIGHT MIRRORED
    (chipPelWidth - 1 - bpcIndex.tdiv chipPelWidth, bpcIndex.tmod chipPelWidth)
  else if detOrientation = 6 then  -- DOWN MIRRORED
    (bpcIndex.tmod chipPelWidth, bpcIndex.tdiv chipPelWidth)
  else if detOrientation = 7 then  -- LEFT MIRRORED
    (bpcIndex.tdiv chipPelWidth, chipPelWidth - 1 - bpcIndex.tmod chipPelWidth)
  else (0, 0)

/-- 2x2 branch: the pixel `(i, j)`. An unsupported orientation and a chip outside `0..3` leave
`i = j = 0`; the `imgIndex = -1` of the latter is overwritten by the caller. -/
def bpcQuadPel (detOrientation bpcIndex chipPelWidth chip : ℤ) : ℤ × ℤ :=
  let chipPelCount := chipPelWidth * chipPelWidth
  if detOrientation = 0 then  -- UP
    if chip = 0 then
      (chipPelWidth + bpcIndex.tmod chipPelWidth,
        2 * chipPelWidth - 1 - bpcIndex.tdiv chipPelWidth)
    else if chip = 1 then
      (2 * chipPelWidth - 1 - (bpcIndex - chipPelCount).tmod chipPelWidth,
        (bpcIndex - chipPelCount).tdiv chipPelWidth)
    else if chip = 2 then
      (chipPelWidth - 1 - (bpcIndex - 2 * chipPelCount).tmod chipPelWidth,
        (bpcIndex - 2 * chipPelCount).tdiv chipPelWidth)
    else if chip = 3 then
      ((bpcIndex - 3 * chipPelCount).tmod chipPelWidth,
        2 * chipPelWidth - 1 - (bpcIndex - 3 * chipPelCount).tdiv chipPelWidth)
    else (0, 0)
  else if detOrientation = 3 then  -- LEFT
    if chip = 3 then
      (2 * chipPelWidth - 1 - (bpcIndex - 3 * chipPelCount).tdiv chipPelWidth,
        2 * chipPelWidth - 1 - (bpcIndex - 3 * chipPelCount).tmod chipPelWidth)
    else if chip = 0 then
      (2 * chipPelWidth - 1 - bpcIndex.tdiv chipPelWidth, bpcIndex.tmod chipPelWidth)
    else if chip = 1 then
      ((bpcIndex - chipPelCount).tdiv chipPelWidth, (bpcIndex - chipPelCount).tmod chipPelWidth)
    else if chip = 2 then
      ((bpcIndex - 2 * chipPelCount).tdiv chipPelWidth,
        chipPelWidth + (bpcIndex - 2 * chipPelCount).tmod chipPelWidth)
    else (0, 0)
  else if detOrientation = 1 then  -- RIGHT
    if chip = 1 then
      (2 * chipPelWidth - 1 - (bpcIndex - chipPelCount).tdiv chipPelWidth,
        2 * chipPelWidth - 1 - (bpcIndex - chipPelCount).tmod chipPelWidth)
    else if chip = 2 then
      (2 * chipPelWidth - 1 - (bpcIndex - 2 * chipPelCount).tdiv chipPelWidth,
        chipPelWidth - 1 - (bpcIndex - 2 * chipPelCount).tmod chipPelWidth)
    else if chip = 3 then
      ((bpcIndex - 3 * chipPelCount).tdiv chipPelWidth,
        (bpcIndex - 3 * chipPelCount).tmod chipPelWidth)
    else if chip = 0 then
      (bpcIndex.tdiv chipPelWidth, chipPelWidth + bpcIndex.tmod chipPelWidth)
    else (0, 0)
  else if detOrientation = 2 then  -- DOWN
    if chip = 2 then
      (chipPelWidth + (bpcIndex - 2 * chipPelCount).tmod chipPelWidth,
        2 * chipPelWidth - 1 - (bpcIndex - 2 * chipPelCount).tdiv chipPelWidth)
    else if chip = 3 then
      (2 * chipPelWidth - 1 - (bpcIndex - 3 * chipPelCount).tmod chipPelWidth,
        (bpcIndex - 3 * chipPelCount).tdiv chipPelWidth)
    else if chip = 0 then
      (chipPelWidth - 1 - bpcIndex.tmod chipPelWidth, bpcIndex.tdiv chipPelWidth)
    else if chip = 1 then
      ((bpcIndex - chipPelCount).tmod chipPelWidth,
        2 * chipPelWidth - 1 - (bpcIndex - chipPelCount).tdiv chipPelWidth)
    else (0, 0)
  else if detOrientation = 4 then  -- UP MIRRORED
    if chip = 3 then
      (2 * chipPelWidth - 1 - (bpcIndex - 3 * chipPelCount).tmod chipPelWidth,
        2 * chipPelWidth - 1 - (bpcIndex - 3 * chipPelCount).tdiv chipPelWidth)
    else if chip = 2 then
      (chipPelWidth + (bpcIndex - 2 * chipPelCount).tmod chipPelWidth,
        (bpcIndex - 2 * chipPelCount).tdiv chipPelWidth)
    else if chip = 1 then
      ((bpcIndex - chipPelCount).tmod chipPelWidth, (bpcIndex - chipPelCount).tdiv chipPelWidth)
    else if chip = 0 then
      (chipPelWidth - 1 - bpcIndex.tmod chipPelWidth,
        2 * chipPelWidth - 1 - bpcIndex.tdiv chipPelWidth)
    else (0, 0)
  else if detOrientation = 5 then  -- RIGHT MIRRORED
    if chip = 0 then
      (2 * chipPelWidth - 1 - bpcIndex.tdiv chipPelWidth,
        chipPelWidth + bpcIndex.tmod chipPelWidth)
    else if chip = 3 then
      (2 * chipPelWidth - 1 - (bpcIndex - 3 * chipPelCount).tdiv chipPelWidth,
        (bpcIndex - 3 * chipPelCount).tmod chipPelWidth)
    else if chip = 2 then
      ((bpcIndex - 2 * chipPelCount).tdiv chipPelWidth,
        chipPelWidth - 1 - (bpcIndex - 2 * chipPelCount).tmod chipPelWidth)
    else if chip = 1 then
      ((bpcIndex - chipPelCount).tdiv chipPelWidth,
        2 * chipPelWidth - 1 - (bpcIndex - chipPelCount).tmod chipPelWidth)
    else (0, 0)
  else if detOrientation = 6 then  -- DOWN MIRRORED
    if chip = 1 then
      (2 * chipPelWidth - 1 - (bpcIndex - chipPelCount).tmod chipPelWidth,
        2 * chipPelWidth - 1 - (bpcIndex - chipPelCount).tdiv chipPelWidth)
    else if chip = 0 then
      (chipPelWidth + bpcIndex.tmod chipPelWidth, bpcIndex.tdiv chipPelWidth)
    else if chip = 3 then
      ((bpcIndex - 3 * chipPelCount).tmod chipPelWidth,
        (bpcIndex - 3 * chipPelCount).tdiv chipPelWidth)
    else if chip = 2 then
      (chipPelWidth - 1 - (bpcIndex - 2 * chipPelCount).tmod chipPelWidth,
        2 * chipPelWidth - 1 - (bpcIndex - 2 * chipPelCount).tdiv chipPelWidth)
    else (0, 0)
  else if detOrientation = 7 then  -- LEFT MIRRORED
    if chip = 2 then
      (2 * chipPelWidth - 1 - (bpcIndex - 2 * chipPelCount).tdiv chipPelWidth,
        chipPelWidth + (bpcIndex - 2 * chipPelCount).tmod chipPelWidth)
    else if chip = 1 then
      (2 * chipPelWidth - 1 - (bpcIndex - chipPelCount).tdiv chipPelWidth,
        (bpcIndex - chipPelCount).tmod chipPelWidth)
    else if chip = 0 then
      (bpcIndex.tdiv chipPelWidth, chipPelWidth - 1 - bpcIndex.tmod chipPelWidth)
    else if chip = 3 then
      ((bpcIndex - 3 * chipPelCount).tdiv chipPelWidth,
        2 * chipPelWidth - 1 - (bpcIndex - 3 * chipPelCount).tmod chipPelWidth)
    else (0, 0)
  else (0, 0)

/-- `ADTimePix::bpc2ImgIndex`: the row-major image index of a byte of the BPC file. -/
def bpc2ImgIndex (g : Geometry) (bpcIndex chipPelWidth : ℤ) : ℤ :=
  let chipPelCount := chipPelWidth * chipPelWidth
  let chip := if chipPelCount > 0 then bpcIndex.tdiv chipPelCount else 0
  if g.numChips = 1 then
    let p := bpcSinglePel g.detOrientation bpcIndex chipPelWidth
    p.1 + chipPelWidth * p.2
  else if g.numChips = 4 then
    let p := bpcQuadPel g.detOrientation bpcIndex chipPelWidth chip
    p.1 + 2 * chipPelWidth * p.2
  else if g.numChips = 8 then
    if g.detOrientation ≠ 0 then -1
    else
      let rc := rowsCols g
      let w := rc.chipPelWidth
      if rc.xChips * rc.yChips ≠ 8 ∨ chipPelCount ≤ 0 ∨ chip < 0 ∨ chip > 7 then -1
      else
        let loc := bpcIndex - chip * chipPelCount
        let lx := loc.tmod w
        let ly := loc.tdiv w
        let xChip := chip.tmod rc.xChips
        let yChip := chip.tdiv rc.xChips
        let i := xChip * w + lx
        let j := yChip * w + (w - 1 - ly)
        i + (rc.xChips * w) * j
  else -1

end ADTimePix3.Mask
