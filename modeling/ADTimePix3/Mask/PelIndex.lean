import ADTimePix3.Mask.Geometry

/-!
# `pelIndex`: from image pixel to BPC file index

`ADTimePix::pelIndex` (`mask_io.cpp`), branch by branch.
-/

namespace ADTimePix3.Mask

/-- Single-chip branch of `pelIndex`; an unsupported orientation gives `0`. -/
def pelSingleIndex (detOrientation pelWidth i j : ℤ) : ℤ :=
  if detOrientation = 0 then i + ((pelWidth - 1) - j) * pelWidth  -- UP
  else if detOrientation = 1 then j + i * pelWidth  -- RIGHT
  else if detOrientation = 2 then ((pelWidth - 1) - i) + j * pelWidth  -- DOWN
  else if detOrientation = 3 then  -- LEFT
    ((pelWidth - 1) - j) + ((pelWidth - 1) - i) * pelWidth
  else if detOrientation = 4 then  -- UP MIRRORED
    ((pelWidth - 1) - i) + ((pelWidth - 1) - j) * pelWidth
  else if detOrientation = 5 then j + ((pelWidth - 1) - i) * pelWidth  -- RIGHT MIRRORED
  else if detOrientation = 6 then i + j * pelWidth  -- DOWN MIRRORED
  else if detOrientation = 7 then ((pelWidth - 1) - j) + i * pelWidth  -- LEFT MIRRORED
  else 0

/-- 2x2 branch of `pelIndex`. A tile beyond the 2x2 grid gives `-1`, a tile with a negative coordinate
and an unsupported orientation give `0`. -/
def pelQuadIndex (detOrientation pelWidth xChip yChip i j : ℤ) : ℤ :=
  let ii := i - pelWidth
  let jj := j - pelWidth
  let other := if xChip > 1 ∨ yChip > 1 then -1 else 0
  if detOrientation = 0 then  -- UP
    if xChip = 1 ∧ yChip = 1 then ii - (jj - (pelWidth - 1)) * pelWidth
    else if xChip = 1 ∧ yChip = 0 then
      pelWidth * pelWidth + ((pelWidth - 1) - ii) + j * pelWidth
    else if xChip = 0 ∧ yChip = 0 then
      2 * pelWidth * pelWidth + ((pelWidth - 1) - i) + j * pelWidth
    else if xChip = 0 ∧ yChip = 1 then
      3 * pelWidth * pelWidth + i - (jj - (pelWidth - 1)) * pelWidth
    else other
  else if detOrientation = 3 then  -- LEFT
    if xChip = 1 ∧ yChip = 1 then
      3 * pelWidth * pelWidth + ((pelWidth - 1) - jj) + ((pelWidth - 1) - ii) * pelWidth
    else if xChip = 1 ∧ yChip = 0 then
      ((pelWidth - 1) - j) + ((pelWidth - 1) - ii) * pelWidth
    else if xChip = 0 ∧ yChip = 0 then pelWidth * pelWidth + j + i * pelWidth
    else if xChip = 0 ∧ yChip = 1 then 2 * pelWidth * pelWidth + jj + i * pelWidth
    else other
  else if detOrientation = 1 then  -- RIGHT
    if xChip = 1 ∧ yChip = 1 then
      pelWidth * pelWidth + ((pelWidth - 1) - jj) + ((pelWidth - 1) - ii) * pelWidth
    else if xChip = 1 ∧ yChip = 0 then
      2 * pelWidth * pelWidth + ((pelWidth - 1) - j) + ((pelWidth - 1) - ii) * pelWidth
    else if xChip = 0 ∧ yChip = 0 then 3 * pelWidth * pelWidth + j + i * pelWidth
    else if xChip = 0 ∧ yChip = 1 then jj + i * pelWidth
    else other
  else if detOrientation = 2 then  -- DOWN
    if xChip = 1 ∧ yChip = 1 then
      2 * pelWidth * pelWidth + ii + ((pelWidth - 1) - jj) * pelWidth
    else if xChip = 1 ∧ yChip = 0 then
      3 * pelWidth * pelWidth + ((pelWidth - 1) - ii) + j * pelWidth
    else if xChip = 0 ∧ yChip = 0 then ((pelWidth - 1) - i) + j * pelWidth
    else if xChip = 0 ∧ yChip = 1 then
      pelWidth * pelWidth + i + ((pelWidth - 1) - jj) * pelWidth
    else other
  else if detOrientation = 4 then  -- UP MIRRORED
    if xChip = 1 ∧ yChip = 1 then
      3 * pelWidth * pelWidth + ((pelWidth - 1) - ii) + ((pelWidth - 1) - jj) * pelWidth
    else if xChip = 1 ∧ yChip = 0 then 2 * pelWidth * pelWidth + ii + j * pelWidth
    else if xChip = 0 ∧ yChip = 0 then pelWidth * pelWidth + i + j * pelWidth
    else if xChip = 0 ∧ yChip = 1 then ((pelWidth - 1) - i) + ((pelWidth - 1) - jj) * pelWidth
    else other
  else if detOrientation = 5 then  -- RIGHT MIRRORED
    if xChip = 1 ∧ yChip = 1 then jj + ((pelWidth - 1) - ii) * pelWidth
    else if xChip = 1 ∧ yChip = 0 then
      3 * pelWidth * pelWidth + j + ((pelWidth - 1) - ii) * pelWidth
    else if xChip = 0 ∧ yChip = 0 then
      2 * pelWidth * pelWidth + ((pelWidth - 1) - j) + i * pelWidth
    else if xChip = 0 ∧ yChip = 1 then
      pelWidth * pelWidth + ((pelWidth - 1) - jj) + i * pelWidth
    else other
  else if detOrientation = 6 then  -- DOWN MIRRORED
    if xChip = 1 ∧ yChip = 1 then
      pelWidth * pelWidth + ((pelWidth - 1) - ii) + ((pelWidth - 1) - jj) * pelWidth
    else if xChip = 1 ∧ yChip = 0 then ii + j * pelWidth
    else if xChip = 0 ∧ yChip = 0 then 3 * pelWidth * pelWidth + i + j * pelWidth
    else if xChip = 0 ∧ yChip = 1 then
      2 * pelWidth * pelWidth + ((pelWidth - 1) - i) + ((pelWidth - 1) - jj) * pelWidth
    else other
  else if detOrientation = 7 then  -- LEFT MIRRORED
    if xChip = 1 ∧ yChip = 1 then
      2 * pelWidth * pelWidth + jj + ((pelWidth - 1) - ii) * pelWidth
    else if xChip = 1 ∧ yChip = 0 then
      pelWidth * pelWidth + j + ((pelWidth - 1) - ii) * pelWidth
    else if xChip = 0 ∧ yChip = 0 then ((pelWidth - 1) - j) + i * pelWidth
    else if xChip = 0 ∧ yChip = 1 then
      3 * pelWidth * pelWidth + ((pelWidth - 1) - jj) + i * pelWidth
    else other
  else 0

/-- `ADTimePix::pelIndex`: the byte of the BPC file that belongs to pixel `(i, j)`. An unsupported chip
count gives `0`. -/
def pelIndex (g : Geometry) (i j : ℤ) : ℤ :=
  let xChip := (findChip g i j).1
  let yChip := (findChip g i j).2.1
  let pelWidth := (findChip g i j).2.2
  if g.numChips = 1 then pelSingleIndex g.detOrientation pelWidth i j
  else if g.numChips = 4 then pelQuadIndex g.detOrientation pelWidth xChip yChip i j
  else if g.numChips = 8 then
    if g.detOrientation ≠ 0 then -1
    else
      let rc := rowsCols g
      let pel := rc.chipPelWidth
      if rc.xChips * rc.yChips ≠ 8 ∨ pel ≤ 0 ∨ xChip ≥ rc.xChips ∨ yChip ≥ rc.yChips then -1
      else
        let lx := i - xChip * pel
        let ly := j - yChip * pel
        let chipIdx := yChip * rc.xChips + xChip
        chipIdx * pel * pel + lx + ((pel - 1) - ly) * pel
  else 0

end ADTimePix3.Mask
