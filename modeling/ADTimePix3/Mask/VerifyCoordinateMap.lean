import ADTimePix3.Mask.Geometry

/-!
# The port of the index maps in the test

`bpc2img_index` and `pel_index` of `test/verify_coordinate_map.py`, branch by branch. Python's `//` and `%` round
down, so they are `Int.fdiv` and `Int.fmod` here.
-/

namespace ADTimePix3.Mask.VerifyCoordinateMap

/-- The pixel of the single-chip branch; none where the port returns `-1`. -/
def bpcSinglePel (bpcIndex w orientation : ℤ) : Option (ℤ × ℤ) :=
  if orientation = 0 then some (bpcIndex.fmod w, w - 1 - bpcIndex.fdiv w)
  else if orientation = 1 then some (bpcIndex.fdiv w, bpcIndex.fmod w)
  else if orientation = 2 then some (w - 1 - bpcIndex.fmod w, bpcIndex.fdiv w)
  else if orientation = 3 then some (w - 1 - bpcIndex.fdiv w, w - 1 - bpcIndex.fmod w)
  else if orientation = 4 then some (w - 1 - bpcIndex.fmod w, w - 1 - bpcIndex.fdiv w)
  else if orientation = 5 then some (w - 1 - bpcIndex.fdiv w, bpcIndex.fmod w)
  else if orientation = 6 then some (bpcIndex.fmod w, bpcIndex.fdiv w)
  else if orientation = 7 then some (bpcIndex.fdiv w, w - 1 - bpcIndex.fmod w)
  else none

/-- The pixel of the 2x2 branch; none where the port returns `-1`. -/
def bpcQuadPel (bpcIndex w chip orientation : ℤ) : Option (ℤ × ℤ) :=
  let chipPelCount := w * w
  if orientation = 0 then
    if chip = 0 then some (w + bpcIndex.fmod w, 2 * w - 1 - bpcIndex.fdiv w)
    else if chip = 1 then
      some (2 * w - 1 - (bpcIndex - chipPelCount).fmod w, (bpcIndex - chipPelCount).fdiv w)
    else if chip = 2 then
      some (w - 1 - (bpcIndex - 2 * chipPelCount).fmod w, (bpcIndex - 2 * chipPelCount).fdiv w)
    else if chip = 3 then
      some ((bpcIndex - 3 * chipPelCount).fmod w, 2 * w - 1 - (bpcIndex - 3 * chipPelCount).fdiv w)
    else none
  else if orientation = 3 then
    if chip = 3 then
      some (2 * w - 1 - (bpcIndex - 3 * chipPelCount).fdiv w, 2 * w - 1 - (bpcIndex - 3 * chipPelCount).fmod w)
    else if chip = 0 then some (2 * w - 1 - bpcIndex.fdiv w, bpcIndex.fmod w)
    else if chip = 1 then some ((bpcIndex - chipPelCount).fdiv w, (bpcIndex - chipPelCount).fmod w)
    else if chip = 2 then
      some ((bpcIndex - 2 * chipPelCount).fdiv w, w + (bpcIndex - 2 * chipPelCount).fmod w)
    else none
  else none

def bpc2imgIndex (bpcIndex pelWidth numChips xChips orientation : ℤ) : ℤ :=
  let w := pelWidth
  let chipPelCount := w * w
  let chip := if chipPelCount > 0 then bpcIndex.fdiv chipPelCount else 0
  if numChips = 1 then
    match bpcSinglePel bpcIndex w orientation with
    | some (i, j) => i + w * j
    | none => -1
  else if numChips = 4 then
    match bpcQuadPel bpcIndex w chip orientation with
    | some (i, j) => i + 2 * w * j
    | none => -1
  else if numChips = 8 then
    if orientation ≠ 0 then -1
    else
      let yChips := numChips.fdiv xChips
      if xChips * yChips ≠ 8 then -1
      else
        let loc := bpcIndex - chip * chipPelCount
        let lx := loc.fmod w
        let ly := loc.fdiv w
        let xChip := chip.fmod xChips
        let yChip := chip.fdiv xChips
        let i := xChip * w + lx
        let j := yChip * w + (w - 1 - ly)
        i + (xChips * w) * j
  else -1

def pelIndex (i j pelWidth numChips xChips orientation : ℤ) : ℤ :=
  let w := pelWidth
  let xChip := i.fdiv w
  let yChip := j.fdiv w
  let ii := i - w
  let jj := j - w
  if numChips = 1 then
    if orientation = 0 then i + (w - 1 - j) * w
    else if orientation = 1 then j + i * w
    else if orientation = 2 then (w - 1 - i) + j * w
    else if orientation = 3 then (w - 1 - j) + (w - 1 - i) * w
    else if orientation = 4 then (w - 1 - i) + (w - 1 - j) * w
    else if orientation = 5 then j + (w - 1 - i) * w
    else if orientation = 6 then i + j * w
    else if orientation = 7 then (w - 1 - j) + i * w
    else -1
  else if numChips = 4 then
    if orientation = 0 then
      if xChip = 1 ∧ yChip = 1 then ii - (jj - (w - 1)) * w
      else if xChip = 1 ∧ yChip = 0 then w * w + ((w - 1) - ii) + j * w
      else if xChip = 0 ∧ yChip = 0 then 2 * w * w + ((w - 1) - i) + j * w
      else if xChip = 0 ∧ yChip = 1 then 3 * w * w + i - (jj - (w - 1)) * w
      else -1
    else if orientation = 3 then
      if xChip = 1 ∧ yChip = 1 then 3 * w * w + ((w - 1) - jj) + ((w - 1) - ii) * w
      else if xChip = 1 ∧ yChip = 0 then ((w - 1) - j) + ((w - 1) - ii) * w
      else if xChip = 0 ∧ yChip = 0 then w * w + j + i * w
      else if xChip = 0 ∧ yChip = 1 then 2 * w * w + jj + i * w
      else -1
    else -1
  else if numChips = 8 then
    if orientation ≠ 0 then -1
    else
      let yChips := numChips.fdiv xChips
      if xChips * yChips ≠ 8 ∨ xChip ≥ xChips ∨ yChip ≥ yChips then -1
      else
        let lx := i - xChip * w
        let ly := j - yChip * w
        let chipIdx := yChip * xChips + xChip
        chipIdx * w * w + lx + ((w - 1) - ly) * w
  else -1

/-! ## What the port is for -/

/-- The geometries that the port has. -/
inductive Ported (w : ℤ) : Geometry → Prop where
  | single (o : ℤ) : Ported w ⟨o, 1, 1, w⟩
  | quadUp : Ported w ⟨0, 4, 2, 2 * w⟩
  | quadLeft : Ported w ⟨3, 4, 2, 2 * w⟩
  | mosaic8 (o xChips yChips : ℤ) (hx : 0 < xChips) (h8 : xChips * yChips = 8) :
      Ported w ⟨o, 8, xChips, xChips * w⟩

/-- Port and driver have the same formula for byte `k`, or both have none. -/
def BpcPorted (g : Geometry) (w k : ℤ) : Prop :=
  (g.numChips = 1 → 0 ≤ g.detOrientation ∧ g.detOrientation ≤ 7) ∧
    (g.numChips = 4 ∨ g.numChips = 8 ∧ g.detOrientation = 0 → k < fileSize g w)

/-- Port and driver have the same formula for every pixel, or both have none. -/
def PelPorted (g : Geometry) : Prop := g.numChips = 1 → 0 ≤ g.detOrientation ∧ g.detOrientation ≤ 7

end ADTimePix3.Mask.VerifyCoordinateMap
