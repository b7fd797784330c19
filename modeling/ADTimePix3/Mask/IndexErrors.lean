import ADTimePix3.Mask.Bpc2ImgIndex
import ADTimePix3.Mask.Layout
import ADTimePix3.Mask.PelIndex

/-!
# Errors of the index maps

`bpc2ImgIndex` and `pelIndex` report an index or a pixel they have no place for by `-1`. Here is what they owe their
callers, which only test for a negative value, and when they give it.
-/

namespace ADTimePix3.Mask

open Square

/-- Chips across and down of a layout that is supported, by the number of chips and the orientation. -/
def chipGrid (g : Geometry) : Option (ℤ × ℤ) :=
  if g.numChips = 1 ∧ 0 ≤ g.detOrientation ∧ g.detOrientation ≤ 7 then some (1, 1)
  else if g.numChips = 4 ∧ 0 ≤ g.detOrientation ∧ g.detOrientation ≤ 7 then some (2, 2)
  else if g.numChips = 8 ∧ g.detOrientation = 0 ∧ g.rowLen * g.numChips.tdiv g.rowLen = 8 then
    some (g.rowLen, g.numChips.tdiv g.rowLen)
  else none

/-- The chips are `w` pixels wide. -/
structure ChipWidth (g : Geometry) (w : ℤ) : Prop where
  rowLen_pos : 0 < g.rowLen
  one_le : 1 ≤ w
  chipPelWidth : (rowsCols g).chipPelWidth = w

/-! ## The contract -/

/-- The byte is one of the detector. -/
def InFile (g : Geometry) (w k : ℤ) : Prop := (chipGrid g).isSome ∧ 0 ≤ k ∧ k < fileSize g w

/-- The pixel is one of the detector. -/
def OnGrid (g : Geometry) (w i j : ℤ) : Prop :=
  ∃ t ∈ chipGrid g, InRect (t.1 * w) (t.2 * w) (i, j)

instance (g : Geometry) (w k : ℤ) : Decidable (InFile g w k) := inferInstanceAs (Decidable (_ ∧ _))

instance (g : Geometry) (w i j : ℤ) : Decidable (OnGrid g w i j) :=
  inferInstanceAs (Decidable (∃ t ∈ chipGrid g, InRect (t.1 * w) (t.2 * w) (i, j)))

/-- What is expected of an index map: a place of the file for what is valid, `-1` for all else. -/
def Contract (g : Geometry) (w : ℤ) (valid : Prop) (index : ℤ) : Prop :=
  (valid → 0 ≤ index ∧ index < fileSize g w) ∧ (¬ valid → index = -1)

/-! ## Where it is kept -/

/-- A byte outside a single chip that comes to lie one place in front of the image. -/
def BpcSingleBefore (o w k : ℤ) : Prop :=
  o = 0 ∧ k = w * w + (w - 1) ∨ (o = 1 ∨ o = 2) ∧ k = -w ∨ o = 3 ∧ k.tdiv w = w * (w - k.tmod w) ∨
    o = 4 ∧ k = w * w ∨ o = 5 ∧ k.tdiv w = w * (k.tmod w + 1) ∨ o = 6 ∧ k = -1 ∨
    o = 7 ∧ k.tdiv w = -(w * (w - 1 - k.tmod w)) - 1

/-- A byte that the detector has not, and for which `bpc2ImgIndex` is `-1`. -/
def BpcRefused (g : Geometry) (w k : ℤ) : Prop :=
  if g.numChips = 1 then BpcSingleBefore g.detOrientation w k
  else if g.numChips = 4 then g.detOrientation = 3 ∧ k = -1 ∧ 2 ≤ w
  else if g.numChips = 8 then chipGrid g = none ∨ k ≤ -(w * w) ∨ fileSize g w ≤ k
  else True

/-- A pixel outside the quad that comes to lie one place in front of chip 0. -/
def PelQuadBefore (o w i j : ℤ) : Prop :=
  o = 1 ∧ i = -1 ∧ j = 2 * w - 1 ∨ o = 2 ∧ i = 0 ∧ j = -1 ∨ o = 6 ∧ i = 2 * w - 1 ∧ j = -1 ∨
    o = 7 ∧ i = -1 ∧ j = 0

/-- A pixel outside the mosaic that comes to lie one place in front of chip 0, with `xChips` chips across. -/
def PelMosaicBefore (xChips w i j : ℤ) : Prop :=
  0 ≤ j ∧ j % w = w - 1 ∧ i = -(j / w * xChips * w) - 1 ∨ i = xChips * w - 1 ∧ j = -w ∨
    2 ≤ w ∧ (i = -w - 1 ∧ j = -1 ∨ xChips = 1 ∧ i = -1 ∧ j = -w - 1)

/-- A pixel that the detector has not, and for which `pelIndex` is `-1`. -/
def PelRefused (g : Geometry) (w i j : ℤ) : Prop :=
  if g.numChips = 1 then
    -- the pixel is turned back to orientation UP
    let p := (orientSym g.detOrientation).inv.act w (i, j)
    0 ≤ g.detOrientation ∧ g.detOrientation ≤ 7 ∧ p.1 + 1 = w * (p.2 + 1 - w)
  else if g.numChips = 4 then
    0 ≤ g.detOrientation ∧ g.detOrientation ≤ 7 ∧
      (2 * w ≤ i ∨ 2 * w ≤ j ∨ 2 ≤ w ∧ PelQuadBefore g.detOrientation w i j)
  else if g.numChips = 8 then
    ∀ t ∈ chipGrid g, t.1 * w ≤ i ∨ t.2 * w ≤ j ∨ PelMosaicBefore t.1 w i j
  else False

end ADTimePix3.Mask
