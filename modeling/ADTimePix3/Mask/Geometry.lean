import Mathlib.Algebra.Order.Ring.Int

/-!
# Chip geometry

The driver parameters that the mask code reads, and `rowsCols` / `findChip` of `mask_io.cpp`. An image
pixel is `(i, j)`, with `i` the column and `j` the row, counted from the top left.

Integers are `ℤ`, and C++ division truncates, so `/` and `%` of the source are `Int.tdiv` and
`Int.tmod` here.
-/

namespace ADTimePix3.Mask

/-- The parameters the coordinate maps depend on. -/
structure Geometry where
  /-- `ADTimePixDetectorOrientation`: `0` UP, `1` RIGHT, `2` DOWN, `3` LEFT, `4`–`7` mirrored. -/
  detOrientation : ℤ
  /-- `ADTimePixNumberOfChips`. -/
  numChips : ℤ
  /-- `ADTimePixRowLen`. -/
  rowLen : ℤ
  /-- `ADTimePixNumberOfRows`. -/
  numberOfRows : ℤ
deriving DecidableEq, Repr

structure RowsCols where
  rows : ℤ
  cols : ℤ
  xChips : ℤ
  yChips : ℤ
  chipPelWidth : ℤ
deriving DecidableEq, Repr

def rowsCols (g : Geometry) : RowsCols :=
  let xChips := g.rowLen
  let yChips := g.numChips.tdiv g.rowLen
  let chipPelWidth := g.numberOfRows.tdiv g.rowLen
  { rows := g.numberOfRows
    cols := yChips * chipPelWidth
    xChips := xChips
    yChips := yChips
    chipPelWidth := chipPelWidth }

/-- `ADTimePix::findChip`: the tile of pixel `(x, y)` and the width of a chip. -/
def findChip (g : Geometry) (x y : ℤ) : ℤ × ℤ × ℤ :=
  let pelWidth := (rowsCols g).chipPelWidth
  (x.tdiv pelWidth, y.tdiv pelWidth, pelWidth)

/-! ## Supported geometries -/

/-- The geometries the coordinate maps are written for, with chips of `w × w` pixels: a single chip,
the 2x2 quad (both in any of the eight orientations), and eight chips in orientation UP. -/
inductive Supported (w : ℤ) : Geometry → Prop where
  | single (o : ℤ) (ho : 0 ≤ o) (ho' : o ≤ 7) : Supported w ⟨o, 1, 1, w⟩
  | quad (o : ℤ) (ho : 0 ≤ o) (ho' : o ≤ 7) : Supported w ⟨o, 4, 2, 2 * w⟩
  | mosaic8 (xChips yChips : ℤ) (hx : 0 < xChips) (h8 : xChips * yChips = 8) :
      Supported w ⟨0, 8, xChips, xChips * w⟩

def imageWidth (g : Geometry) (w : ℤ) : ℤ := g.rowLen * w

def imageHeight (g : Geometry) (w : ℤ) : ℤ := g.numChips.tdiv g.rowLen * w

/-- Number of bytes of a BPC file: one byte for each pixel of each chip. -/
def fileSize (g : Geometry) (w : ℤ) : ℤ := g.numChips * w * w

def InImage (g : Geometry) (w i j : ℤ) : Prop :=
  0 ≤ i ∧ i < imageWidth g w ∧ 0 ≤ j ∧ j < imageHeight g w

end ADTimePix3.Mask
