import ADTimePix3.Lib.MachineInt
import ADTimePix3.Mask.Draw

/-!
# Drawing in machine arithmetic

`maskReset`, `maskRectangle` and `maskCircle` with the `int` arithmetic of the source (`mask_io.cpp`). The
coordinates come from process variables that nothing restricts: a sum, a product or an address that
overflows gives `none`, as an access outside the waveform does.
-/

namespace ADTimePix3.Mask

open Loops MachineInt

namespace Checked

/-- `rowsCols`; the divisions cannot overflow for a positive `RowLen`. -/
def rowsCols (g : Geometry) : Option RowsCols := do
  let rc := Mask.rowsCols g
  let cols ← int (rc.yChips * rc.chipPelWidth)
  some { rc with cols := cols }

/-- The index `j*ROWS + i`. -/
def element (rc : RowsCols) (i j : ℤ) : Option ℤ := do
  let row ← int (j * rc.rows)
  int (row + i)

def maskReset (g : Geometry) (buf : List Word) (onOff : Word) : Option (List Word) := do
  let rc ← rowsCols g
  forLoop 0 rc.rows (fun j =>
    forLoop 0 rc.cols fun i buf => do
      let k ← element rc i j
      update buf k fun _ => onOff) buf

def maskRectangle (g : Geometry) (buf : List Word) (nX nXsize nY nYsize : ℤ) (onOff : Word) :
    Option (List Word) := do
  let rc ← rowsCols g
  let yEnd ← int (nY + nYsize)
  forLoop nY yEnd (fun j buf =>
    if j < rc.rows then do
      let xEnd ← int (nX + nXsize)
      forLoop nX xEnd (fun i buf =>
        if i < rc.cols then do
          let k ← element rc i j
          update buf k (setMaskBit onOff)
        else some buf) buf
    else some buf) buf

/-- `((i - nX)*(i - nX) + (j - nY)*(j - nY)) <= nRadius*nRadius` -/
def inDisc (nX nY nRadius i j : ℤ) : Option Bool := do
  let dx ← int (i - nX)
  let dx2 ← int (dx * dx)
  let dy ← int (j - nY)
  let dy2 ← int (dy * dy)
  let d2 ← int (dx2 + dy2)
  let r2 ← int (nRadius * nRadius)
  some (d2 ≤ r2)

def maskCircle (g : Geometry) (buf : List Word) (nX nY nRadius : ℤ) (onOff : Word) :
    Option (List Word) := do
  let rc ← rowsCols g
  let yFirst ← int (nY - nRadius)
  let yLast ← int (nY + nRadius)
  forLoopLe yFirst yLast (fun j buf => do
    let xFirst ← int (nX - nRadius)
    let xLast ← int (nX + nRadius)
    forLoopLe xFirst xLast (fun i buf =>
      -- `&&` does not compute the distance of a pixel outside the bounds
      if 0 ≤ j ∧ j < rc.rows ∧ 0 ≤ i ∧ i < rc.cols then do
        if ← inDisc nX nY nRadius i j then
          let k ← element rc i j
          update buf k (setMaskBit onOff)
        else some buf
      else some buf) buf) buf

def apply (g : Geometry) (buf : List Word) : Draw → Option (List Word)
  | .reset onOff => maskReset g buf onOff
  | .rectangle nX nXsize nY nYsize onOff => maskRectangle g buf nX nXsize nY nYsize onOff
  | .circle nX nY nRadius onOff => maskCircle g buf nX nY nRadius onOff

/-- The waveform after a sequence of calls. -/
def applyAll (g : Geometry) (draws : List Draw) (value : List Word) : Option (List Word) :=
  draws.foldlM (fun buf p => apply g buf p) value

end Checked

/-! ## What a sequence of calls is to do -/

/-- A detector of chips with `w × w` pixels, `rowLen` of them in a row. -/
structure Grid (w : ℤ) (g : Geometry) : Prop where
  width_pos : 1 ≤ w
  rowLen_pos : 0 < g.rowLen
  numChips_nonneg : 0 ≤ g.numChips
  rows_eq : g.numberOfRows = g.rowLen * w

namespace Draw

def onOff : Draw → Word
  | reset onOff => onOff
  | rectangle _ _ _ _ onOff => onOff
  | circle _ _ _ onOff => onOff

def IsReset : Draw → Prop
  | reset _ => True
  | _ => False

end Draw

/-- The mask bit of pixel `(i, j)` after a sequence of calls: the last one whose shape contains it says
whether it is set. -/
def lastDrawn (draws : List Draw) (i j : ℤ) (b : Bool) : Bool :=
  draws.foldl (fun b p => if p.Covers i j then p.onOff ≠ 0 else b) b

/-- The sequence of calls runs without an overflow and without an access outside the waveform, and draws what
it is asked to. -/
structure DrawsMask (g : Geometry) (w : ℤ) (draws : List Draw) (value : List Word) : Prop where
  drawn : ∃ mask, Checked.applyAll g draws value = some mask ∧ mask.length = value.length ∧
    ∀ i j, InImage g w i j → ∃ b, bitAt value (j * imageWidth g w + i) 0 = some b ∧
      bitAt mask (j * imageWidth g w + i) 0 = some (lastDrawn draws i j b)
  /-- A rectangle and a circle change bit 0 of the pixels they cover, and nothing else. -/
  kept : ∀ before p after, draws = before ++ p :: after → ¬ p.IsReset →
    ∃ buf buf', Checked.applyAll g before value = some buf ∧ Checked.apply g buf p = some buf' ∧
      ∀ k m, (∃ i j, InImage g w i j ∧ p.Covers i j ∧ k = j * imageWidth g w + i) ∧ m = 0 ∨
        bitAt buf' k m = bitAt buf k m

/-! ## When it does -/

namespace Draw

/-- The bounds of the loops, and for a circle the distances and the radius, are values of type `int`. -/
def BoundsFit (g : Geometry) : Draw → Prop
  | reset _ => True
  | rectangle nX nXsize nY nYsize _ =>
    Fits (nY + nYsize) ∧ (0 < nYsize → nY < (rowsCols g).rows → Fits (nX + nXsize))
  | circle nX nY nRadius _ =>
    Fits (nY - nRadius) ∧ Fits (nY + nRadius) ∧
      (0 ≤ nRadius → Fits (nY + nRadius + 1) ∧ Fits (nX - nRadius) ∧ Fits (nX + nRadius + 1) ∧
        ∀ i j, (nX - nRadius ≤ i ∧ i ≤ nX + nRadius) ∧ nY - nRadius ≤ j ∧ j ≤ nY + nRadius →
          (0 ≤ j ∧ j < (rowsCols g).rows) ∧ 0 ≤ i ∧ i < (rowsCols g).cols →
          Fits ((i - nX) * (i - nX) + (j - nY) * (j - nY)) ∧ Fits (nRadius * nRadius))

/-- The call draws its shape: nothing overflows, the loops reach the covered pixels of the image and no
others, and the bit written is `OnOff != 0`. -/
structure Draws (g : Geometry) (w : ℤ) (p : Draw) : Prop where
  cols_fit : Fits (rowsCols g).cols
  bounds_fit : p.BoundsFit g
  reaches : p.Reaches g w
  element_fits : ∀ i j, InImage g w i j → p.Covers i j → Fits (j * imageWidth g w + i)
  bit_eq : p.bit = decide (p.onOff ≠ 0)

end Draw

end ADTimePix3.Mask
