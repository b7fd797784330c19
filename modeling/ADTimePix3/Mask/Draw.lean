import ADTimePix3.Mask.MaskIO

/-!
# What drawing a mask is for

A mask is built by a sequence of draws, written into a BPC file and shown again. Here the draws are
operations on the pixels of the image, and `MaskAgree` says what writing and reading owe to them: pixel
`(i, j)` of the drawing is the byte `pelIndex i j` of the file, and the element `j * width + i` of what is
shown.
-/

namespace ADTimePix3.Mask

open Loops

inductive Draw where
  | reset (onOff : Word)
  | rectangle (nX nXsize nY nYsize : ℤ) (onOff : Word)
  | circle (nX nY nRadius : ℤ) (onOff : Word)
deriving DecidableEq, Repr

namespace Draw

/-- The draw stays within the image. A circle may reach over the edge, its centre may not. -/
def InRange (g : Geometry) (w : ℤ) : Draw → Prop
  | reset _ => True
  | rectangle nX nXsize nY nYsize _ =>
    0 ≤ nX ∧ 0 ≤ nXsize ∧ nX + nXsize ≤ imageWidth g w ∧
      0 ≤ nY ∧ 0 ≤ nYsize ∧ nY + nYsize ≤ imageHeight g w
  | circle nX nY nRadius _ => InImage g w nX nY ∧ 0 ≤ nRadius

def Covers : Draw → ℤ → ℤ → Prop
  | reset _, _, _ => True
  | rectangle nX nXsize nY nYsize _, i, j =>
    (nX ≤ i ∧ i < nX + nXsize) ∧ nY ≤ j ∧ j < nY + nYsize
  | circle nX nY nRadius _, i, j =>
    (i - nX) * (i - nX) + (j - nY) * (j - nY) ≤ nRadius * nRadius

instance (p : Draw) (i j : ℤ) : Decidable (p.Covers i j) := by
  cases p <;> unfold Covers <;> infer_instance

/-- The covered pixels that the loops of a draw come to before they test for the end of the image. -/
def Visits : Draw → ℤ → ℤ → Prop
  | reset _, i, j => 0 ≤ i ∧ 0 ≤ j
  | rectangle _ _ _ _ _, _, _ => True
  | circle _ _ nRadius _, i, j => 0 ≤ i ∧ 0 ≤ j ∧ 0 ≤ nRadius

/-- Of the pixels that a draw covers, its loops reach those of the image and no others. -/
def Reaches (g : Geometry) (w : ℤ) (p : Draw) : Prop :=
  ∀ i j, p.Covers i j →
    ((p.Visits i j ∧ i < (rowsCols g).cols ∧ j < (rowsCols g).rows) ↔ InImage g w i j)

/-- The mask bit that a draw gives to the pixels it covers. -/
def bit : Draw → Bool
  | reset onOff => onOff.getLsbD 0
  | rectangle _ _ _ _ onOff => onOff ≠ 0
  | circle _ _ _ onOff => onOff ≠ 0

/-- The call that draws. -/
def apply (g : Geometry) (buf : List Word) : Draw → Option (List Word)
  | reset onOff => maskReset g buf onOff
  | rectangle nX nXsize nY nYsize onOff => maskRectangle g buf nX nXsize nY nYsize onOff
  | circle nX nY nRadius onOff => maskCircle g buf nX nY nRadius onOff

/-- The parameters with which a draw is requested. -/
def request (d : Driver) : Draw → Driver
  | reset onOff => { d with maskReset := 1, maskOnOffPel := onOff }
  | rectangle nX nXsize nY nYsize onOff =>
    { d with maskReset := 0, maskRectangle := 1, maskMinX := nX, maskSizeX := nXsize,
             maskMinY := nY, maskSizeY := nYsize, maskOnOffPel := onOff }
  | circle nX nY nRadius onOff =>
    { d with maskReset := 0, maskRectangle := 0, maskCircle := 1, maskMinX := nX, maskMinY := nY,
             maskRadius := nRadius, maskOnOffPel := onOff }

end Draw

namespace Driver

/-- The waveform after a sequence of draw requests. -/
def drawAll (d : Driver) (draws : List Draw) (value : List Word) : Option (List Word) :=
  draws.foldlM (fun value p => (readInt32Array (p.request d) value).map (·.2)) value

/-- The parameters with which writing is requested. -/
def requestWrite (d : Driver) : Driver :=
  { d with maskReset := 0, maskRectangle := 0, maskCircle := 0, maskPel := 0, maskWrite := 1 }

/-- The path that `writeBPCfile` writes to. -/
def maskPath (d : Driver) : String := d.bpcFilePath ++ chosenMaskFileName d

/-- The parameters with which reading the mask file is requested. -/
def requestRead (d : Driver) : Driver :=
  { d with maskReset := 0, maskRectangle := 0, maskCircle := 0, maskPel := 1,
           bpcFileName := d.maskFileName }

/-- The BPC file is `file`, and the mask file can be written next to it and read again. -/
structure Ready (d : Driver) (file : List Byte) : Prop where
  bpc_node : d.files.node (d.bpcFilePath ++ d.bpcFileName) = some (.regular file)
  bpc_readable : d.files.readable (d.bpcFilePath ++ d.bpcFileName) = true
  path_node : d.files.node d.bpcFilePath = some .directory
  mask_writable : d.files.writable d.maskPath = true
  mask_readable : d.files.readable d.maskPath = true

end Driver

/-- The bit that a sequence of draws leaves on pixel `(i, j)`: that of the last draw that covers it. -/
def drawnBit (draws : List Draw) (i j : ℤ) (b : Bool) : Bool :=
  draws.foldl (fun b p => if p.Covers i j then p.bit else b) b

/-- Bit `m` of element `k` of an array. -/
def bitAt {n : ℕ} (buf : List (BitVec n)) (k : ℤ) (m : ℕ) : Option Bool :=
  (fetch buf k).map fun x => x.getLsbD m

/-- `mask` is the drawing of `draws` on `value`: bit 0 of element `j * width + i` is what the draws left on
pixel `(i, j)`. -/
def Drawn (g : Geometry) (w : ℤ) (draws : List Draw) (value mask : List Word) : Prop :=
  ∀ i j, InImage g w i j → ∃ b, bitAt value (j * imageWidth g w + i) 0 = some b ∧
    bitAt mask (j * imageWidth g w + i) 0 = some (drawnBit draws i j b)

/-- `file'` is `file` with the drawing merged into it: bit 0 of byte `pelIndex i j` is its old value or the
bit drawn on `(i, j)`, every other bit is kept. -/
structure Merged (g : Geometry) (w : ℤ) (draws : List Draw) (value : List Word)
    (file file' : List Byte) : Prop where
  masked : ∀ i j, InImage g w i j → ∃ old b,
    bitAt file (pelIndex g i j) 0 = some old ∧
    bitAt value (j * imageWidth g w + i) 0 = some b ∧
    bitAt file' (pelIndex g i j) 0 = some (old || drawnBit draws i j b)
  kept : ∀ k m, m ≠ 0 → bitAt file' k m = bitAt file k m

/-- `shown` shows `file`: bit 1 of element `j * width + i` is bit 0 of byte `pelIndex i j`. -/
def Shown (g : Geometry) (w : ℤ) (file : List Byte) (shown : List Word) : Prop :=
  ∀ i j, InImage g w i j → ∃ b, bitAt file (pelIndex g i j) 0 = some b ∧
    bitAt shown (j * imageWidth g w + i) 1 = some b

/-- Drawing, writing and reading back agree on a detector: whatever is drawn on whatever waveform, writing
it merges the drawing into the file, and reading the written file shows it. -/
def MaskAgree (g : Geometry) (w : ℤ) : Prop :=
  ∀ (d : Driver) (file : List Byte) (value value' : List Word) (draws : List Draw),
    d.geometry = g → d.Ready file → (file.length : ℤ) = fileSize g w →
    (value.length : ℤ) = fileSize g w → (value'.length : ℤ) = fileSize g w →
    (∀ p ∈ draws, p.InRange g w) →
    ∃ mask d' file' d'' shown,
      d.drawAll draws value = some mask ∧
      readInt32Array d.requestWrite mask = some (d', mask) ∧
      d'.files.node d.maskPath = some (.regular file') ∧
      Merged g w draws value file file' ∧
      readInt32Array d'.requestRead value' = some (d'', shown) ∧
      Shown g w file' shown

end ADTimePix3.Mask
