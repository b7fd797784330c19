import ADTimePix3.Mask.Bpc2ImgIndex
import ADTimePix3.Mask.Draw

/-!
# Export of the masked pixels

`ADTimePix::exportMaskedPelsJsonFromBpcBuffer` (`serval_http.cpp`): the masked bytes of a BPC file are listed in a
JSON document, each with the pixel that `bpc2ImgIndex` gives for it. The document is kept as a record of its
members; `exportedAt` is the text of the current time, and `opens` says which files `std::ofstream` can open.
-/

namespace ADTimePix3.Mask

/-! ## The document -/

/-- An object of the array `masked_pels`. -/
structure PelRow where
  index : ℤ
  bpc_index : ℤ
  value : ℤ
  chip : ℤ
  lx : ℤ
  ly : ℤ
  i : ℤ
  j : ℤ
deriving DecidableEq, Repr

/-- The lists and counters of the loop. `badpixels` holds the member `Pixel` of its objects, their `Median` is
always `[1, 1]`. -/
structure PelList where
  mlist : List PelRow
  badpixels : List (ℤ × ℤ)
  counter : ℤ
  skippedUnmapped : ℤ
deriving DecidableEq, Repr

structure MaskedPelsJson where
  bpc_path : String
  num_chips : ℤ
  detector_orientation : ℤ
  chip_pel_width : ℤ
  exported_at_utc : String
  /-- `detector.type`; none when the object `detector` is left out. -/
  detector_type : Option String
  filePath : String
  fileName : String
  pels : PelList
deriving DecidableEq, Repr

/-- The parameters that are set, and the file that is written. -/
structure MaskedPelsExport where
  maskedPelsJsonPath : String
  maskedPelsCount : ℤ
  maskedPelsExportStatus : String
  written : Option MaskedPelsJson
deriving DecidableEq, Repr

/-! ## The export -/

/-- The last four characters are dropped when they are `.bpc`, in any case. -/
def stripBpcExtForMaskedJson (fileName : String) : String :=
  let chars := fileName.toList
  if chars.length < 4 then fileName
  else if (chars.drop (chars.length - 4)).map Char.toLower = ".bpc".toList then
    String.ofList (chars.take (chars.length - 4))
  else fileName

/-- One turn of the loop. -/
def exportPel (g : Geometry) (s : PelList) (pos : ℤ) (byte : Byte) : PelList :=
  let rc := rowsCols g
  let pelW := rc.chipPelWidth
  let chipPelCount := pelW * pelW
  if byte.getLsbD 0 = false then s
  else
    let chip := if chipPelCount > 0 then pos.tdiv chipPelCount else 0
    let loc := pos - chip * chipPelCount
    let lx := if chipPelCount > 0 then loc.tmod pelW else 0
    let ly := if chipPelCount > 0 then loc.tdiv pelW else 0
    let imgIdx := bpc2ImgIndex g pos pelW
    if imgIdx < 0 ∨ rc.cols ≤ 0 then { s with skippedUnmapped := s.skippedUnmapped + 1 }
    else
      let ii := imgIdx.tmod rc.cols
      let jj := imgIdx.tdiv rc.cols
      { s with
        mlist := s.mlist ++ [⟨s.counter + 1, pos, byte.toNat, chip, lx, ly, ii, jj⟩]
        badpixels := s.badpixels ++ [(ii, jj)]
        counter := s.counter + 1 }

def exportPels (g : Geometry) (bpcBuf : List Byte) : PelList :=
  bpcBuf.zipIdx.foldl (fun s (byte, pos) => exportPel g s (pos : ℕ) byte) ⟨[], [], 0, 0⟩

/-- An export that writes nothing. -/
def noExport (status : String) : MaskedPelsExport := ⟨"", 0, status, none⟩

def exportMaskedPelsJsonFromBpcBuffer (g : Geometry) (filePath fileName detType exportedAt : String)
    (opens : String → Bool) (bpcBuf : List Byte) : MaskedPelsExport :=
  if bpcBuf.length = 0 then noExport "Skipped: no BPC buffer"
  else if fileName = "" then noExport "Skipped: BPCFileName empty"
  else
    let outPath := filePath ++ stripBpcExtForMaskedJson fileName ++ "_masked_pels.json"
    let root : MaskedPelsJson :=
      { bpc_path := filePath ++ fileName
        num_chips := g.numChips
        detector_orientation := g.detOrientation
        chip_pel_width := (rowsCols g).chipPelWidth
        exported_at_utc := exportedAt
        detector_type := if detType = "" then none else some detType
        filePath := filePath
        fileName := fileName
        pels := exportPels g bpcBuf }
    if opens outPath then
      { maskedPelsJsonPath := outPath
        maskedPelsCount := root.pels.counter
        maskedPelsExportStatus :=
          if root.pels.skippedUnmapped > 0 then
            s!"OK: {root.pels.counter} masked pels, {root.pels.skippedUnmapped} index unmapped"
          else s!"OK: wrote {root.pels.counter} masked pels"
        written := some root }
    else noExport (String.ofList (("Write failed: " ++ outPath).toList.take 255))

/-! ## What the export is for -/

def MaskedPelsExport.rows (e : MaskedPelsExport) : List PelRow :=
  match e.written with
  | some root => root.pels.mlist
  | none => []

/-- The masked bytes of the detector are listed once each, with their pixels, and nothing else is. -/
structure ListsMasked (g : Geometry) (w : ℤ) (bpcBuf : List Byte) (e : MaskedPelsExport) : Prop where
  listed : ∀ k : ℤ, e.rows.countP (·.bpc_index = k) =
    if k < fileSize g w ∧ bitAt bpcBuf k 0 = some true then 1 else 0
  pixel : ∀ r ∈ e.rows, InImage g w r.i r.j ∧ pelIndex g r.i r.j = r.bpc_index
  distinct : ∀ r ∈ e.rows, ∀ r' ∈ e.rows, r.bpc_index ≠ r'.bpc_index → (r.i, r.j) ≠ (r'.i, r'.j)
  count : e.maskedPelsCount = e.rows.length

/-- Byte `k` of the detector is listed with its own pixel. On chip 0 of the LEFT quad that is the middle column of
the chip. In a mosaic, where an index of the image is decoded with the height of the image for its width, it is
the first row of the image, as far as the image is high. -/
def ListedRight (g : Geometry) (w k : ℤ) : Prop :=
  (g.numChips = 4 ∧ g.detOrientation = 3 ∧ k < w * w → 2 * (k % w) + 1 = w) ∧
    (g.numChips = 8 → k / (w * w) < g.rowLen ∧ k / (w * w) < g.numChips.tdiv g.rowLen ∧
      k % (w * w) / w = w - 1)

/-- Byte `k`, which is behind the last one of the detector, is not listed. -/
def NotListed (g : Geometry) (w k : ℤ) : Prop :=
  g.numChips = 8 ∨ g.numChips = 1 ∧ (g.detOrientation = 0 ∨ g.detOrientation = 4 ∨
    g.detOrientation = 3 ∧ w * (w - k % w) ≤ k / w ∨ g.detOrientation = 5 ∧ w * (k % w + 1) ≤ k / w)

/-- There is a file to write to. -/
def Exports (filePath fileName : String) (opens : String → Bool) : Prop :=
  fileName ≠ "" ∧ opens (filePath ++ stripBpcExtForMaskedJson fileName ++ "_masked_pels.json") = true

end ADTimePix3.Mask
