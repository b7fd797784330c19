import ADTimePix3.Lib.Loops
import ADTimePix3.Mask.PelIndex
import Mathlib.Logic.Function.Basic

/-!
# Drawing, writing and reading a mask

The mask branch of `ADTimePix::readInt32Array` and the functions it calls (`mask_io.cpp`): `maskReset`,
`maskRectangle` and `maskCircle` draw on the waveform, `MaskWrite` merges the drawn pixels into a BPC file
and `MaskPel` shows the masked pixels of one. An access outside the waveform or the file buffer gives
`none`.

The upload of the written file to the detector and the log are left out: they do not change what is modelled.
-/

namespace ADTimePix3.Mask

open Loops

/-- An element of the mask waveform (`epicsInt32`). -/
abbrev Word := BitVec 32

/-- A byte of a BPC file (`char`). -/
abbrev Byte := BitVec 8

/-! ## Files -/

inductive Node where
  | directory
  | regular (bytes : List Byte)
  | other
deriving DecidableEq, Repr

/-- The file system as the driver sees it. `readable` and `writable` say for which paths `fopen` with mode
`rb` and `wb` returns a file. -/
structure Files where
  node : String → Option Node
  readable : String → Bool
  writable : String → Bool

/-- The files after `fopen` with mode `wb`, `fwrite` and `fclose`. -/
def Files.write (files : Files) (filePath : String) (buf : List Byte) : Files :=
  { files with node := Function.update files.node filePath (some (.regular buf)) }

/-- `ADTimePix::checkFile`: `0` missing, `1` directory, `2` regular file. The codes `3` to `8` of the other
kinds are not told apart. -/
def checkFile (files : Files) (filePath : String) : ℤ :=
  match files.node filePath with
  | none => 0
  | some .directory => 1
  | some (.regular _) => 2
  | some .other => 8

/-! ## Parameters -/

/-- The parameters and the files that the mask branch reads and writes. -/
structure Driver where
  geometry : Geometry
  files : Files
  maskReset : ℤ
  maskOnOffPel : Word
  maskRectangle : ℤ
  maskCircle : ℤ
  maskMinX : ℤ
  maskSizeX : ℤ
  maskMinY : ℤ
  maskSizeY : ℤ
  maskRadius : ℤ
  maskPel : ℤ
  maskWrite : ℤ
  bpcFilePath : String
  bpcFileName : String
  maskFileName : String
  /-- `ADTimePixBPCn`: masked pixels of the BPC file read last. -/
  bpcN : ℕ

/-! ## Drawing -/

def maskReset (g : Geometry) (buf : List Word) (onOff : Word) : Option (List Word) :=
  let rc := rowsCols g
  forLoop 0 rc.rows (fun j =>
    forLoop 0 rc.cols fun i buf => update buf (j * rc.rows + i) fun _ => onOff) buf

/-- The mask bit of a drawn element: set it or clear it. -/
def setMaskBit (onOff e : Word) : Word := if onOff ≠ 0 then e ||| 1 else e &&& ~~~1

def maskRectangle (g : Geometry) (buf : List Word) (nX nXsize nY nYsize : ℤ) (onOff : Word) :
    Option (List Word) :=
  let rc := rowsCols g
  forLoop nY (nY + nYsize) (fun j buf =>
    if j < rc.rows then
      forLoop nX (nX + nXsize) (fun i buf =>
        if i < rc.cols then update buf (j * rc.rows + i) (setMaskBit onOff) else some buf) buf
    else some buf) buf

def maskCircle (g : Geometry) (buf : List Word) (nX nY nRadius : ℤ) (onOff : Word) :
    Option (List Word) :=
  let rc := rowsCols g
  forLoop (nY - nRadius) (nY + nRadius + 1) (fun j =>
    forLoop (nX - nRadius) (nX + nRadius + 1) fun i buf =>
      if 0 ≤ j ∧ j < rc.rows ∧ 0 ≤ i ∧ i < rc.cols ∧
          (i - nX) * (i - nX) + (j - nY) * (j - nY) ≤ nRadius * nRadius then
        update buf (j * rc.rows + i) (setMaskBit onOff)
      else some buf) buf

/-! ## BPC files -/

/-- `ADTimePix::readBPCfile`: the bytes of the BPC file, none if it cannot be opened. -/
def readBPCfile (d : Driver) : Driver × List Byte :=
  let fullFileName := d.bpcFilePath ++ d.bpcFileName
  match d.files.readable fullFileName, d.files.node fullFileName with
  | true, some (.regular bytes) =>
    let nMaskedPel := bytes.countP fun b => b.getLsbD 0
    ⟨{ d with bpcN := nMaskedPel }, bytes⟩
  | _, _ => ⟨d, []⟩

/-- The name under which `writeBPCfile` writes: `mask.bpc` if none is given. -/
def chosenMaskFileName (d : Driver) : String :=
  if checkFile d.files (d.bpcFilePath ++ d.maskFileName) ≠ 2 ∧ d.maskFileName = "" then "mask.bpc"
  else d.maskFileName

def writeBPCfile (d : Driver) (buf : List Byte) : Driver :=
  let d := { d with maskFileName := chosenMaskFileName d }
  let fullFileName := d.bpcFilePath ++ d.maskFileName
  if checkFile d.files d.bpcFilePath = 1 ∧ d.files.writable fullFileName then
    { d with files := d.files.write fullFileName buf }
  else d

/-- The loops of `MaskPel`: show bit 0 of the file as bit 1 of the waveform. -/
def maskPelLoops (g : Geometry) (bufBPC : List Byte) (value : List Word) : Option (List Word) :=
  let rc := rowsCols g
  forLoop 0 rc.cols (fun j =>
    forLoop 0 rc.rows fun i value =>
      let idx := j * rc.cols + i
      if idx ≥ value.length then some value
      else
        let k := pelIndex g i j
        if 0 ≤ k ∧ k < bufBPC.length then do
          let b ← fetch bufBPC k
          if b.getLsbD 0 then update value idx (· ||| 2) else some value
        else some value) value

/-- The loops of `MaskWrite`: merge bit 0 of the waveform into bit 0 of the file. -/
def maskWriteLoops (g : Geometry) (value : List Word) (bufBPC : List Byte) : Option (List Byte) :=
  let rc := rowsCols g
  forLoop 0 rc.cols (fun j =>
    forLoop 0 rc.rows fun i bufBPC => do
      let e ← fetch value (j * rc.cols + i)
      if e.getLsbD 0 then update bufBPC (pelIndex g i j) (· ||| 1) else some bufBPC) bufBPC

/-- The `ADTimePixMaskBPC` branch of `ADTimePix::readInt32Array`. -/
def readInt32Array (d : Driver) (value : List Word) : Option (Driver × List Word) :=
  if d.maskReset = 1 then do
    let value ← maskReset d.geometry value d.maskOnOffPel
    some (d, value)
  else if d.maskRectangle = 1 then do
    let value ← maskRectangle d.geometry value d.maskMinX d.maskSizeX d.maskMinY d.maskSizeY
      d.maskOnOffPel
    some (d, value)
  else if d.maskCircle = 1 then do
    let value ← maskCircle d.geometry value d.maskMinX d.maskMinY d.maskRadius d.maskOnOffPel
    some (d, value)
  else if d.maskPel = 1 then
    if checkFile d.files (d.bpcFilePath ++ d.bpcFileName) = 2 then
      let (d, bufBPC) := readBPCfile d
      if bufBPC.length > 0 then do
        let value ← maskPelLoops d.geometry bufBPC (value.map fun _ => 0)
        some (d, value)
      else some (d, value)
    else some (d, value)
  else if d.maskWrite = 1 then
    if checkFile d.files (d.bpcFilePath ++ d.bpcFileName) = 2 then do
      let (d, bufBPC) := readBPCfile d
      let bufBPC ← maskWriteLoops d.geometry value bufBPC
      some (writeBPCfile d bufBPC, value)
    else some (d, value)
  else some (d, value)

end ADTimePix3.Mask
