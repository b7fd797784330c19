import ADTimePix3.Img.Accumulation
import ADTimePix3.Lib.MachineInt
import ADTimePix3.Mask.Draw

/-!
# The buffer of a BPC file

The branches of `ADTimePix::readInt32Array` (`mask_io.cpp`) that look into a BPC file: `MaskPel` and `MaskWrite` of
the mask, and the branch of `ADTimePixBPC`. The file has any size, the waveform any length, and the geometry is
whatever its parameters say. An access outside the buffer or the waveform has no result (`none`), and neither has a
division that C++ does not define. Sums and products of `int`s wrap; a `char` has a sign.
-/

namespace ADTimePix3.Mask.Bpc

open Loops MachineInt
open Img (toInt32)

/-! ## The file -/

/-- What `malloc` and `fread` leave of the bytes of a file: none when there is no memory. -/
structure Reader where
  read : List Byte → Option (List Byte)
  length_eq : ∀ {bytes buffer}, read bytes = some buffer → buffer.length = bytes.length

/-- The loop of `readBPCfile` over the buffer. Its variable, an `int`, has to get to the size of the file. -/
def nMaskedPel (buffer : List Byte) : Option ℕ := do
  let n ← forLoop 0 buffer.length (fun i n => do
    let b ← fetch buffer i
    some (if b.getLsbD 0 then n + 1 else n)) 0
  let _ ← int buffer.length
  some n

/-- `readBPCfile`. No buffer and a buffer of no bytes are the same to what follows. -/
def readBPCfile (r : Reader) (d : Driver) : Option (Driver × List Byte) :=
  let fullFileName := d.bpcFilePath ++ d.bpcFileName
  match d.files.readable fullFileName, d.files.node fullFileName with
  | true, some (.regular bytes) =>
    match r.read bytes with
    | none => some (d, [])
    | some buffer => do
      let n ← nMaskedPel buffer
      some ({ d with bpcN := n }, buffer)
  | _, _ => some (d, [])

/-! ## The geometry -/

/-- The quotient of two `int`s. -/
def divide (a b : ℤ) : Option ℤ := if b = 0 ∨ (a = -2 ^ 31 ∧ b = -1) then none else some (a.tdiv b)

def rowsCols (g : Geometry) : Option RowsCols := do
  let yChips ← divide g.numChips g.rowLen
  let chipPelWidth ← divide g.numberOfRows g.rowLen
  some
    { rows := g.numberOfRows
      cols := toInt32 (yChips * chipPelWidth)
      xChips := g.rowLen
      yChips := yChips
      chipPelWidth := chipPelWidth }

def findChip (g : Geometry) (x y : ℤ) : Option (ℤ × ℤ × ℤ) := do
  let rc ← rowsCols g
  let xChip ← divide x rc.chipPelWidth
  let yChip ← divide y rc.chipPelWidth
  some (xChip, yChip, rc.chipPelWidth)

/-- `pelIndex`, of sums and products but for `findChip`. -/
def pelIndex (g : Geometry) (i j : ℤ) : Option ℤ := do
  let _ ← findChip g i j
  some (toInt32 (Mask.pelIndex g i j))

/-! ## The branches -/

/-- A pixel in the loops of `MaskPel`; `idx` is a `size_t`. -/
def maskPelPel (g : Geometry) (rc : RowsCols) (bufBPC : List Byte) (i j : ℤ) (value : List Word) :
    Option (List Word) :=
  let idx := j * rc.cols + i
  if idx ≥ value.length then some value
  else do
    let k ← pelIndex g i j
    if 0 ≤ k ∧ k < bufBPC.length then do
      let b ← fetch bufBPC k
      if b.getLsbD 0 then update value idx (· ||| 2) else some value
    else some value

def maskPelLoops (g : Geometry) (rc : RowsCols) (bufBPC : List Byte) (value : List Word) : Option (List Word) :=
  forLoop 0 rc.cols (fun j => forLoop 0 rc.rows fun i => maskPelPel g rc bufBPC i j) value

def maskPel (r : Reader) (d : Driver) (value : List Word) : Option (Driver × List Word) :=
  if checkFile d.files (d.bpcFilePath ++ d.bpcFileName) = 2 then do
    let (d, bufBPC) ← readBPCfile r d
    let rc ← rowsCols d.geometry
    if bufBPC.length > 0 then do
      let value ← maskPelLoops d.geometry rc bufBPC (value.map fun _ => 0)
      some (d, value)
    else some (d, value)
  else some (d, value)

/-- A pixel in the loops of `MaskWrite`; the index into the waveform is an `int`. -/
def maskWritePel (g : Geometry) (rc : RowsCols) (value : List Word) (i j : ℤ) (bufBPC : List Byte) :
    Option (List Byte) := do
  let e ← fetch value (toInt32 (j * rc.cols + i))
  if e.getLsbD 0 then do
    let k ← pelIndex g i j
    update bufBPC k (· ||| 1)
  else some bufBPC

def maskWriteLoops (g : Geometry) (rc : RowsCols) (value : List Word) (bufBPC : List Byte) : Option (List Byte) :=
  forLoop 0 rc.cols (fun j => forLoop 0 rc.rows fun i => maskWritePel g rc value i j) bufBPC

/-- `writeBPCfile` writes as many bytes as were read. -/
def maskWrite (r : Reader) (d : Driver) (value : List Word) : Option (Driver × List Word) :=
  if checkFile d.files (d.bpcFilePath ++ d.bpcFileName) = 2 then do
    let (d, bufBPC) ← readBPCfile r d
    let rc ← rowsCols d.geometry
    let bufBPC ← maskWriteLoops d.geometry rc value bufBPC
    some (writeBPCfile d bufBPC, value)
  else some (d, value)

/-- `value[i] = bufBPC[i]`, and bit 8 for a masked pixel. -/
def element (b : Byte) : Word := if b.getLsbD 0 then b.signExtend 32 ||| 256 else b.signExtend 32

def bpcLoop (bufBPC : List Byte) (value : List Word) : Option (List Word) :=
  forLoop 0 value.length (fun i value => do
    let b ← fetch bufBPC i
    update value i fun _ => element b) value

def bpc (r : Reader) (d : Driver) (value : List Word) : Option (Driver × List Word) :=
  if checkFile d.files (d.bpcFilePath ++ d.bpcFileName) = 2 then do
    let (d, bufBPC) ← readBPCfile r d
    if bufBPC.length > 0 then do
      let value ← bpcLoop bufBPC value
      some (d, value)
    else some (d, value)
  else some (d, value)

inductive Reason where
  | maskBPC
  | bpc
deriving DecidableEq

/-- One of the switches that draw is on; these come first. -/
def Drawing (d : Driver) : Prop := d.maskReset = 1 ∨ d.maskRectangle = 1 ∨ d.maskCircle = 1

instance (d : Driver) : Decidable (Drawing d) := inferInstanceAs (Decidable (_ ∨ _))

def readInt32Array (r : Reader) (reason : Reason) (d : Driver) (value : List Word) : Option (Driver × List Word) :=
  match reason with
  | .maskBPC =>
    if Drawing d then Mask.readInt32Array d value
    else if d.maskPel = 1 then maskPel r d value
    else if d.maskWrite = 1 then maskWrite r d value
    else some (d, value)
  | .bpc => bpc r d value

/-! ## What is expected of them -/

def fileBytes (d : Driver) : List Byte :=
  match d.files.node (d.bpcFilePath ++ d.bpcFileName) with
  | some (.regular bytes) => bytes
  | _ => []

/-- The buffer that `readBPCfile` returns, as long as it says. -/
def bufBPC (r : Reader) (d : Driver) : List Byte :=
  if d.files.readable (d.bpcFilePath ++ d.bpcFileName) then (r.read (fileBytes d)).getD [] else []

/-- The byte as an unsigned number, and 256 if its bit 0 is set. -/
def expected (b : Byte) : ℕ := b.toNat + if b.getLsbD 0 then 256 else 0

/-- A call that does not draw makes no access outside the buffer and the waveform; and that of `ADTimePixBPC` gives
for each byte that the file has and the waveform has room for what is expected. -/
def Right (r : Reader) (reason : Reason) (d : Driver) (value : List Word) : Prop :=
  (reason = .maskBPC ∧ Drawing d) ∨
    ∃ d' value', readInt32Array r reason d value = some (d', value') ∧
      (reason = .bpc → checkFile d.files (d.bpcFilePath ++ d.bpcFileName) = 2 →
        ∀ i b, i < value.length → i < (bufBPC r d).length → (fileBytes d)[i]? = some b →
          value'[i]? = some (BitVec.ofNat 32 (expected b)))

/-! ## When it is so -/

/-- The two divisions of `rowsCols` are defined. -/
def Divides (g : Geometry) : Prop :=
  g.rowLen ≠ 0 ∧ (g.rowLen = -1 → g.numChips ≠ -2 ^ 31 ∧ g.numberOfRows ≠ -2 ^ 31)

/-- The number of columns, as an `int`. -/
def cols (g : Geometry) : ℤ := toInt32 (Mask.rowsCols g).cols

/-- The last index of `MaskWrite` is one of the waveform, and each pixel that is drawn in it has a byte in the
buffer. -/
structure WriteFits (g : Geometry) (value : List Word) (bufBPC : List Byte) : Prop where
  last_lt : (cols g - 1) * cols g + (g.numberOfRows - 1) < min (value.length : ℤ) (2 ^ 31)
  drawn : ∀ i j, (0 ≤ i ∧ i < g.numberOfRows) → (0 ≤ j ∧ j < cols g) →
    ∀ e, fetch value (j * cols g + i) = some e → e.getLsbD 0 →
      0 ≤ toInt32 (Mask.pelIndex g i j) ∧ toInt32 (Mask.pelIndex g i j) < bufBPC.length

/-- The waveform is no longer than the file, and what it has room for was read right and has no byte above 127. -/
structure BpcFits (file bufBPC : List Byte) (value : List Word) : Prop where
  length_le : value.length ≤ bufBPC.length
  bytes : ∀ i b, i < value.length → file[i]? = some b → bufBPC[i]? = some b ∧ b.toNat < 128

def Harmless (r : Reader) (reason : Reason) (d : Driver) (value : List Word) : Prop :=
  (reason = .maskBPC ∧ Drawing d) ∨
    (checkFile d.files (d.bpcFilePath ++ d.bpcFileName) = 2 →
      match reason with
      | .maskBPC =>
        if d.maskPel = 1 then (bufBPC r d).length < 2 ^ 31 ∧ Divides d.geometry
        else if d.maskWrite = 1 then
          (bufBPC r d).length < 2 ^ 31 ∧ Divides d.geometry ∧
            (0 < d.geometry.numberOfRows → 0 < cols d.geometry → WriteFits d.geometry value (bufBPC r d))
        else True
      | .bpc =>
        (bufBPC r d).length < 2 ^ 31 ∧ (0 < (bufBPC r d).length → BpcFits (fileBytes d) (bufBPC r d) value))

/-! ## Drawing, writing and reading back -/

/-- Every byte is read. -/
def exactReader : Reader where
  read := some
  length_eq h := Option.some.inj h ▸ rfl

/-- `MaskAgree` of these branches: on top of what it says, writing the drawing and reading the file again make no
access outside the buffer and the waveform, and divide by nothing that is zero. -/
def CheckedAgree (g : Geometry) (w : ℤ) : Prop :=
  ∀ (d : Driver) (file : List Byte) (value value' : List Word) (draws : List Draw),
    d.geometry = g → d.Ready file → (file.length : ℤ) = fileSize g w →
    (value.length : ℤ) = fileSize g w → (value'.length : ℤ) = fileSize g w →
    (∀ p ∈ draws, p.InRange g w) →
    ∃ mask d' file' d'' shown,
      d.drawAll draws value = some mask ∧
      readInt32Array exactReader .maskBPC d.requestWrite mask = some (d', mask) ∧
      d'.files.node d.maskPath = some (.regular file') ∧
      Merged g w draws value file file' ∧
      readInt32Array exactReader .maskBPC d'.requestRead value' = some (d'', shown) ∧
      Shown g w file' shown

end ADTimePix3.Mask.Bpc
