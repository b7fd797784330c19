import ADTimePix3.Lib.Ledger
import ADTimePix3.Stream.Pairing

/-!
# Who owns an array

The arrays that frames, pushes and `releasePreviewBandArrays` take from the pool (`serval_stream.cpp`,
`histogram_io.cpp`, `ADTimePix.cpp`), from `NDArrayPool::alloc` to `release`, and `pArrays`, which holds some of
them in between. The pool and `pArrays` are there.

Whether the accumulating functions get to an allocation depends on sums and buffers that no array is part of (see
`Img/Accumulation.lean` and `Hst/Accumulation.lean`), and is an input here. The callbacks of the plugins take and
release references of their own.
-/

namespace ADTimePix3.Arrays

open Img (PixelFormat)
open ADTimePix3.Stream (ImageHeader PairMembers previewNdarrayAddressForThreshold)

inductive NDDataType where
  | NDUInt16
  | NDInt32
  | NDUInt32
  | NDInt64
  | NDUInt64
  | NDFloat64
deriving DecidableEq

/-- `NDArray`; `pData` is whether it has data. -/
structure NDArray where
  pData : Bool
  uniqueId : ℤ
  dims : List ℕ
  dataType : NDDataType

/-- What `NDArrayPool::alloc` returns. An array comes with the unique id of its last use. -/
inductive Alloc where
  | null
  | array (pData : Bool) (uniqueId : ℤ)
deriving DecidableEq

/-- The arrays allocated so far, and `pArrays`. -/
abbrev ArrayLedger := Ledger NDArray

def NDARRAY_MAX_ADDR : ℕ := 14

/-! ## Allocation and release -/

def allocate (a : ArrayLedger) (outcome : Alloc) (dims : List ℕ) (dataType : NDDataType) : ArrayLedger × Option ℕ :=
  match outcome with
  | .null => (a, none)
  | .array pData uniqueId => (a.alloc ⟨pData, uniqueId, dims, dataType⟩, some a.items.length)

/-- `p && p->pData` -/
def hasData (a : ArrayLedger) (p : Option ℕ) : Bool := (p.bind a.content).any NDArray.pData

/-- `if (p) p->release();` -/
def releaseIf (a : ArrayLedger) (p : Option ℕ) : ArrayLedger :=
  match p with
  | some id => a.release id
  | none => a

/-- Release what is in the slot, and empty it. -/
def clearSlot (a : ArrayLedger) (addr : ℕ) : ArrayLedger :=
  match a.slot addr with
  | some id => (a.release id).setSlot addr none
  | none => a

/-- The slot replacement of the line functions: what is in the slot is released, and the new array takes its
place. -/
def replaceSlot (a : ArrayLedger) (addr : ℕ) (outcome : Alloc) (dims : List ℕ) (dataType : NDDataType) :
    ArrayLedger × Option ℕ :=
  let r := allocate (releaseIf a (a.slot addr)) outcome dims dataType
  (r.1.setSlot addr r.2, r.2)

/-- An array for the plugins only: it is released behind its callback, or at once when it has no data. The
allocation need not be reached. -/
def publishArray (a : ArrayLedger) (outcome : Option Alloc) (dims : List ℕ) (dataType : NDDataType) : ArrayLedger :=
  match outcome with
  | none => a
  | some outcome =>
    let r := allocate a outcome dims dataType
    releaseIf r.1 r.2

/-! ## The preview channels -/

inductive PreviewChannel where
  | prvImg
  | prvImg1
deriving DecidableEq

namespace PreviewChannel

def ndAddrThreshold0 : PreviewChannel → ℕ
  | prvImg => 0
  | prvImg1 => 10

def ndAddrThreshold1 : PreviewChannel → ℕ
  | prvImg => 8
  | prvImg1 => 11

def ndAddrThreshDiff : PreviewChannel → ℕ
  | prvImg => 9
  | prvImg1 => 12

end PreviewChannel

/-- A line of a channel: its header, none when the line has none that can be read; whether its payload gets
there; the parameter `BothCounters`; and the outcomes of the two allocations. -/
structure PreviewLine where
  header : Option ImageHeader
  payload : Bool
  bothCounters : Bool
  image : Alloc
  diff : Alloc

/-- `width <= 0 || height <= 0 || width > 100000 || height > 100000` -/
def outOfRange (h : ImageHeader) : Bool := h.width ≤ 0 || h.height ≤ 0 || h.width > 100000 || h.height > 100000

def imageDims (h : ImageHeader) : List ℕ := [h.width.toNat, h.height.toNat]

def imageType : PixelFormat → NDDataType
  | .uint16 => .NDUInt16
  | .uint32 => .NDUInt32

/-- From a header to the image on its address: the header is returned when the image is complete. -/
def putImage (a : ArrayLedger) (addr : ℕ) (header : Option ImageHeader) (payload : Bool) (outcome : Alloc) :
    ArrayLedger × Option ImageHeader :=
  match header with
  | none => (a, none)
  | some h =>
    if outOfRange h then (a, none)
    else
      let r := replaceSlot a addr outcome (imageDims h) (imageType h.format)
      match r.2 with
      | none => (r.1, none)
      | some id =>
        if !hasData r.1 r.2 || !payload then (r.1, none)
        else (r.1.setContent id fun p => { p with uniqueId := h.frame_number }, some h)

def imageAddr (addrTh0 addrTh1 : ℕ) (header : Option ImageHeader) : ℕ :=
  (header.map fun h => previewNdarrayAddressForThreshold h.threshold_id addrTh0 addrTh1).getD addrTh0

/-- The two arrays of which `emitPreviewThresholdDiff` is going to allocate the difference. -/
def diffSources (a : ArrayLedger) (ch : PreviewChannel) (bothCounters : Bool) (lastDiffT0Frame : ℤ) :
    Option (NDArray × NDArray) :=
  if !bothCounters then none
  else
    match (a.slot ch.ndAddrThreshold0).bind a.content, (a.slot ch.ndAddrThreshold1).bind a.content with
    | some pT0, some pT1 =>
      if !pT0.pData || !pT1.pData then none
      else if pT0.uniqueId = lastDiffT0Frame then none
      else if pT0.dims.length ≠ 2 ∨ pT1.dims.length ≠ 2 ∨ pT0.dims ≠ pT1.dims then none
      else some (pT0, pT1)
    | _, _ => none

/-- `emitPreviewThresholdDiff`, with the new `lastDiffT0Frame`. -/
def emitPreviewThresholdDiff (a : ArrayLedger) (ch : PreviewChannel) (bothCounters : Bool) (outcome : Alloc)
    (lastDiffT0Frame : ℤ) : ArrayLedger × ℤ :=
  match diffSources a ch bothCounters lastDiffT0Frame with
  | none => (a, lastDiffT0Frame)
  | some (pT0, pT1) =>
    let r := allocate (clearSlot a ch.ndAddrThreshDiff) outcome pT0.dims .NDInt32
    match r.2 with
    | none => (r.1, lastDiffT0Frame)
    | some id =>
      -- an array without data is dropped here, and not released
      if !hasData r.1 r.2 then (r.1, lastDiffT0Frame)
      else
        let a := r.1.setSlot ch.ndAddrThreshDiff (some id)
        if (pT0.dataType = .NDUInt32 ∧ pT1.dataType = .NDUInt32) ∨
            (pT0.dataType = .NDUInt16 ∧ pT1.dataType = .NDUInt16) then
          (a.setContent id fun p => { p with uniqueId := pT0.uniqueId }, pT0.uniqueId)
        else ((a.release id).setSlot ch.ndAddrThreshDiff none, lastDiffT0Frame)

/-- The arrays and the pairing members. -/
structure Driver where
  arrays : ArrayLedger
  prvImg : PairMembers
  prvImg1 : PairMembers

namespace Driver

def start : Driver := ⟨Ledger.empty NDARRAY_MAX_ADDR, .start, .start⟩

def members (d : Driver) : PreviewChannel → PairMembers
  | .prvImg => d.prvImg
  | .prvImg1 => d.prvImg1

def setMembers (d : Driver) (m : PairMembers) : PreviewChannel → Driver
  | .prvImg => { d with prvImg := m }
  | .prvImg1 => { d with prvImg1 := m }

end Driver

def putPreviewImage (a : ArrayLedger) (ch : PreviewChannel) (line : PreviewLine) : ArrayLedger × Option ImageHeader :=
  putImage a (imageAddr ch.ndAddrThreshold0 ch.ndAddrThreshold1 line.header) line.header line.payload line.image

def processPreviewJsonimageLine (d : Driver) (ch : PreviewChannel) (line : PreviewLine) : Driver :=
  let r := putPreviewImage d.arrays ch line
  match r.2 with
  | none => { d with arrays := r.1 }
  | some h =>
    let m := (d.members ch).see h.frame_number h.threshold_id
    if m.2 then
      let e := emitPreviewThresholdDiff r.1 ch line.bothCounters line.diff m.1.lastDiffT0Frame
      ({ d with arrays := e.1 }).setMembers { m.1 with lastDiffT0Frame := e.2 } ch
    else ({ d with arrays := r.1 }).setMembers m.1 ch

/-- `releasePreviewBandArrays` -/
def releasePreviewBandArrays (a : ArrayLedger) : ArrayLedger := clearSlot (clearSlot a 9) 12

/-! ## The Img channel -/

/-- The allocations of a frame or of a push; none where it is not reached. -/
structure ImgAllocs where
  sum : Option Alloc
  sumN : Option Alloc

/-- An array that is kept for after the mutex is released. One without data is released at once. -/
def prepareArray (a : ArrayLedger) (outcome : Option Alloc) (dims : List ℕ) : ArrayLedger × Option ℕ :=
  match outcome with
  | none => (a, none)
  | some outcome =>
    let r := allocate a outcome dims .NDUInt64
    if hasData r.1 r.2 then r else (releaseIf r.1 r.2, none)

def processImgFrame (a : ArrayLedger) (dims : List ℕ) (allocs : ImgAllocs) : ArrayLedger :=
  let sum := prepareArray a allocs.sum dims
  let sumN := prepareArray sum.1 allocs.sumN dims
  releaseIf (releaseIf sumN.1 sum.2) sumN.2

structure ImgLine where
  header : Option ImageHeader
  payload : Bool
  accumulationEnable : Bool
  image : Alloc
  allocs : ImgAllocs

def processImgDataLine (a : ArrayLedger) (line : ImgLine) : ArrayLedger :=
  let r := putImage a (imageAddr 1 13 line.header) line.header line.payload line.image
  match r.2 with
  | none => r.1
  | some h =>
    if line.accumulationEnable && h.threshold_id ≠ 1 then processImgFrame r.1 (imageDims h) line.allocs else r.1

/-- The type of a pushed sum. -/
def outputDataType (outputType : ℤ) : NDDataType := if outputType = 1 then .NDInt32 else .NDInt64

def pushProcessedImgToPlugins (a : ArrayLedger) (dims : List ℕ) (outputType : ℤ) (allocs : ImgAllocs) : ArrayLedger :=
  let a := publishArray a allocs.sum dims (outputDataType outputType)
  publishArray a allocs.sumN dims (outputDataType outputType)

/-! ## The PrvHst channel -/

structure HstAllocs where
  sum : Option Alloc
  time : Option Alloc
  frame : Option Alloc
  sumN : Option Alloc

def processPrvHstFrame (a : ArrayLedger) (bin_size : ℕ) (allocs : HstAllocs) : ArrayLedger :=
  let a := publishArray a allocs.sum [bin_size] .NDInt64
  let a := publishArray a allocs.time [bin_size] .NDFloat64
  let a := publishArray a allocs.frame [bin_size] .NDInt32
  publishArray a allocs.sumN [bin_size] .NDInt64

def pushProcessedHstToPlugins (a : ArrayLedger) (bin_size : ℕ) (outputType : ℤ) (allocs : HstAllocs) : ArrayLedger :=
  let a := publishArray a allocs.sum [bin_size] (outputDataType outputType)
  let a := publishArray a allocs.time [bin_size] .NDFloat64
  let a := publishArray a allocs.frame [bin_size] .NDInt32
  publishArray a allocs.sumN [bin_size] (outputDataType outputType)

/-! ## Runs -/

inductive ArrayOp where
  | previewLine (ch : PreviewChannel) (line : PreviewLine)
  | imgLine (line : ImgLine)
  | prvHstFrame (bin_size : ℕ) (allocs : HstAllocs)
  | pushProcessedImg (dims : List ℕ) (outputType : ℤ) (allocs : ImgAllocs)
  | pushProcessedHst (bin_size : ℕ) (outputType : ℤ) (allocs : HstAllocs)
  | releasePreviewBandArrays
  /-- The reset of the pairing members when a measurement starts or stops. -/
  | resetPairing

def step (d : Driver) : ArrayOp → Driver
  | .previewLine ch line => processPreviewJsonimageLine d ch line
  | .imgLine line => { d with arrays := processImgDataLine d.arrays line }
  | .prvHstFrame bin_size allocs => { d with arrays := processPrvHstFrame d.arrays bin_size allocs }
  | .pushProcessedImg dims outputType allocs =>
    { d with arrays := pushProcessedImgToPlugins d.arrays dims outputType allocs }
  | .pushProcessedHst bin_size outputType allocs =>
    { d with arrays := pushProcessedHstToPlugins d.arrays bin_size outputType allocs }
  | .releasePreviewBandArrays => { d with arrays := releasePreviewBandArrays d.arrays }
  | .resetPairing => { d with prvImg := .start, prvImg1 := .start }

/-- The state after a list of operations. -/
def after (ops : List ArrayOp) : Driver := ops.foldl step .start

/-- A difference is due, and its allocation gives an array without data. -/
def Leaks (d : Driver) : ArrayOp → Prop
  | .previewLine ch line =>
    ∃ h ∈ (putPreviewImage d.arrays ch line).2,
      let m := (d.members ch).see h.frame_number h.threshold_id
      m.2 = true ∧
        (diffSources (putPreviewImage d.arrays ch line).1 ch line.bothCounters m.1.lastDiffT0Frame).isSome ∧
        ∃ uniqueId, line.diff = .array false uniqueId
  | _ => False

end ADTimePix3.Arrays
