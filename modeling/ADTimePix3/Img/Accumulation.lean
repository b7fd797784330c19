import ADTimePix3.Img.ImageData

/-!
# Accumulation on the Img channel

The state that `imgMutex_` protects and the operations on it: `processImgFrame`, `resetImgAccumulation` and
`pushProcessedImgToPlugins` (`serval_stream.cpp`), the `ImgImageSumNFrames` branch of `readInt64Array` and
the Img branches of `writeInt32` (`ADTimePix.cpp`). An operation that runs past the end of a vector has no
result (`none`).

`processImgFrame` and the write of `ImgFramesToSum` release the mutex before they publish, so each is given
as its locked section and what it still does afterwards.

Left out: times, rates, memory figures and unique ids, which nothing here depends on, and the copies of the
counters in the parameter library.
-/

namespace ADTimePix3.Img

open Buffers Counts

/-- `static_cast<epicsInt64>` of an unsigned 64-bit value. -/
def toInt64 (x : ℕ) : ℤ := if x < 2 ^ 63 then x else x - 2 ^ 64

/-- `static_cast<epicsUInt64>` of a signed 64-bit value. -/
def toUInt64 (x : ℤ) : ℕ := (x % 2 ^ 64).toNat

/-- `static_cast<epicsInt32>`. -/
def toInt32 (x : ℤ) : ℤ := (x + 2 ^ 31) % 2 ^ 32 - 2 ^ 31

/-- The Img members of the driver. -/
structure ImgState where
  imgRunningSum : Option RunningSum
  imgFrameBuffer : List Frame
  imgCurrentFrame : Frame
  imgFramesToSum : ℤ
  imgSumUpdateIntervalFrames : ℤ
  imgFramesSinceLastSumUpdate : ℤ
  imgTotalCounts : ℕ
  imgAccumulatedFrameCount : ℕ
  imgArrayData64Buffer : List ℤ
  imgFrameArrayDataBuffer : List ℤ
  imgSumArray64Buffer : List ℤ
  imgSumArray64WorkBuffer : List ℕ

def ImgState.init : ImgState where
  imgRunningSum := none
  imgFrameBuffer := []
  imgCurrentFrame := Frame.blank 512 512 .uint16
  imgFramesToSum := 10
  imgSumUpdateIntervalFrames := 1
  imgFramesSinceLastSumUpdate := 0
  imgTotalCounts := 0
  imgAccumulatedFrameCount := 0
  imgArrayData64Buffer := []
  imgFrameArrayDataBuffer := []
  imgSumArray64Buffer := []
  imgSumArray64WorkBuffer := []

/-- An array handed to the plugins. -/
structure NDArray where
  addr : ℕ
  width : ℕ
  height : ℕ
  data : List ℤ
deriving DecidableEq

/-- Which of the two allocations of a frame or of a push succeed. -/
structure Pool where
  sum : Bool
  sumN : Bool
deriving DecidableEq

/-! ## `processImgFrame` -/

/-- Initialise the running sum, and start over when the dimensions have changed. -/
def initRunningSum (s : ImgState) (frame : Frame) : ImgState :=
  let sum := s.imgRunningSum.getD (.zero frame.width frame.height)
  if sum.width ≠ frame.width ∨ sum.height ≠ frame.height then
    { s with
      imgRunningSum := some (.zero frame.width frame.height)
      imgCurrentFrame := frame
      imgTotalCounts := 0
      imgAccumulatedFrameCount := 0 }
  else { s with imgRunningSum := some sum }

/-- `frame_total`: the counts of one frame. -/
def frameTotal (frame : Frame) : ℕ := frame.pixels.foldl (wrapAdd (2 ^ 64)) 0

/-- Add the frame to the running sum and to the counters. -/
def addFrame (s : ImgState) (frame : Frame) : Option ImgState := do
  let sum ← s.imgRunningSum
  let sum ← sum.addImage frame
  some
    { s with
      imgRunningSum := some sum
      imgCurrentFrame := frame
      imgTotalCounts := wrapAdd (2 ^ 64) s.imgTotalCounts (frameTotal frame)
      imgAccumulatedFrameCount := wrapAdd (2 ^ 64) s.imgAccumulatedFrameCount 1 }

def pushFrame (s : ImgState) (frame : Frame) : ImgState :=
  { s with
    imgFrameBuffer := trim s.imgFramesToSum.toNat (s.imgFrameBuffer ++ [frame])
    imgFramesSinceLastSumUpdate := s.imgFramesSinceLastSumUpdate + 1 }

/-- Copy the running sum for its callback; the second result is `image_data_size`. -/
def copyRunningSum (s : ImgState) : Option (ImgState × ℕ) :=
  match s.imgRunningSum with
  | none => some (s, 0)
  | some sum => do
    let buf :=
      if s.imgArrayData64Buffer.length < sum.pixelCount then
        resize 0 s.imgArrayData64Buffer sum.pixelCount
      else s.imgArrayData64Buffer
    let buf ← overwrite buf (sum.pixels.map toInt64)
    some ({ s with imgArrayData64Buffer := buf }, sum.pixelCount)

/-- Copy the current frame for its callback; the second result is `image_frame_size`. -/
def copyCurrentFrame (s : ImgState) : Option (ImgState × ℕ) :=
  let size := s.imgCurrentFrame.pixelCount
  if size > 0 then do
    let buf :=
      if s.imgFrameArrayDataBuffer.length < size then resize 0 s.imgFrameArrayDataBuffer size
      else s.imgFrameArrayDataBuffer
    let buf ← overwrite buf (s.imgCurrentFrame.pixels.map fun p : ℕ => toInt32 p)
    some ({ s with imgFrameArrayDataBuffer := buf }, size)
  else some (s, 0)

/-- Clear the work buffer and add up the buffered frames that have the dimensions of the first. -/
def sumFrames (work : List ℕ) (first : Frame) (frames : List Frame) : Option (List ℕ) := do
  let work ← overwrite work (List.replicate first.pixelCount 0)
  frames.foldlM (fun work frame =>
    if frame.width = first.width ∧ frame.height = first.height then
      combine (wrapAdd (2 ^ 64)) work frame.pixels
    else some work) work

/-- The sum of the buffered frames, of which `first` is the oldest, in the two sum buffers. Both are grown
when the work buffer is too small. -/
def recomputeSum (s : ImgState) (first : Frame) : Option ImgState := do
  let size := first.pixelCount
  let small := s.imgSumArray64WorkBuffer.length < size
  let work := if small then resize 0 s.imgSumArray64WorkBuffer size else s.imgSumArray64WorkBuffer
  let buf := if small then resize 0 s.imgSumArray64Buffer size else s.imgSumArray64Buffer
  let work ← sumFrames work first s.imgFrameBuffer
  let sums ← readFirst work size
  let buf ← overwrite buf (sums.map toInt64)
  some { s with imgSumArray64Buffer := buf, imgSumArray64WorkBuffer := work }

def ShouldUpdateSum (s : ImgState) : Prop :=
  s.imgFramesSinceLastSumUpdate ≥ s.imgSumUpdateIntervalFrames ∧ s.imgFrameBuffer ≠ []

instance (s : ImgState) : Decidable (ShouldUpdateSum s) := inferInstanceAs (Decidable (_ ∧ _))

/-- Update the sum of the last frames if it is due; the second result is `image_sum_size`. -/
def updateSum (s : ImgState) : Option (ImgState × ℕ) :=
  if ShouldUpdateSum s then
    match s.imgFrameBuffer with
    | [] => some (s, 0)
    | first :: _ => do
      let s ← recomputeSum { s with imgFramesSinceLastSumUpdate := 0 } first
      some (s, first.pixelCount)
  else some (s, 0)

/-- The array of the running sum (address 2). -/
def runningSumArray (s : ImgState) (pool : Pool) (imageDataSize : ℕ) : Option NDArray :=
  match s.imgRunningSum with
  | none => none
  | some sum =>
    if imageDataSize > 0 ∧ pool.sum then
      some ⟨2, sum.width, sum.height, sum.pixels.map Int.ofNat⟩
    else none

/-- The array of the sum of the last frames (address 3), in the shape of the current frame. -/
def sumNArray (s : ImgState) (pool : Pool) (imageSumSize : ℕ) : Option NDArray :=
  let nPixels := s.imgCurrentFrame.pixelCount
  if imageSumSize > 0 ∧ s.imgSumArray64Buffer ≠ [] ∧ s.imgSumArray64Buffer.length ≥ nPixels ∧
      pool.sumN then
    some ⟨3, s.imgCurrentFrame.width, s.imgCurrentFrame.height,
      (s.imgSumArray64Buffer.take nPixels).map fun x => (toUInt64 x : ℤ)⟩
  else none

/-- What the locked section of `processImgFrame` leaves to be published. -/
structure Published where
  imageDataSize : ℕ
  imageFrameSize : ℕ
  imageSumSize : ℕ
  pImgSumArray : Option NDArray
  pImgSumNArray : Option NDArray
deriving DecidableEq

/-- The locked section of `ADTimePix::processImgFrame`. The early return after a failed `add_image` publishes
nothing. -/
def processImgFrameLocked (s : ImgState) (frame : Frame) (pool : Pool) :
    Option (ImgState × Published) :=
  match addFrame (initRunningSum s frame) frame with
  | none => some (initRunningSum s frame, ⟨0, 0, 0, none, none⟩)
  | some s => do
    let (s, imageDataSize) ← copyRunningSum (pushFrame s frame)
    let (s, imageFrameSize) ← copyCurrentFrame s
    let (s, imageSumSize) ← updateSum s
    some (s, ⟨imageDataSize, imageFrameSize, imageSumSize, runningSumArray s pool imageDataSize,
      sumNArray s pool imageSumSize⟩)

/-- What the driver gives to its clients. -/
inductive Output where
  /-- Waveform `ImgImageData`. -/
  | imgImageData (value : List ℤ)
  /-- Waveform `ImgImageFrame`. -/
  | imgImageFrame (value : List ℤ)
  /-- Waveform `ImgImageSumNFrames`. -/
  | imgImageSumNFrames (value : List ℤ)
  /-- The value returned by a read of `ImgImageSumNFrames`. -/
  | readValue (value : List ℤ)
  /-- An array at one of the plugin addresses. -/
  | ndArray (array : NDArray)
deriving DecidableEq

/-- A waveform of a buffer, none when its size is `0`. -/
def publishWaveform (buf : List ℤ) (size : ℕ) (mk : List ℤ → Output) : Option (List Output) :=
  if size > 0 then (readFirst buf size).map fun value => [mk value] else some []

/-- The callbacks of `processImgFrame`, after the mutex is released. -/
def processImgFrameCallbacks (s : ImgState) (p : Published) : Option (List Output) := do
  let data ← publishWaveform s.imgArrayData64Buffer p.imageDataSize .imgImageData
  let frame ← publishWaveform s.imgFrameArrayDataBuffer p.imageFrameSize .imgImageFrame
  let sum ← publishWaveform s.imgSumArray64Buffer p.imageSumSize .imgImageSumNFrames
  some (data ++ frame ++ sum ++ (p.pImgSumArray.toList ++ p.pImgSumNArray.toList).map .ndArray)

def processImgFrame (s : ImgState) (frame : Frame) (pool : Pool) : Option (ImgState × List Output) := do
  let (s, p) ← processImgFrameLocked s frame pool
  let out ← processImgFrameCallbacks s p
  some (s, out)

/-! ## The other operations -/

def resetImgAccumulation (s : ImgState) : ImgState :=
  { s with
    imgRunningSum := none
    imgFrameBuffer := []
    imgTotalCounts := 0
    imgAccumulatedFrameCount := 0
    imgFramesSinceLastSumUpdate := 0 }

/-- `ADTimePix::writeInt32` of `ImgImageDataReset`. -/
def writeImageDataReset (s : ImgState) (value : ℤ) : ImgState :=
  if value = 1 then resetImgAccumulation s else s

/-- A written value is brought into the range `1` to `hi`. -/
def clampTo (hi value : ℤ) : ℤ :=
  let value := if value < 1 then 1 else value
  if value > hi then hi else value

/-- The locked section of `ADTimePix::writeInt32` of `ImgFramesToSum`. The second result is the number of
elements of the sum that are to be copied and published, if it was recalculated. -/
def writeFramesToSumLocked (s : ImgState) (value : ℤ) : Option (ImgState × Option ℕ) :=
  let framesToSum := clampTo 100000 value
  let s :=
    { s with
      imgFramesToSum := framesToSum
      imgFrameBuffer := trim framesToSum.toNat s.imgFrameBuffer }
  match s.imgFrameBuffer with
  | [] => some (s, none)
  | first :: _ => do
    let s ← recomputeSum s first
    some ({ s with imgFramesSinceLastSumUpdate := s.imgSumUpdateIntervalFrames },
      if first.pixelCount > 0 then some first.pixelCount else none)

/-- The copy of the recalculated sum, made under the mutex once more, and its callback. -/
def writeFramesToSumCopy (s : ImgState) (sumPixelCount : ℕ) : Option (List Output) :=
  (readFirst s.imgSumArray64Buffer sumPixelCount).map fun value => [.imgImageSumNFrames value]

/-- `ADTimePix::writeInt32` of `ImgFramesToSum`. -/
def writeFramesToSum (s : ImgState) (value : ℤ) : Option (ImgState × List Output) := do
  let (s, recalculated) ← writeFramesToSumLocked s value
  match recalculated with
  | none => some (s, [])
  | some sumPixelCount => do
    let out ← writeFramesToSumCopy s sumPixelCount
    some (s, out)

/-- `ADTimePix::writeInt32` of `ImgSumUpdateInterval`. -/
def writeSumUpdateInterval (s : ImgState) (value : ℤ) : ImgState :=
  { s with imgSumUpdateIntervalFrames := clampTo 10000 value }

/-- `ADTimePix::readInt64Array` of `ImgImageSumNFrames`, for `nElements` elements. Only the work buffer is
grown. -/
def readImageSumNFrames (s : ImgState) (nElements : ℕ) : Option (ImgState × List ℤ) :=
  match s.imgFrameBuffer with
  | [] => some (s, List.replicate nElements 0)
  | first :: _ => do
    let size := first.pixelCount
    let work :=
      if s.imgSumArray64WorkBuffer.length < size then resize 0 s.imgSumArray64WorkBuffer size
      else s.imgSumArray64WorkBuffer
    let work ← sumFrames work first s.imgFrameBuffer
    let elementsToCopy := min nElements size
    let sums ← readFirst work elementsToCopy
    some ({ s with imgSumArray64WorkBuffer := work },
      sums.map toInt64 ++ List.replicate (nElements - elementsToCopy) 0)

/-- The average of `n` frames as it is pushed. -/
def averagePixel (n : ℕ) (x : ℤ) : ℤ := if n > 0 then toInt32 (x.tdiv n) else 0

def pushProcessedImgToPlugins (s : ImgState) (outputType : ℤ) (arrayCallbacks : Bool) (pool : Pool) :
    Option (List Output) :=
  match s.imgRunningSum with
  | none => some []
  | some sum =>
    if arrayCallbacks then do
      let nFrames := if s.imgAccumulatedFrameCount > 0 then s.imgAccumulatedFrameCount % 2 ^ 32 else 1
      let arr2 :=
        if pool.sum then
          [Output.ndArray ⟨2, sum.width, sum.height, sum.pixels.map fun x : ℕ =>
            if outputType = 1 then averagePixel nFrames x else toInt64 x⟩]
        else []
      let nSumFrames := s.imgFrameBuffer.length
      if nSumFrames > 0 ∧ s.imgSumArray64Buffer.length ≥ sum.pixelCount ∧ pool.sumN then do
        let sumN ← readFirst s.imgSumArray64Buffer sum.pixelCount
        some (arr2 ++ [.ndArray ⟨3, sum.width, sum.height, sumN.map fun x =>
          if outputType = 1 then averagePixel (nSumFrames % 2 ^ 32) x else x⟩])
      else some arr2
    else some []

end ADTimePix3.Img
