import ADTimePix3.Hst.PrvHst

/-!
# Accumulation on the PrvHst channel

What `processPrvHstFrame` publishes once it has updated the state (`histogram_io.cpp`), and the other
operations under `prvHstMutex_`: `resetPrvHstAccumulation`, `pushProcessedHstToPlugins` and the PrvHst branches
of `writeInt32` (`ADTimePix.cpp`). An operation that runs past the end of a vector has no result (`none`).

Times are kept as tick numbers, as bin edges are: the driver multiplies them by the clock period.

Left out: times and rates of the processing, memory figures, array counters and attributes.
-/

namespace ADTimePix3.Hst

open Buffers Counts
open Img (toInt32 toInt64 toUInt64 clampTo)

/-- The PrvHst members, with the buffer of the time axis. -/
structure PrvHst where
  state : PrvHstState
  prvHstTimeMsBuffer : List ℤ

/-- The members as the constructor leaves them. -/
def PrvHst.init : PrvHst where
  state :=
    { prvHstRunningSum := none
      prvHstFrameBuffer := []
      prvHstCurrentFrame := none
      prvHstFramesToSum := 10
      prvHstSumUpdateIntervalFrames := 1
      prvHstFramesSinceLastSumUpdate := 0
      prvHstTotalCounts := 0
      prvHstFrameCount := 0
      prvHstTimeAtFrame := 0
      prvHstFrameBinSize := 0
      prvHstFrameBinWidth := 0
      prvHstFrameBinOffset := 0
      prvHstSumArray64Buffer := []
      prvHstSumArray64WorkBuffer := [] }
  prvHstTimeMsBuffer := []

/-- Which allocations of a frame or of a push succeed. -/
structure Pool where
  sumN : Bool
  sum : Bool
  frame : Bool
  time : Bool

/-- What the driver gives to its clients. -/
inductive Output where
  /-- Waveform `PrvHstHistogramSumNFrames`. -/
  | histogramSumNFrames (value : List ℤ)
  /-- Waveform `PrvHstHistogramTimeMs`. -/
  | histogramTimeMs (value : List ℤ)
  /-- Waveform `PrvHstHistogramData`. -/
  | histogramData (value : List ℤ)
  /-- Waveform `PrvHstHistogramFrame`. -/
  | histogramFrame (value : List ℤ)
  /-- An array at one of the plugin addresses. -/
  | ndArray (addr : ℕ) (data : List ℤ)
deriving DecidableEq

/-! ## `processPrvHstFrame` -/

/-- The state before the sum of the last frames is updated; `none` when the frame is dropped. -/
def addFrame (s : PrvHstState) (frame : FrameHistogram) : Option PrvHstState :=
  let s := initRunningSum s frame
  (s.prvHstRunningSum.bind fun sum => sum.add_histogram frame).map fun sum => pushFrame s sum frame

/-- `should_update_sum && !prvHstFrameBuffer_.empty()`. -/
def ShouldUpdateSum (s : PrvHstState) : Prop :=
  s.prvHstFramesSinceLastSumUpdate ≥ s.prvHstSumUpdateIntervalFrames ∧ s.prvHstFrameBuffer ≠ []

instance (s : PrvHstState) : Decidable (ShouldUpdateSum s) := inferInstanceAs (Decidable (_ ∧ _))

/-- The waveform of the sum of the last frames, when it has been updated. -/
def sumNWaveform (s : PrvHstState) (updated : Bool) : Option (List Output) :=
  match s.prvHstFrameBuffer with
  | [] => some []
  | first :: _ =>
    if updated then
      (readFirst s.prvHstSumArray64Buffer first.bin_size).map fun value => [.histogramSumNFrames value]
    else some []

/-- The time of bin `i`, in `size_t` arithmetic. -/
def timeTick (binWidth binOffset : ℤ) (i : ℕ) : ℤ :=
  ((toUInt64 binOffset + i * toUInt64 binWidth) % 2 ^ 64 : ℕ)

/-- Fill the buffer of the time axis, which has one element more than there are bins when it is grown. -/
def fillTimeMs (h : PrvHst) (bin_size : ℕ) : Option PrvHst :=
  let buf :=
    if h.prvHstTimeMsBuffer.length < bin_size + 1 then resize 0 h.prvHstTimeMsBuffer (bin_size + 1)
    else h.prvHstTimeMsBuffer
  let time := tabulate bin_size (timeTick h.state.prvHstFrameBinWidth h.state.prvHstFrameBinOffset)
  (overwrite buf time).map fun buf => { h with prvHstTimeMsBuffer := buf }

/-- The waveforms of the time axis, of the running sum and of the current frame. -/
def frameWaveforms (h : PrvHst) (sum : SumHistogram) : Option (List Output) := do
  let time ← readFirst h.prvHstTimeMsBuffer sum.bin_size
  let frame := h.state.prvHstCurrentFrame.toList.filter fun f => f.bin_size = sum.bin_size
  some ([.histogramTimeMs time, .histogramData (sum.bin_values_64.map toInt64)] ++
    frame.map fun f => .histogramFrame (f.bin_values_32.map fun v : ℕ => toInt32 v))

/-- The array of the current frame. -/
def frameArray (h : PrvHst) (sum : SumHistogram) (pool : Pool) : List Output :=
  let frame := h.state.prvHstCurrentFrame.toList.filter fun f => f.bin_size = sum.bin_size
  if pool.frame then frame.map fun f => .ndArray 6 (f.bin_values_32.map fun v : ℕ => toInt32 v) else []

/-- The array of the time axis. -/
def timeArray (h : PrvHst) (sum : SumHistogram) (pool : Pool) : Option (List Output) :=
  if pool.time ∧ h.prvHstTimeMsBuffer.length ≥ sum.bin_size then
    (readFirst h.prvHstTimeMsBuffer sum.bin_size).map fun time => [.ndArray 7 time]
  else some []

/-- The array of the sum of the last frames, when it has been updated. -/
def sumNArray (h : PrvHst) (sum : SumHistogram) (pool : Pool) (updated : Bool) : Option (List Output) :=
  if updated ∧ h.state.prvHstSumArray64Buffer.length ≥ sum.bin_size ∧ pool.sumN then
    (readFirst h.state.prvHstSumArray64Buffer sum.bin_size).map fun sumN => [.ndArray 4 sumN]
  else some []

/-- The arrays of the running sum, the time axis, the current frame and the sum of the last frames. -/
def frameArrays (h : PrvHst) (sum : SumHistogram) (arrayCallbacks : Bool) (pool : Pool) (updated : Bool) :
    Option (List Output) :=
  if arrayCallbacks ∧ sum.bin_size > 0 then do
    let sum5 := if pool.sum then [Output.ndArray 5 (sum.bin_values_64.map toInt64)] else []
    let time7 ← timeArray h sum pool
    let sum4 ← sumNArray h sum pool updated
    some (sum5 ++ time7 ++ frameArray h sum pool ++ sum4)
  else some []

/-- What `processPrvHstFrame` does after it has updated the state. -/
def publishPrvHstFrame (h : PrvHst) (arrayCallbacks : Bool) (pool : Pool) (updated : Bool) :
    Option (PrvHst × List Output) := do
  let sumN ← sumNWaveform h.state updated
  match h.state.prvHstRunningSum with
  | none => some (h, sumN)
  | some sum => do
    let h ← fillTimeMs h sum.bin_size
    let waveforms ← frameWaveforms h sum
    let arrays ← frameArrays h sum arrayCallbacks pool updated
    some (h, sumN ++ waveforms ++ arrays)

/-- The whole of `processPrvHstFrame`, with accumulation enabled. -/
def processAndPublish (h : PrvHst) (frame : FrameHistogram) (arrayCallbacks : Bool) (pool : Pool) :
    Option (PrvHst × List Output) :=
  let processed := { h with state := processPrvHstFrame true h.state frame }
  match addFrame h.state frame with
  | none => some (processed, [])
  | some added => publishPrvHstFrame processed arrayCallbacks pool (ShouldUpdateSum added)

/-! ## The other operations -/

/-- `resetPrvHstAccumulation`: zeros are published for as many bins as the last header announced. -/
def resetPrvHstAccumulation (h : PrvHst) : PrvHst × List Output :=
  let zero_bin_size := if h.state.prvHstFrameBinSize > 0 then h.state.prvHstFrameBinSize.toNat else 16000
  let zero_data := List.replicate zero_bin_size 0
  ({ state :=
      { h.state with
        prvHstRunningSum := none
        prvHstFrameBuffer := []
        prvHstFrameCount := 0
        prvHstTotalCounts := 0
        prvHstFramesSinceLastSumUpdate := 0
        prvHstSumArray64Buffer := []
        prvHstSumArray64WorkBuffer := [] }
     prvHstTimeMsBuffer := [] },
    [.histogramData zero_data, .histogramSumNFrames zero_data])

/-- `ADTimePix::writeInt32` of `PrvHstDataReset`. -/
def writeDataReset (h : PrvHst) (value : ℤ) : PrvHst × List Output :=
  if value = 1 then resetPrvHstAccumulation h else (h, [])

/-- `ADTimePix::writeInt32` of `PrvHstFramesToSum`. -/
def writeFramesToSum (s : PrvHstState) (value : ℤ) : PrvHstState :=
  let framesToSum := clampTo 100000 value
  { s with
    prvHstFramesToSum := framesToSum
    prvHstFrameBuffer := trim (toUInt64 framesToSum) s.prvHstFrameBuffer }

/-- `ADTimePix::writeInt32` of `PrvHstSumUpdateInterval`. -/
def writeSumUpdateInterval (s : PrvHstState) (value : ℤ) : PrvHstState :=
  { s with
    prvHstSumUpdateIntervalFrames := clampTo 10000 value
    prvHstFramesSinceLastSumUpdate := 0 }

/-- The time of bin `i`, in `int` arithmetic (an overflow is taken to wrap). -/
def pushTimeTick (binWidth binOffset : ℤ) (i : ℕ) : ℤ :=
  toInt32 (binOffset + toInt32 (toInt32 i * binWidth))

/-- Refresh the time axis, as far as the buffer has room for it. -/
def refreshTimeMs (h : PrvHst) (bin_size : ℕ) : Option PrvHst :=
  let time := tabulate bin_size (pushTimeTick h.state.prvHstFrameBinWidth h.state.prvHstFrameBinOffset)
  if bin_size > 0 ∧ h.prvHstTimeMsBuffer.length ≥ bin_size then
    (overwrite h.prvHstTimeMsBuffer time).map fun buf => { h with prvHstTimeMsBuffer := buf }
  else some h

/-- A value of the running sum as it is pushed: the division is unsigned. -/
def pushedSum (outputType : ℤ) (nFrames v : ℕ) : ℤ :=
  if outputType = 1 then toInt32 (v / nFrames : ℕ) else toInt64 v

/-- A value of the sum of the last frames as it is pushed: the division is signed. -/
def pushedSumN (outputType : ℤ) (nForSumN : ℕ) (x : ℤ) : ℤ :=
  if outputType = 1 then toInt32 (x.tdiv nForSumN) else x

/-- The array of the time axis, as it is pushed. -/
def pushedTimeArray (h : PrvHst) (sum : SumHistogram) (pool : Pool) : Option (List Output) :=
  if pool.time then
    (readFirst h.prvHstTimeMsBuffer sum.bin_size).map fun time => [.ndArray 7 time]
  else some []

/-- The array of the sum of the last frames, as it is pushed. -/
def pushedSumNArray (h : PrvHst) (sum : SumHistogram) (pool : Pool) (outputType : ℤ) :
    Option (List Output) :=
  let nBuf := h.state.prvHstFrameBuffer.length % 2 ^ 32
  let nForSumN := if nBuf > 0 then nBuf else 1
  if h.state.prvHstFrameBuffer ≠ [] ∧ h.state.prvHstSumArray64Buffer.length ≥ sum.bin_size ∧ pool.sumN then
    (readFirst h.state.prvHstSumArray64Buffer sum.bin_size).map fun sumN =>
      [.ndArray 4 (sumN.map (pushedSumN outputType nForSumN))]
  else some []

/-- `ADTimePix::pushProcessedHstToPlugins`. -/
def pushProcessedHstToPlugins (h : PrvHst) (outputType : ℤ) (arrayCallbacks : Bool) (pool : Pool) :
    Option (PrvHst × List Output) :=
  match h.state.prvHstRunningSum with
  | none => some (h, [])
  | some sum =>
    if arrayCallbacks then do
      let h ← refreshTimeMs h sum.bin_size
      let nFrames := if h.state.prvHstFrameCount > 0 then h.state.prvHstFrameCount else 1
      if sum.bin_size > 0 then do
        let sum5 :=
          if pool.sum then [Output.ndArray 5 (sum.bin_values_64.map (pushedSum outputType nFrames))] else []
        let time7 ← pushedTimeArray h sum pool
        let sum4 ← pushedSumNArray h sum pool outputType
        some (h, sum5 ++ time7 ++ frameArray h sum pool ++ sum4)
      else some (h, [])
    else some (h, [])

end ADTimePix3.Hst
