import ADTimePix3.Hst.HistogramData
import ADTimePix3.Lib.Buffers
import ADTimePix3.Stream.ByteOrder
import ADTimePix3.Stream.JsonImage

/-!
# Histograms from the jsonhisto stream

`processPrvHstDataLine` and `processPrvHstFrame` (`histogram_io.cpp`).

Left out: the callbacks and arrays that `processPrvHstFrame` publishes after it has updated the state, times
and rates, and the copies of the counters in the parameter library.
-/

namespace ADTimePix3.Hst

open Buffers Counts Memory
open Img (toInt64)
open ADTimePix3.Stream (Env Json Line LineResult NetworkClient)

/-- The PrvHst members of the driver. -/
structure PrvHstState where
  prvHstRunningSum : Option SumHistogram
  prvHstFrameBuffer : List FrameHistogram
  prvHstCurrentFrame : Option FrameHistogram
  prvHstFramesToSum : ℤ
  prvHstSumUpdateIntervalFrames : ℤ
  prvHstFramesSinceLastSumUpdate : ℤ
  prvHstTotalCounts : ℕ
  prvHstFrameCount : ℕ
  prvHstTimeAtFrame : ℚ
  prvHstFrameBinSize : ℤ
  prvHstFrameBinWidth : ℤ
  prvHstFrameBinOffset : ℤ
  prvHstSumArray64Buffer : List ℤ
  prvHstSumArray64WorkBuffer : List ℕ

/-! ## `processPrvHstFrame` -/

/-- Initialise the running sum, and start over when the bin size has changed. -/
def initRunningSum (s : PrvHstState) (frame : FrameHistogram) : PrvHstState :=
  let sum := s.prvHstRunningSum.getD (.zero frame)
  if sum.bin_size ≠ frame.bin_size then
    { s with
      prvHstRunningSum := some (.zero frame)
      prvHstFrameCount := 0
      prvHstTotalCounts := 0
      prvHstFrameBuffer := []
      prvHstFramesSinceLastSumUpdate := 0 }
  else { s with prvHstRunningSum := some sum }

/-- Count the frame and put it in the frame buffer. -/
def pushFrame (s : PrvHstState) (sum : SumHistogram) (frame : FrameHistogram) : PrvHstState :=
  { s with
    prvHstRunningSum := some sum
    prvHstFrameCount := wrapAdd (2 ^ 64) s.prvHstFrameCount 1
    prvHstCurrentFrame := some frame
    prvHstTotalCounts := wrapAdd (2 ^ 64) s.prvHstTotalCounts (frame.bin_values_32.sum % 2 ^ 64)
    prvHstFrameBuffer := trim (Img.toUInt64 s.prvHstFramesToSum) (s.prvHstFrameBuffer ++ [frame])
    prvHstFramesSinceLastSumUpdate := s.prvHstFramesSinceLastSumUpdate + 1 }

/-- Sum the frame buffer when the interval is over. -/
def updateSum (s : PrvHstState) : PrvHstState :=
  match s.prvHstFrameBuffer with
  | [] => s
  | first :: _ =>
    if s.prvHstFramesSinceLastSumUpdate ≥ s.prvHstSumUpdateIntervalFrames then
      let n := first.bin_size
      let grow := s.prvHstSumArray64WorkBuffer.length < n
      let work := if grow then resize 0 s.prvHstSumArray64WorkBuffer n else s.prvHstSumArray64WorkBuffer
      let out := if grow then resize 0 s.prvHstSumArray64Buffer n else s.prvHstSumArray64Buffer
      let frames := s.prvHstFrameBuffer.filter fun f => f.bin_size = n
      let sums := frames.foldl (fun sums f => List.zipWith (wrapAdd (2 ^ 64)) sums f.bin_values_32)
        (List.replicate n 0)
      { s with
        prvHstFramesSinceLastSumUpdate := 0
        prvHstSumArray64WorkBuffer := sums ++ work.drop n
        prvHstSumArray64Buffer := sums.map toInt64 ++ out.drop n }
    else s

/-- `processPrvHstFrame`. A frame that cannot be added is dropped. -/
def processPrvHstFrame (accumulationEnable : Bool) (s : PrvHstState) (frame : FrameHistogram) : PrvHstState :=
  if accumulationEnable then
    let s := initRunningSum s frame
    match s.prvHstRunningSum.bind fun sum => sum.add_histogram frame with
    | none => s
    | some sum => updateSum (pushFrame s sum frame)
  else s

/-! ## `processPrvHstDataLine` -/

/-- The channel: whether accumulation is enabled, the state, and the frames that were handed to
`processPrvHstFrame`. -/
structure PrvHstChannel where
  accumulationEnable : Bool
  state : PrvHstState
  handed : List FrameHistogram

structure HistHeader where
  bin_size : ℤ
  bin_width : ℤ
  bin_offset : ℤ
  frame_number : ℤ
  time_at_frame : ℚ

/-- `histInt`: a number, or `def` when there is none. -/
def histInt (j : Json) (key : String) (default : ℤ) : ℤ :=
  match j.member key with
  | some (.number_integer z) => Img.toInt32 z
  | some (.number_float q) => Json.truncate q
  | _ => default

/-- The header: `none` when a conversion throws. -/
def readHistHeader (j : Json) : Option HistHeader := do
  let frame_number ← j.value Json.getInt "frameNumber" 0
  let time_at_frame ← j.value Json.getDouble "timeAtFrame" 0
  some
    { bin_size := histInt j "binSize" 0
      bin_width := histInt j "binWidth" 0
      bin_offset := histInt j "binOffset" 0
      frame_number := frame_number
      time_at_frame := time_at_frame }

namespace HistHeader

def accepted (h : HistHeader) : Bool := 0 < h.bin_size && h.bin_size ≤ 1000000

def binaryNeeded (h : HistHeader) : ℕ := 4 * h.bin_size.toNat

end HistHeader

/-- The header fields that are stored with the state. -/
def PrvHstState.withHeader (s : PrvHstState) (h : HistHeader) : PrvHstState :=
  { s with
    prvHstTimeAtFrame := h.time_at_frame
    prvHstFrameBinSize := h.bin_size
    prvHstFrameBinWidth := h.bin_width
    prvHstFrameBinOffset := h.bin_offset }

/-- The frame with the bins of a payload, in host byte order. -/
def frameHistogram (h : HistHeader) (tof_bin_values : List UInt8) : FrameHistogram where
  bin_edges := calculate_bin_edges h.bin_size.toNat h.bin_width h.bin_offset
  bin_values_32 := (List.range h.bin_size.toNat).map fun i =>
    Stream.bswap32 (Stream.word32 tof_bin_values i)
  value_lt := by
    intro v hv
    obtain ⟨i, -, rfl⟩ := List.mem_map.mp hv
    exact Stream.bswap32_word32_lt tof_bin_values i

/-- The bins that are not in the buffer; the client must still be connected. -/
def receiveBins (client : NetworkClient) (size : ℕ) : Option (List UInt8) × NetworkClient :=
  if size = 0 then (some [], client)
  else if client.connected then client.receive_exact size
  else (none, client)

/-- The header of a line and the state with it. An error is what the line function returns without reading a
payload, and the state it leaves. -/
def acceptHistHeader (env : Env) (s : PrvHstState) (text : List UInt8) :
    Except (Bool × PrvHstState) (HistHeader × PrvHstState) :=
  match env.parse text with
  | none => .error (true, s)
  | some j =>
    if j.contains "binSize" then
      match readHistHeader j with
      | none => .error (false, s)
      | some header =>
        if header.accepted then .ok (header, s.withHeader header)
        else .error (false, s.withHeader header)
    else .error (true, s)

/-- From an accepted header to the processed frame. -/
def addHistogram (header : HistHeader) (line : Line) (client : NetworkClient) (ch : PrvHstChannel) :
    Traced (LineResult PrvHstChannel) := do
  let buffered ← Stream.copyBuffered line header.binaryNeeded
  match receiveBins client (header.binaryNeeded - buffered.length) with
  | (none, client) => return ⟨false, client, ch⟩
  | (some rest, client) =>
    let frame := frameHistogram header (buffered ++ rest)
    return ⟨true, client,
      { ch with
        state := processPrvHstFrame ch.accumulationEnable ch.state frame
        handed := ch.handed ++ [frame] }⟩

def processPrvHstDataLine (env : Env) (line : Line) (client : NetworkClient) (ch : PrvHstChannel) :
    Traced (LineResult PrvHstChannel) := do
  if !ch.accumulationEnable then return ⟨true, client, ch⟩
  if line.newline_pos ≤ line.line_buffer then return ⟨false, client, ch⟩
  let json_start ← Stream.skipBinary false line.buffer line.line_buffer line.newline_pos
  if json_start ≥ line.newline_pos then return ⟨true, client, ch⟩
  if (← read line.buffer json_start) != '{'.toUInt8 then return ⟨true, client, ch⟩
  let text ← readRange line.buffer json_start (line.newline_pos - json_start)
  match acceptHistHeader env ch.state text with
  | .error (ok, state) => return ⟨ok, client, { ch with state := state }⟩
  | .ok (header, state) => addHistogram header line client { ch with state := state }

end ADTimePix3.Hst
