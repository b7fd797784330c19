import ADTimePix3.Hst.Accumulation
import ADTimePix3.Lib.Runs

/-!
# Runs of the PrvHst channel

Operations on the PrvHst channel in any order, each one from its call to its return: the worker holds
`prvHstMutex_` while it handles a line, and the other operations hold it too. Starting and stopping a
measurement leave the accumulated data alone.

The frames that the sums should hold are functions of the operations alone: `Reference`.
-/

namespace ADTimePix3.Hst

open Buffers

/-! ## Operations -/

/-- The parameters of the bins of a frame. -/
structure Binning where
  binSize : ℤ
  binWidth : ℤ
  binOffset : ℤ
deriving DecidableEq

def HistHeader.binning (h : HistHeader) : Binning := ⟨h.bin_size, h.bin_width, h.bin_offset⟩

/-- A frame of the stream: its histogram has as many bins as the header announces, with the edges that the
header gives. -/
structure JsonFrame where
  header : HistHeader
  histogram : FrameHistogram
  accepted : header.accepted = true
  bin_size_eq : histogram.bin_size = header.bin_size.toNat
  bin_edges_eq : histogram.bin_edges =
    calculate_bin_edges header.bin_size.toNat header.bin_width header.bin_offset

/-- The frame of an accepted header and a payload. -/
def JsonFrame.ofPayload (header : HistHeader) (accepted : header.accepted = true) (payload : List UInt8) :
    JsonFrame where
  header := header
  histogram := frameHistogram header payload
  accepted := accepted
  bin_size_eq := by simp [FrameHistogram.bin_size, frameHistogram]
  bin_edges_eq := rfl

/-- An operation on the PrvHst channel. -/
inductive Op where
  /-- A line whose header is stored and whose frame does not get as far as the running sum: the header is not
  accepted, or the payload is lost. -/
  | header (header : HistHeader)
  /-- A line whose frame is processed. -/
  | frame (frame : JsonFrame) (arrayCallbacks : Bool) (pool : Pool)
  | dataReset (value : ℤ)
  | acquireStart
  | acquireStop
  | framesToSum (value : ℤ)
  | sumUpdateInterval (value : ℤ)
  | push (outputType : ℤ) (arrayCallbacks : Bool) (pool : Pool)

/-- One operation, from its call to its return, with what it publishes. -/
def step (h : PrvHst) : Op → Option (PrvHst × List Output)
  | .header header => some ({ h with state := h.state.withHeader header }, [])
  | .frame frame arrayCallbacks pool =>
    processAndPublish { h with state := h.state.withHeader frame.header } frame.histogram arrayCallbacks pool
  | .dataReset value => some (writeDataReset h value)
  | .acquireStart => some (h, [])
  | .acquireStop => some (h, [])
  | .framesToSum value => some ({ h with state := writeFramesToSum h.state value }, [])
  | .sumUpdateInterval value => some ({ h with state := writeSumUpdateInterval h.state value }, [])
  | .push outputType arrayCallbacks pool => pushProcessedHstToPlugins h outputType arrayCallbacks pool

/-- The state after one operation. -/
def stepState (h : PrvHst) (op : Op) : Option PrvHst := (step h op).map (·.1)

/-! ## What the sums are for -/

/-- The reference for the two sums. -/
structure Reference where
  /-- The frames since the last reset, or since the last frame whose bin size differed from those before
  it. -/
  frames : List JsonFrame
  /-- The newest of them, cut after each frame and each change of the number of frames to sum. -/
  window : List JsonFrame
  /-- The clamped number of frames to sum. -/
  framesToSum : ℤ
  /-- The header stored last. -/
  header : Option HistHeader

namespace Reference

def init : Reference := ⟨[], [], 10, none⟩

/-- The frames have the bin size of `f`. -/
def SameBinSize (r : Reference) (f : JsonFrame) : Prop :=
  ∀ g ∈ r.frames, g.histogram.bin_size = f.histogram.bin_size

instance (r : Reference) (f : JsonFrame) : Decidable (r.SameBinSize f) :=
  inferInstanceAs (Decidable (∀ g ∈ r.frames, _))

/-- What is left when `f` arrives. -/
def kept (r : Reference) (f : JsonFrame) : Reference :=
  if r.SameBinSize f then r else { r with frames := [], window := [] }

def step (r : Reference) : Op → Reference
  | .header header => { r with header := some header }
  | .frame f _ _ =>
    { r.kept f with
      frames := (r.kept f).frames ++ [f]
      window := trim r.framesToSum.toNat ((r.kept f).window ++ [f])
      header := some f.header }
  | .dataReset value => if value = 1 then { r with frames := [], window := [] } else r
  | .framesToSum value =>
    { r with
      framesToSum := Img.clampTo 100000 value
      window := trim (Img.clampTo 100000 value).toNat r.window }
  | _ => r

/-- The reference after a list of operations. -/
def after (ops : List Op) : Reference := ops.foldl step init

/-- The reference as a machine that takes every operation. -/
def advance (r : Reference) (op : Op) : Option Reference := some (r.step op)

/-- The histograms that have been summed. -/
def summed (r : Reference) : List FrameHistogram := r.frames.map JsonFrame.histogram

/-- The histograms of the window. -/
def windowed (r : Reference) : List FrameHistogram := r.window.map JsonFrame.histogram

end Reference

/-! ## What a push reports -/

/-- The frames whose sum is in the sum buffer: those that were summed last. -/
def cachedFrames (h : PrvHst) (cached : List FrameHistogram) : Op → List FrameHistogram
  | .frame f _ _ =>
    match addFrame (h.state.withHeader f.header) f.histogram with
    | none => cached
    | some s => if ShouldUpdateSum s then s.prvHstFrameBuffer else cached
  | .dataReset value => if value = 1 then [] else cached
  | _ => cached

/-- The PrvHst members, and the frames whose sum is in the sum buffer. -/
structure Cached where
  hst : PrvHst
  cached : List FrameHistogram

def Cached.init : Cached := ⟨.init, []⟩

def Cached.step (c : Cached) (op : Op) : Option Cached :=
  (stepState c.hst op).map fun h => ⟨h, cachedFrames c.hst c.cached op⟩

end ADTimePix3.Hst
