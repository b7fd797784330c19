import ADTimePix3.Stream.Demux

/-!
# The Img channel from its socket to its sums

`imgWorkerThread` with `processImgDataLine` and `processImgFrame` (`serval_stream.cpp`): what a turn of the
worker does with the stream, and what the image it puts does to the Img members. The worker holds the
(recursive) mutex during the receive and again from what it read to the end of the line. The receive touches no
Img member, so an operation of another thread that comes between the two counts as one before the turn.

What the channel is for: the Img members see the frames of the stream and the operations of the clients
(`Summed`).
-/

namespace ADTimePix3.Stream.ImgPipeline

open Img (ImgState Op Pool Frame stepState)
open Buffers

/-- The worker of the Img channel and the Img members. -/
structure Pipeline where
  worker : Worker (List Image)
  img : ImgState

inductive Event where
  /-- A turn of the worker. The memory is that of the array, the pool that of the sums. -/
  | turn (accumulationEnable : Bool) (memory : ℕ → ℕ) (pool : Pool)
  /-- An operation on the Img members that is not a frame. -/
  | other (op : Op) (not_frame : ∀ frame pool, op ≠ .frame frame pool)

/-- The images that a turn of the worker has put. -/
def newImages (w w' : Worker (List Image)) : List Image := w'.channel.drop w.channel.length

/-- Images of threshold 1 are not accumulated. -/
def accumulated (accumulationEnable : Bool) (image : Image) : Bool :=
  accumulationEnable && image.thresholdId ≠ 1

def accumulate (accumulationEnable : Bool) (memory : ℕ → ℕ) (pool : Pool) (s : ImgState) (image : Image) :
    Option ImgState :=
  if accumulated accumulationEnable image then stepState s (.frame (frameImage image memory) pool) else some s

def step (env : Env) (p : Pipeline) : Event → Option Pipeline
  | .turn accumulationEnable memory pool =>
    let worker := (imgWorkerThread env p.worker).val
    ((newImages p.worker worker).foldlM (accumulate accumulationEnable memory pool) p.img).map fun img =>
      { worker := worker, img := img }
  | .other op _ => (stepState p.img op).map fun img => { p with img := img }

/-- A worker that has just connected, and the Img members of a new driver. -/
def start (buffer : ℕ → UInt8) (client : NetworkClient) : Pipeline where
  worker := .start buffer client []
  img := .init

/-! ## The operations of a run -/

/-- The operations on the Img members that a turn of the worker makes. -/
def frameOps (accumulationEnable : Bool) (memory : ℕ → ℕ) (pool : Pool) (images : List Image) : List Op :=
  (images.filter (accumulated accumulationEnable)).map fun image => .frame (frameImage image memory) pool

/-- The operations on the Img members that a run makes, frames and others, in the order in which they come. -/
def opsOf (env : Env) (w : Worker (List Image)) : List Event → List Op
  | [] => []
  | .turn accumulationEnable memory pool :: events =>
    let w' := (imgWorkerThread env w).val
    frameOps accumulationEnable memory pool (newImages w w') ++ opsOf env w' events
  | .other op _ :: events => op :: opsOf env w events

def Event.isTurn : Event → Bool
  | .turn .. => true
  | .other .. => false

def turnCount (events : List Event) : ℕ := events.countP Event.isTurn

/-- A turn with the accumulation enabled, or no turn at all. -/
def Event.Enabled : Event → Prop
  | .turn accumulationEnable _ _ => accumulationEnable = true
  | .other .. => True

/-! ## What the channel is for -/

/-- The count of pixel `i` in the payload of a frame. -/
def payloadPixel {parse : List UInt8 → Option Json} (f : ImageFrame parse) (i : ℕ) : ℕ :=
  bigEndian (wordBytes (bytesPerPixel f.format) f.message.payload i)

theorem payloadPixel_lt {parse : List UInt8 → Option Json} (f : ImageFrame parse) {i : ℕ}
    (hi : i < f.width * f.height) : payloadPixel f i < f.format.bound := by
  have hword : (i + 1) * bytesPerPixel f.format ≤ f.message.payload.length := by
    rw [f.payload_length]
    exact Nat.mul_le_mul_right _ hi
  have hlt := bigEndian_lt (wordBytes (bytesPerPixel f.format) f.message.payload i)
  rw [length_wordBytes hword] at hlt
  unfold payloadPixel
  cases hformat : f.format <;> rw [hformat] at hlt <;> exact hlt

/-- The counts that the payload of a frame stands for. -/
def payloadFrame {parse : List UInt8 → Option Json} (f : ImageFrame parse) : Frame where
  width := f.width
  height := f.height
  format := f.format
  pixels := tabulate (f.width * f.height) (payloadPixel f)
  length_eq := length_tabulate _ _
  pixel_lt := by
    intro p hp
    obtain ⟨i, hi, rfl⟩ := List.mem_map.mp hp
    exact payloadPixel_lt f (List.mem_range.mp hi)

/-- The frames of a stream that are to be summed. -/
def summedFrames {parse : List UInt8 → Option Json} (frames : List (ImageFrame parse)) : List Frame :=
  (frames.filter fun f => jsonImageThresholdId f.json ≠ 1).map payloadFrame

def frameOfOp : Op → Option Frame
  | .frame frame _ => some frame
  | _ => none

/-- An operation of a client: one that is not a frame. -/
def clientOp : Op → Option Op
  | .frame .. => none
  | op => some op

def Event.clientOp : Event → Option Op
  | .turn .. => none
  | .other op _ => some op

end ADTimePix3.Stream.ImgPipeline
