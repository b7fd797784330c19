import ADTimePix3.Img.Run
import ADTimePix3.Stream.ImageFrame

/-!
# Demultiplexing by threshold

What `processPreviewJsonimageLine` and `processImgDataLine` do with an image of a given threshold: the address
it is put on, and whether it is accumulated (`serval_stream.cpp`). A run is a sequence of jsonimage lines on
the three channels and of other operations on the Img members, in any order.

The state keeps with each image, and with each frame of the running sum and of the frame buffer, the threshold
id that its header has; nothing the driver does depends on it.
-/

namespace ADTimePix3.Stream

open Img (ImgState Op Pool Frame clampTo stepState)
open Buffers

/-- The threshold id of a header: the integer under the first of the three names that has one, `0` when there
is none. `jsonImageThresholdId` is this number as an `int`. -/
def headerThresholdId (j : Json) : ℤ :=
  (["thresholdID", "thresholdId", "thresholdIndex"].findSome? fun key =>
    match j.member key with
    | some (.number_integer z) => some z
    | _ => none).getD 0

/-! ## Images and frames -/

/-- The image that `putImage` puts on its address. -/
def imageOf (worker : ImageWorker) (header : ImageHeader) (pixel_buffer : List UInt8) : Image where
  addr := previewNdarrayAddressForThreshold header.threshold_id worker.addrs.1 worker.addrs.2
  width := header.width
  height := header.height
  dataType := header.format
  uniqueId := header.frame_number
  thresholdId := header.threshold_id
  pixels := convertPixels header.format header.pixelCount pixel_buffer

/-- The image that a header line gives, if any. The payload is `none` when it cannot be received. -/
def lineImage (worker : ImageWorker) (j : Json) (allocated : Bool) (payload : Option (List UInt8)) :
    Option Image := do
  let header ← readImageHeader worker.integrates j
  if header.accepted allocated then payload.map (imageOf worker header) else none

/-- `frame_image`: all pixels of the array. Where the `int` product of the dimensions has overflowed, those
beyond `pixel_count` are what the array's memory held. -/
def frameImage (image : Image) (memory : ℕ → ℕ) : Frame where
  width := image.width.toNat
  height := image.height.toNat
  format := image.dataType
  pixels := tabulate (image.width.toNat * image.height.toNat) fun i =>
    image.pixels.getD i (memory i) % image.dataType.bound
  length_eq := by simp
  pixel_lt := by
    intro p hp
    obtain ⟨i, -, rfl⟩ := List.mem_map.mp hp
    refine Nat.mod_lt _ ?_
    cases image.dataType <;> decide

/-! ## Runs -/

/-- Something with the threshold id of the header it came with. -/
structure Labelled (α : Type) where
  value : α
  id : ℤ

/-- The images put so far, the Img members, and the frames of the running sum and of the frame buffer. -/
structure Demux where
  images : List (Labelled Image)
  img : ImgState
  summed : List (Labelled Frame)
  buffered : List (Labelled Frame)

def Demux.init : Demux := ⟨[], .init, [], []⟩

inductive DemuxEvent where
  /-- A jsonimage header that has been parsed. -/
  | jsonimage (worker : ImageWorker) (j : Json) (allocated : Bool) (payload : Option (List UInt8))
      (accumulationEnable : Bool) (memory : ℕ → ℕ) (pool : Pool)
  /-- Another operation on the Img members. -/
  | other (op : Op) (not_frame : ∀ frame pool, op ≠ .frame frame pool)

/-- `Img.sinceRestart`, with the ids. -/
def summedAfter (frames : List (Labelled Frame)) (id : ℤ) : Op → List (Labelled Frame)
  | .frame frame _ => (if ∀ g ∈ frames, g.value.SameSize frame then frames else []) ++ [⟨frame, id⟩]
  | .imageDataReset value => if value = 1 then [] else frames
  | .acquireStop => []
  | _ => frames

/-- The frame buffer, with the ids. -/
def bufferedAfter (s : ImgState) (frames : List (Labelled Frame)) (id : ℤ) : Op → List (Labelled Frame)
  | .frame frame _ => trim s.imgFramesToSum.toNat (frames ++ [⟨frame, id⟩])
  | .imageDataReset value => if value = 1 then [] else frames
  | .acquireStop => []
  | .framesToSum value => trim (clampTo 100000 value).toNat frames
  | _ => frames

namespace Demux

def put (s : Demux) (image : Image) (id : ℤ) : Demux := { s with images := s.images ++ [⟨image, id⟩] }

/-- An operation on the Img members, with the id of its frame. -/
def onImg (s : Demux) (op : Op) (id : ℤ) : Option Demux :=
  (stepState s.img op).map fun img =>
    { s with
      img := img
      summed := summedAfter s.summed id op
      buffered := bufferedAfter s.img s.buffered id op }

/-- Only images of the Img channel are accumulated, and none of threshold 1. -/
def accumulate (s : Demux) (worker : ImageWorker) (image : Image) (id : ℤ) (accumulationEnable : Bool)
    (memory : ℕ → ℕ) (pool : Pool) : Option Demux :=
  if worker = .img ∧ accumulationEnable = true ∧ image.thresholdId ≠ 1 then
    s.onImg (.frame (frameImage image memory) pool) id
  else some s

def step (s : Demux) : DemuxEvent → Option Demux
  | .jsonimage worker j allocated payload accumulationEnable memory pool =>
    match lineImage worker j allocated payload with
    | none => some s
    | some image =>
      (s.put image (headerThresholdId j)).accumulate worker image (headerThresholdId j) accumulationEnable
        memory pool
  | .other op _ => s.onImg op 0

/-! ## What demultiplexing is for -/

/-- No address and no sum mixes thresholds: the address of a threshold only has images of its id, and only
frames of id 0 are summed. -/
structure Separated (s : Demux) : Prop where
  threshold0 : ∀ r ∈ s.images, ∀ worker : ImageWorker, r.value.addr = worker.addrs.1 → r.id = 0
  threshold1 : ∀ r ∈ s.images, ∀ worker : ImageWorker, r.value.addr = worker.addrs.2 → r.id = 1
  summed : ∀ f ∈ s.summed, f.id = 0
  buffered : ∀ f ∈ s.buffered, f.id = 0

end Demux

/-- A header whose image is put has threshold id 0 or 1. -/
def DemuxEvent.InRange : DemuxEvent → Prop
  | .jsonimage worker j allocated payload .. =>
    (lineImage worker j allocated payload).isSome → headerThresholdId j = 0 ∨ headerThresholdId j = 1
  | .other .. => True

end ADTimePix3.Stream
