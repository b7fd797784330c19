import ADTimePix3.Img.Accumulation
import ADTimePix3.Lib.Runs

/-!
# Runs of the Img channel

Operations on the Img channel in any order. `step` runs each operation to its end; `sectionStep` runs the
critical sections of several threads in any order, so that a callback may come long after the section that
prepared it.

The frames that a sum should hold are functions of the operations alone: `sinceRestart` for the running sum,
`RefWindow` for the sum of the last frames.
-/

namespace ADTimePix3.Img

open Buffers

/-- An operation on the Img channel. -/
inductive Op where
  | frame (frame : Frame) (pool : Pool)
  | imageDataReset (value : ℤ)
  | acquireStop
  | framesToSum (value : ℤ)
  | sumUpdateInterval (value : ℤ)
  | readSumN (nElements : ℕ)
  | push (outputType : ℤ) (arrayCallbacks : Bool) (pool : Pool)

/-- One operation, from its call to its return, with what it publishes or returns. -/
def step (s : ImgState) : Op → Option (ImgState × List Output)
  | .frame frame pool => processImgFrame s frame pool
  | .imageDataReset value => some (writeImageDataReset s value, [])
  | .acquireStop => some (resetImgAccumulation s, [])
  | .framesToSum value => writeFramesToSum s value
  | .sumUpdateInterval value => some (writeSumUpdateInterval s value, [])
  | .readSumN nElements =>
    (readImageSumNFrames s nElements).map fun r => (r.1, [.readValue r.2])
  | .push outputType arrayCallbacks pool =>
    (pushProcessedImgToPlugins s outputType arrayCallbacks pool).map fun out => (s, out)

/-- The state after one operation. -/
def stepState (s : ImgState) (op : Op) : Option ImgState := (step s op).map (·.1)

/-! ## Interleavings -/

/-- The Img members, the callbacks that frames have yet to make, and the copies that writes of
`ImgFramesToSum` have yet to make. -/
structure System where
  img : ImgState
  published : List Published
  recalculated : List ℕ

def System.init : System := ⟨.init, [], []⟩

/-- A piece of work that one thread does without another one in between. -/
inductive Section where
  | op (op : Op)
  /-- The callbacks of the `i`-th frame that has not made them yet. -/
  | frameCallbacks (i : ℕ)
  /-- The copy of the `i`-th write of `ImgFramesToSum` that has not made it yet. -/
  | framesToSumCopy (i : ℕ)

/-- One critical section or callback. Of a frame and of a write of `ImgFramesToSum`, `op` is the locked
section. -/
def sectionStep (y : System) : Section → Option System
  | .op (.frame frame pool) => do
    let (s, p) ← processImgFrameLocked y.img frame pool
    some { y with img := s, published := y.published ++ [p] }
  | .op (.framesToSum value) => do
    let (s, recalculated) ← writeFramesToSumLocked y.img value
    some { y with img := s, recalculated := y.recalculated ++ recalculated.toList }
  | .op op => (stepState y.img op).map fun s => { y with img := s }
  | .frameCallbacks i =>
    match y.published[i]? with
    | none => some y
    | some p => (processImgFrameCallbacks y.img p).map fun _ =>
        { y with published := y.published.eraseIdx i }
  | .framesToSumCopy i =>
    match y.recalculated[i]? with
    | none => some y
    | some n => (writeFramesToSumCopy y.img n).map fun _ =>
        { y with recalculated := y.recalculated.eraseIdx i }

/-! ## When a sum is recomputed -/

/-- The frames that an operation is going to sum, if it recomputes the sum of the last frames. -/
def summedFrames (s : ImgState) : Op → List Frame
  | .frame frame _ =>
    if s.imgFramesSinceLastSumUpdate + 1 ≥ s.imgSumUpdateIntervalFrames then
      trim s.imgFramesToSum.toNat (s.imgFrameBuffer ++ [frame])
    else []
  | .framesToSum value => trim (clampTo 100000 value).toNat s.imgFrameBuffer
  | .readSumN _ => s.imgFrameBuffer
  | _ => []

def currentFrame (s : ImgState) : Op → Frame
  | .frame frame _ => frame
  | _ => s.imgCurrentFrame

/-- The sum buffer takes the sum of `n` pixels: it is grown along with the work buffer, or it is large
enough. -/
def SumFits (s : ImgState) (n : ℕ) : Prop :=
  s.imgSumArray64WorkBuffer.length < n ∨ n ≤ s.imgSumArray64Buffer.length

instance (s : ImgState) (n : ℕ) : Decidable (SumFits s n) := inferInstanceAs (Decidable (_ ∨ _))

/-- An operation that stores a sum finds room for it. A read does not store its sum. -/
def OpFits (s : ImgState) : Op → Prop
  | .readSumN _ => True
  | op => ∀ first ∈ (summedFrames s op).head?, SumFits s first.pixelCount

instance (s : ImgState) (op : Op) : Decidable (OpFits s op) := by
  cases op <;> unfold OpFits <;> infer_instance

/-- The same for a critical section. -/
def SectionFits (y : System) : Section → Prop
  | .op op => OpFits y.img op
  | _ => True

/-- The frames that an operation sums have the dimensions of the current frame. -/
def OneSize (s : ImgState) (op : Op) : Prop :=
  ∀ g ∈ summedFrames s op, g.SameSize (currentFrame s op)

instance (s : ImgState) (op : Op) : Decidable (OneSize s op) :=
  inferInstanceAs (Decidable (∀ g ∈ summedFrames s op, g.SameSize (currentFrame s op)))

/-! ## What the sums are for -/

/-- The frames since the last reset, or since the last frame whose dimensions differed from those before it,
after one more operation. -/
def sinceRestart (frames : List Frame) : Op → List Frame
  | .frame frame _ => (if ∀ g ∈ frames, g.SameSize frame then frames else []) ++ [frame]
  | .imageDataReset value => if value = 1 then [] else frames
  | .acquireStop => []
  | _ => frames

/-- The reference for the sum of the last frames. -/
structure RefWindow where
  frames : List Frame
  /-- The frame processed last. -/
  previous : Option Frame
  /-- The clamped number of frames to sum. -/
  framesToSum : ℤ

def RefWindow.init : RefWindow := ⟨[], none, 10⟩

/-- The reference window is emptied by a reset and by a change of the dimensions, and cut to its newest
entries. -/
def RefWindow.step (r : RefWindow) : Op → RefWindow
  | .frame frame _ =>
    let kept := if ∀ p ∈ r.previous, p.SameSize frame then r.frames else []
    { r with frames := trim r.framesToSum.toNat (kept ++ [frame]), previous := some frame }
  | .imageDataReset value => if value = 1 then { r with frames := [] } else r
  | .acquireStop => { r with frames := [] }
  | .framesToSum value =>
    { r with framesToSum := clampTo 100000 value
             frames := trim (clampTo 100000 value).toNat r.frames }
  | _ => r

def sumImage (frames : List Frame) (n : ℕ) : List ℤ := tabulate n fun i => (pixelSum frames i : ℤ)

/-- An output shows the sum over `frames`, in the dimensions of `current`. -/
def ShowsSum (frames : List Frame) (current : Frame) : Output → Prop
  | .imgImageSumNFrames value => value = sumImage frames current.pixelCount
  | .ndArray array => array.addr = 3 →
    array.width = current.width ∧ array.height = current.height ∧
      array.data = sumImage frames current.pixelCount
  | _ => True

/-- What a frame, a write or a read gives out shows the sum over `frames`; what a read returns is cut or
padded with zeros to the requested length. Pushes are not concerned. -/
def OutputShowsSum (frames : List Frame) (current : Frame) : Op → List Output → Prop
  | .readSumN nElements, out => out = [.readValue (tabulate nElements fun i =>
      if i < current.pixelCount then (pixelSum frames i : ℤ) else 0)]
  | .push .., _ => True
  | _, out => ∀ o ∈ out, ShowsSum frames current o

/-! ## What a push reports -/

/-- The frames whose sum is in the sum buffer: those that were summed last. A read does not store its sum. -/
def cachedFrames (s : ImgState) (cached : List Frame) : Op → List Frame
  | .readSumN _ => cached
  | op => if summedFrames s op = [] then cached else summedFrames s op

/-- The Img members, and the frames whose sum is in the sum buffer. -/
structure Cached where
  img : ImgState
  cached : List Frame

def Cached.init : Cached := ⟨.init, []⟩

def Cached.step (c : Cached) (op : Op) : Option Cached :=
  (stepState c.img op).map fun s => ⟨s, cachedFrames c.img c.cached op⟩

/-- A sum over `n` frames as it should be pushed: as it is, or the average. -/
def pushed (outputType : ℤ) (n sum : ℕ) : ℤ := if outputType = 1 then (sum / n : ℕ) else sum

/-- The array at address 3 shows the buffered frames, when they are all of the size of the running sum, and
the array at address 2 shows the running sum, which is one of `n` frames. -/
def ArrayReports (s : ImgState) (n : ℕ) (outputType : ℤ) (array : NDArray) (sum : RunningSum) : Prop :=
  (array.addr = 3 → (∀ g ∈ s.imgFrameBuffer, g.width = sum.width ∧ g.height = sum.height) →
    array.data = tabulate sum.pixelCount fun i =>
      pushed outputType s.imgFrameBuffer.length (pixelSum s.imgFrameBuffer i)) ∧
  (array.addr = 2 → array.data = sum.pixels.map (pushed outputType n))

instance (s : ImgState) (n : ℕ) (outputType : ℤ) (array : NDArray) (sum : RunningSum) :
    Decidable (ArrayReports s n outputType array sum) := inferInstanceAs (Decidable (_ ∧ _))

def ReportsBuffered (s : ImgState) (n : ℕ) (outputType : ℤ) : Output → Prop
  | .ndArray array => ∀ sum ∈ s.imgRunningSum, ArrayReports s n outputType array sum
  | _ => True

instance (s : ImgState) (n : ℕ) (outputType : ℤ) : (o : Output) → Decidable (ReportsBuffered s n outputType o)
  | .ndArray array => inferInstanceAs (Decidable (∀ sum ∈ s.imgRunningSum, ArrayReports s n outputType array sum))
  | .imgImageData _ | .imgImageFrame _ | .imgImageSumNFrames _ | .readValue _ => instDecidableTrue

/-- The values of an array fit its type, which is `NDInt32` for averages and `NDInt64` for sums. -/
def PushFits (outputType : ℤ) (n sum : ℕ) : Prop := if outputType = 1 then sum / n < 2 ^ 31 else sum < 2 ^ 63

instance (outputType : ℤ) (n sum : ℕ) : Decidable (PushFits outputType n sum) :=
  inferInstanceAs (Decidable (if outputType = 1 then sum / n < 2 ^ 31 else sum < 2 ^ 63))

/-- The array at address 3 is right when the buffered frames are those that were summed last, the array at
address 2 when the frames are counted with 32 bits; and the values have to fit. -/
def ArrayFits (c : Cached) (n : ℕ) (outputType : ℤ) (array : NDArray) (sum : RunningSum) : Prop :=
  (array.addr = 3 → c.cached = c.img.imgFrameBuffer ∧
    ∀ i < sum.pixelCount,
      PushFits outputType c.img.imgFrameBuffer.length (pixelSum c.img.imgFrameBuffer i)) ∧
  (array.addr = 2 → (outputType = 1 → n < 2 ^ 32) ∧ ∀ x ∈ sum.pixels, PushFits outputType n x)

instance (c : Cached) (n : ℕ) (outputType : ℤ) (array : NDArray) (sum : RunningSum) :
    Decidable (ArrayFits c n outputType array sum) := inferInstanceAs (Decidable (_ ∧ _))

def CanReport (c : Cached) (n : ℕ) (outputType : ℤ) : Output → Prop
  | .ndArray array => ∀ sum ∈ c.img.imgRunningSum, ArrayFits c n outputType array sum
  | _ => True

instance (c : Cached) (n : ℕ) (outputType : ℤ) : (o : Output) → Decidable (CanReport c n outputType o)
  | .ndArray array => inferInstanceAs (Decidable (∀ sum ∈ c.img.imgRunningSum, ArrayFits c n outputType array sum))
  | .imgImageData _ | .imgImageFrame _ | .imgImageSumNFrames _ | .readValue _ => instDecidableTrue

/-! ## Two small frames, for examples -/

def onePixel : Frame := ⟨1, 1, .uint16, [5], rfl, by decide⟩

def twoPixels : Frame := ⟨2, 1, .uint32, [7, 9], rfl, by decide⟩

end ADTimePix3.Img
