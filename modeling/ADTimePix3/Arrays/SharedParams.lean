import ADTimePix3.Lib.Interference
import Mathlib.Data.Fintype.Pi

/-!
# The shared size and counter parameters

`processImgDataLine` (`serval_stream.cpp`) sets `ADSizeX` to `NDArraySize` from its image and counts it in
`NDArrayCounter`. `processPrvHstFrame` (`histogram_io.cpp`), `pushProcessedHstToPlugins` (`ADTimePix.cpp`) and
`pushProcessedImgToPlugins` save these parameters, call the plugins, and write the saved values back, that of the
counter only if it has gone up by as much as their callbacks would make it.

A worker holds the mutex of its channel while it handles a line, and a push holds it too; the two mutexes do not
exclude each other. A step is a read or a write of one parameter. Whether the callback of the base class counts
(`adds`) is fixed for a run. The preview channels, which set the sizes too, are idle.
-/

namespace ADTimePix3.Arrays

inductive SizeParam where
  | ADSizeX
  | ADSizeY
  | NDArraySizeX
  | NDArraySizeY
  | NDDataType
  | NDArraySize
deriving DecidableEq

instance : Fintype SizeParam where
  elems := {.ADSizeX, .ADSizeY, .NDArraySizeX, .NDArraySizeY, .NDDataType, .NDArraySize}
  complete p := by cases p <;> decide

/-- An image whose line gets as far as the parameters. `callbacks` is the number of arrays that it gives to the
plugins: itself, and the sums of an accumulated frame. -/
structure ImageFrame where
  width : ℤ
  height : ℤ
  dataType : ℤ
  totalBytes : ℤ
  callbacks : ℕ

def ImageFrame.sizes (f : ImageFrame) : SizeParam → ℤ
  | .ADSizeX => f.width
  | .ADSizeY => f.height
  | .NDArraySizeX => f.width
  | .NDArraySizeY => f.height
  | .NDDataType => f.dataType
  | .NDArraySize => f.totalBytes

/-- What `NDArrayCounter` has over its value at the start: the increments for image frames that are in it, and the
increments of other callbacks. -/
structure Counter where
  images : ℕ
  others : ℕ
deriving DecidableEq

def Counter.value (c : Counter) : ℕ := c.images + c.others

/-- The parameters, the mutexes (locked or not), and the record of the run: the sizes of the last image frame and
the number of increments made for image frames. -/
structure SharedParams where
  sizes : SizeParam → ℤ
  NDArrayCounter : Counter
  imgMutex_ : Bool
  prvHstMutex_ : Bool
  lastFrame : Option (SizeParam → ℤ)
  increments : ℕ

inductive ChannelMutex where
  | imgMutex_
  | prvHstMutex_
deriving DecidableEq

namespace SharedParams

def start (sizes : SizeParam → ℤ) : SharedParams := ⟨sizes, ⟨0, 0⟩, false, false, none, 0⟩

def setSize (s : SharedParams) (p : SizeParam) (value : ℤ) : SharedParams :=
  { s with sizes := Function.update s.sizes p value }

def locked (s : SharedParams) : ChannelMutex → Bool
  | .imgMutex_ => s.imgMutex_
  | .prvHstMutex_ => s.prvHstMutex_

def setLocked (s : SharedParams) (locked : Bool) : ChannelMutex → SharedParams
  | .imgMutex_ => { s with imgMutex_ := locked }
  | .prvHstMutex_ => { s with prvHstMutex_ := locked }

end SharedParams

/-- A call that saves and restores: its mutex, the number of its callbacks, and by how much the counter has to
have gone up for it to be restored; none when it is not. -/
structure SavingCall where
  mutex : ChannelMutex
  callbacks : ℕ
  expectedDelta : Option ℕ

/-- The counter is as far above the saved one as the call expects. -/
def SavingCall.Expects (call : SavingCall) (saved current : ℕ) : Prop :=
  ∃ delta ∈ call.expectedDelta, current = saved + delta

instance (call : SavingCall) (saved current : ℕ) : Decidable (call.Expects saved current) :=
  inferInstanceAs (Decidable (∃ delta ∈ call.expectedDelta, current = saved + delta))

/-- `processPrvHstFrame` and `pushProcessedHstToPlugins`: `nCb > 0 && currentArrayCounter == savedArrayCounter + nCb` -/
def histogramCall (nCb : ℕ) : SavingCall := ⟨.prvHstMutex_, nCb, if nCb > 0 then some nCb else none⟩

/-- `pushProcessedImgToPlugins`, with the number of its allocations that succeed. Without a running sum or without
callbacks there is nothing to push; the array of the sum of the last frames is pushed when there is one. -/
def processedImgCall (pushes hasSumN : Bool) (allocated : ℕ) : SavingCall :=
  if pushes then ⟨.imgMutex_, allocated, some (if hasSumN then 2 else 1)⟩ else ⟨.imgMutex_, 0, none⟩

/-- The order in which an image sets the sizes. -/
def imageOrder : List SizeParam :=
  [.ADSizeX, .NDArraySizeX, .ADSizeY, .NDArraySizeY, .NDDataType, .NDArraySize]

/-- The order in which they are saved and restored. -/
def savedOrder : List SizeParam :=
  [.ADSizeX, .ADSizeY, .NDArraySizeX, .NDArraySizeY, .NDDataType, .NDArraySize]

/-- What a thread does next. `read` is the counter as the thread has read it. -/
inductive ParamPc where
  -- `processImgDataLine`
  | imgIdle
  | setSizes (todo : List SizeParam) (f : ImageFrame)
  | readCounter (f : ImageFrame)
  | writeCounter (read : Counter) (f : ImageFrame)
  | imgCallbacks (n : ℕ)
  | imgCallbackWrite (read : Counter) (n : ℕ)
  -- a call that saves and restores
  | idle
  | save (todo : List SizeParam) (saved : List (SizeParam × ℤ)) (call : SavingCall)
  | saveCounter (saved : List (SizeParam × ℤ)) (call : SavingCall)
  | callbacks (n : ℕ) (saved : List (SizeParam × ℤ)) (savedArrayCounter : Counter) (call : SavingCall)
  | callbackWrite (read : Counter) (n : ℕ) (saved : List (SizeParam × ℤ)) (savedArrayCounter : Counter)
      (call : SavingCall)
  | compare (saved : List (SizeParam × ℤ)) (savedArrayCounter : Counter) (call : SavingCall)
  | restoreCounter (saved : List (SizeParam × ℤ)) (savedArrayCounter : Counter) (call : SavingCall)
  | restore (saved : List (SizeParam × ℤ)) (call : SavingCall)

/-- The next step of a thread that has begun. -/
def paramStep (adds : Bool) (s : SharedParams) : ParamPc → Option (SharedParams × ParamPc)
  | .imgIdle => none
  | .setSizes [] f => some ({ s with lastFrame := some f.sizes }, .readCounter f)
  | .setSizes (p :: todo) f => some (s.setSize p (f.sizes p), .setSizes todo f)
  | .readCounter f => some (s, .writeCounter s.NDArrayCounter f)
  | .writeCounter read f =>
    some ({ s with NDArrayCounter := ⟨read.images + 1, read.others⟩, increments := s.increments + 1 },
      .imgCallbacks f.callbacks)
  | .imgCallbacks 0 => some (s.setLocked false .imgMutex_, .imgIdle)
  | .imgCallbacks (n + 1) =>
    if adds then some (s, .imgCallbackWrite s.NDArrayCounter n) else some (s, .imgCallbacks n)
  | .imgCallbackWrite read n =>
    some ({ s with NDArrayCounter := ⟨read.images + 1, read.others⟩, increments := s.increments + 1 },
      .imgCallbacks n)
  | .idle => none
  | .save [] saved call => some (s, .saveCounter saved call)
  | .save (p :: todo) saved call => some (s, .save todo (saved ++ [(p, s.sizes p)]) call)
  | .saveCounter saved call => some (s, .callbacks call.callbacks saved s.NDArrayCounter call)
  | .callbacks 0 saved savedArrayCounter call => some (s, .compare saved savedArrayCounter call)
  | .callbacks (n + 1) saved savedArrayCounter call =>
    if adds then some (s, .callbackWrite s.NDArrayCounter n saved savedArrayCounter call)
    else some (s, .callbacks n saved savedArrayCounter call)
  | .callbackWrite read n saved savedArrayCounter call =>
    some ({ s with NDArrayCounter := ⟨read.images, read.others + 1⟩ }, .callbacks n saved savedArrayCounter call)
  | .compare saved savedArrayCounter call =>
    if call.Expects savedArrayCounter.value s.NDArrayCounter.value then
      some (s, .restoreCounter saved savedArrayCounter call)
    else some (s, .restore saved call)
  | .restoreCounter saved savedArrayCounter call =>
    some ({ s with NDArrayCounter := savedArrayCounter }, .restore saved call)
  | .restore [] call => some (s.setLocked false call.mutex, .idle)
  | .restore ((p, value) :: saved) call => some (s.setSize p value, .restore saved call)

/-! ## The threads -/

inductive ParamThread where
  | imgWorker
  | prvHstWorker
  | client
deriving DecidableEq

instance : Fintype ParamThread where
  elems := {.imgWorker, .prvHstWorker, .client}
  complete t := by cases t <;> decide

inductive ParamEvent where
  | processImgDataLine (f : ImageFrame)
  | processPrvHstFrame (nCb : ℕ)
  | pushProcessedHst (nCb : ℕ)
  | pushProcessedImg (pushes hasSumN : Bool) (allocated : ℕ)
  | step

/-- A call begins when its mutex is free. -/
def beginCall (s : SharedParams) (call : SavingCall) : Option (SharedParams × ParamPc) :=
  if s.locked call.mutex then none else some (s.setLocked true call.mutex, .save savedOrder [] call)

def threadStep (adds : Bool) (t : ParamThread) (e : ParamEvent) (s : SharedParams) (pc : ParamPc) :
    Option (SharedParams × ParamPc) :=
  match e, t, pc with
  | .step, _, pc => paramStep adds s pc
  | .processImgDataLine f, .imgWorker, .imgIdle =>
    if s.locked .imgMutex_ then none else some (s.setLocked true .imgMutex_, .setSizes imageOrder f)
  | .processPrvHstFrame nCb, .prvHstWorker, .idle => beginCall s (histogramCall nCb)
  | .pushProcessedHst nCb, .client, .idle => beginCall s (histogramCall nCb)
  | .pushProcessedImg pushes hasSumN allocated, .client, .idle =>
    beginCall s (processedImgCall pushes hasSumN allocated)
  | _, _, _ => none

abbrev ParamState := Interference.State ParamThread SharedParams ParamPc

def ParamThread.first : ParamThread → ParamPc
  | .imgWorker => .imgIdle
  | .prvHstWorker => .idle
  | .client => .idle

def ParamState.start (sizes : SizeParam → ℤ) : ParamState := ⟨.start sizes, ParamThread.first⟩

/-- The thread has nothing under way. -/
def ParamThread.rests (t : ParamThread) : ParamPc → Bool
  | .imgIdle => t = .imgWorker
  | .idle => t ≠ .imgWorker
  | _ => false

/-- No frame and no push is under way. -/
def Quiescent (s : ParamState) : Prop := ∀ t, ParamThread.rests t (s.thread t) = true

instance (s : ParamState) : Decidable (Quiescent s) :=
  inferInstanceAs (Decidable (∀ t, ParamThread.rests t (s.thread t) = true))

/-- The sizes are those of the last image frame, if any. -/
def LastFrame (s : SharedParams) : Prop := ∀ sizes ∈ s.lastFrame, s.sizes = sizes

/-- A counter has all the increments in it that have been made for image frames. -/
def HasAll (s : SharedParams) (c : Counter) : Prop := c.images = s.increments

/-- The sizes are those of the last image frame, if any, and no increment made for one is lost. -/
def Survive (s : SharedParams) : Prop :=
  LastFrame s ∧ HasAll s s.NDArrayCounter

/-! ## When they do -/

/-- The image frame under way is still going to set the parameter. -/
def ParamPc.isToSet (p : SizeParam) : ParamPc → Prop
  | .setSizes todo _ => p ∈ todo
  | _ => False

/-- What the thread writes from a copy is not behind the parameter: the counter has no increment for an image
frame that the copy lacks, and a size has the value that was saved, or is going to be set anyway. `frame` is where
the Img worker is. -/
def ParamPc.writesCurrent : ParamPc → (frame : ParamPc) → SharedParams → Prop
  | .writeCounter read _, _, s => read.images = s.NDArrayCounter.images
  | .imgCallbackWrite read _, _, s => read.images = s.NDArrayCounter.images
  | .callbackWrite read _ _ _ _, _, s => read.images = s.NDArrayCounter.images
  | .restoreCounter _ savedArrayCounter _, _, s => savedArrayCounter.images = s.NDArrayCounter.images
  | .restore ((p, value) :: _) _, frame, s => s.sizes p = value ∨ frame.isToSet p
  | _, _, _ => True

instance (p : SizeParam) : (pc : ParamPc) → Decidable (pc.isToSet p)
  | .setSizes todo _ => inferInstanceAs (Decidable (p ∈ todo))
  | .imgIdle | .readCounter _ | .writeCounter _ _ | .imgCallbacks _ | .imgCallbackWrite _ _ | .idle | .save _ _ _
  | .saveCounter _ _ | .callbacks _ _ _ _ | .callbackWrite _ _ _ _ _ | .compare _ _ _ | .restoreCounter _ _ _
  | .restore _ _ => isFalse not_false

instance : (pc frame : ParamPc) → (s : SharedParams) → Decidable (pc.writesCurrent frame s)
  | .writeCounter read _, _, s => inferInstanceAs (Decidable (read.images = s.NDArrayCounter.images))
  | .imgCallbackWrite read _, _, s => inferInstanceAs (Decidable (read.images = s.NDArrayCounter.images))
  | .callbackWrite read _ _ _ _, _, s => inferInstanceAs (Decidable (read.images = s.NDArrayCounter.images))
  | .restoreCounter _ saved _, _, s => inferInstanceAs (Decidable (saved.images = s.NDArrayCounter.images))
  | .restore ((p, value) :: _) _, frame, s => inferInstanceAs (Decidable (s.sizes p = value ∨ frame.isToSet p))
  | .imgIdle, _, _ | .setSizes _ _, _, _ | .readCounter _, _, _ | .imgCallbacks _, _, _ | .idle, _, _
  | .save _ _ _, _, _ | .saveCounter _ _, _, _ | .callbacks _ _ _ _, _, _ | .compare _ _ _, _, _
  | .restore [] _, _, _ => isTrue trivial

/-- The thread that takes the step does not write a parameter from a copy that is behind it. -/
abbrev WritesCurrent (s : ParamState) (e : ParamThread × ParamEvent) : Prop :=
  (s.thread e.1).writesCurrent (s.thread .imgWorker) s.shared

end ADTimePix3.Arrays
