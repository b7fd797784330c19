import ADTimePix3.Hst.Accumulation
import ADTimePix3.Lib.RecursiveMutex
import ADTimePix3.Lib.Runs

/-!
# The workers and their mutexes

`imgWorkerThread`, `imgConnect`, `processImgDataLine` and `processImgFrame` (`serval_stream.cpp`), and
`prvHstWorkerThread`, `prvHstConnect`, `processPrvHstDataLine` and `processPrvHstFrame` (`histogram_io.cpp`), with
what they do to the mutex of their channel, which is recursive, and the callbacks that the frame functions make.
Which way a function goes is an input: the flags it reads, what is received, what a header says, and where an
exception is thrown. In a result `none` is an exception that leaves the function.

Left out: the other callbacks (of single parameters and of the image itself), logging, and the guards on null
pointers. The mutex protects what is in `Img/Accumulation.lean` and `Hst/Accumulation.lean`; the callbacks of a frame
are the outputs there.
-/

namespace ADTimePix3.Stream.FrameLocks

open Logged RecursiveMutex

/-- The callbacks one after the other; with `throwsAt = some i` the one with index `i` throws. -/
def makeCallbacks {κ : Type} : (throwsAt : Option ℕ) → List κ → Logged (Op κ) (Option Unit)
  | _, [] => return some ()
  | some 0, callback :: _ => do
    tell (.call callback)
    return none
  | throwsAt, callback :: callbacks => do
    tell (.call callback)
    makeCallbacks (throwsAt.map (· - 1)) callbacks

/-! ## The Img frame -/

/-- How the locked section of `processImgFrame` ends. -/
inductive ImgSection where
  /-- An exception is thrown outside the `try` around `add_image`. -/
  | throws
  /-- `add_image` throws. -/
  | notAdded
  /-- There are callbacks to be made, at least that of the running sum. -/
  | added (out : List Img.Output) (nonempty : out ≠ [])

def processImgFrame (imgSection : ImgSection) (throwsAt : Option ℕ) : Logged (Op Img.Output) (Option Unit) := do
  tell .lock
  match imgSection with
  | .throws => return none
  | .notAdded =>
    tell .unlock
    return some ()
  | .added out _ =>
    tell .unlock
    makeCallbacks throwsAt out

/-- How far a line function gets with the header: it throws where only a `json::parse_error` is caught, it
returns, or it goes on to the payload. -/
inductive Header where
  | throws
  | returns (ok : Bool)
  | accepted
deriving DecidableEq

/-- What `processImgDataLine` meets: the header, whether the payload is received, whether it stops (or has an
exception to catch) before the frame is accumulated, `ImgAccumulationEnable`, the threshold, the frame, and whether
it has an exception to catch afterwards. -/
structure ImgLine where
  header : Header
  received : Bool
  stopsBefore : Bool
  accumulationEnable : Bool
  threshold_id : ℤ
  imgSection : ImgSection
  throwsAt : Option ℕ
  throwsAfter : Bool

/-- What is done with an image that is complete. -/
def accumulateImage (l : ImgLine) : Logged (Op Img.Output) (Option Bool) :=
  if l.accumulationEnable && l.threshold_id != 1 then do
    match ← processImgFrame l.imgSection l.throwsAt with
    | none => return some false
    | some _ => return some !l.throwsAfter
  else return some !l.throwsAfter

def processImgDataLine (l : ImgLine) : Logged (Op Img.Output) (Option Bool) :=
  match l.header with
  | .throws => return none
  | .returns ok => return some ok
  | .accepted =>
    if l.received then do
      underMutex
      if l.stopsBefore then return some false
      else accumulateImage l
    else do
      underMutex
      return some false

/-! ## The histogram -/

/-- Where `processPrvHstFrame` throws. -/
inductive HstPoint where
  /-- Under the mutex, before the frame is added. -/
  | runningSum
  /-- Under the mutex, after the frame has been added. -/
  | frameBuffer
  /-- Under the mutex, after the waveform of the sum of the last frames. -/
  | timeAxis
  | dataCallback
  /-- Under the mutex again, while the current frame is copied. -/
  | currentFrame
  | frameCallback
  /-- Under the mutex again, after some of the arrays. -/
  | array (made : ℕ)
  | samples
deriving DecidableEq

/-- What `processPrvHstFrame` meets: `PrvHstAccumulationEnable`, whether the frame is added, and what it gives to its
callbacks. -/
structure HstFrame where
  accumulationEnable : Bool
  added : Bool
  sumNFrames : Option (List ℤ)
  timeMs : Option (List ℤ)
  data : List ℤ
  frame : Option (List ℤ)
  arrays : List (ℕ × List ℤ)
  throwsAt : Option HstPoint

namespace HstFrame

def arrayCallbacks (f : HstFrame) : List Hst.Output := f.arrays.map fun array => .ndArray array.1 array.2

/-- The callback of a waveform, if there is one. -/
def waveform (mk : List ℤ → Hst.Output) (value : Option (List ℤ)) : Logged (Op Hst.Output) Unit :=
  match value with
  | some value => tell (.call (mk value))
  | none => return ()

/-- The index of the array whose callback throws. -/
def arrayThrowsAt (f : HstFrame) : Option ℕ :=
  match f.throwsAt with
  | some (.array made) => some made
  | _ => none

/-- The arrays, under the mutex, and the rest of the function. -/
def publishArrays (f : HstFrame) : Logged (Op Hst.Output) (Option Unit) := do
  match ← makeCallbacks f.arrayThrowsAt f.arrayCallbacks with
  | none => return none
  | some _ =>
    if f.throwsAt = some .samples then return none
    else
      tell .unlock
      return some ()

/-- The current frame, which is copied under the mutex, and the arrays. -/
def publishFrame (f : HstFrame) : Logged (Op Hst.Output) (Option Unit) := do
  tell .lock
  match f.frame with
  | none => publishArrays f
  | some value =>
    if f.throwsAt = some .currentFrame then return none
    else
      tell .unlock
      tell (.call (.histogramFrame value))
      if f.throwsAt = some .frameCallback then return none
      else
        tell .lock
        publishArrays f

/-- From the unlock on. An exception of the first callback is caught. -/
def publish (f : HstFrame) : Logged (Op Hst.Output) (Option Unit) := do
  tell .unlock
  waveform .histogramTimeMs f.timeMs
  tell (.call (.histogramData f.data))
  if f.throwsAt = some .dataCallback then return none
  else publishFrame f

end HstFrame

def processPrvHstFrame (f : HstFrame) : Logged (Op Hst.Output) (Option Unit) :=
  if !f.accumulationEnable then return some ()
  else do
    tell .lock
    if f.throwsAt = some .runningSum then return none
    else if !f.added then
      tell .unlock
      return some ()
    else if f.throwsAt = some .frameBuffer then return none
    else
      HstFrame.waveform .histogramSumNFrames f.sumNFrames
      if f.throwsAt = some .timeAxis then return none
      else f.publish

/-- What `processPrvHstDataLine` meets: the header, its bin size, whether the rate is stored without an exception,
whether it has another exception to catch before the payload, whether payload is missing and received, and the
frame. -/
structure HstLine where
  header : Header
  validBinSize : Bool
  rateThrows : Bool
  throwsBefore : Bool
  needsMore : Bool
  received : Bool
  frame : HstFrame

/-- What is done with a histogram that is complete. -/
def accumulateHistogram (l : HstLine) : Logged (Op Hst.Output) (Option Bool) := do
  match ← processPrvHstFrame l.frame with
  | none => return some false
  | some _ => return some true

/-- The payload, of which the rest is received under the mutex. -/
def readBins (l : HstLine) : Logged (Op Hst.Output) (Option Bool) :=
  if l.throwsBefore then return some false
  else if l.needsMore then do
    underMutex
    if l.received then accumulateHistogram l
    else return some false
  else accumulateHistogram l

def processPrvHstDataLine (l : HstLine) : Logged (Op Hst.Output) (Option Bool) :=
  match l.header with
  | .throws => return none
  | .returns ok => return some ok
  | .accepted => do
    underMutex
    if l.validBinSize then
      tell .lock
      if l.rateThrows then return some false
      else
        tell .unlock
        readBins l
    else return some false

/-! ## The workers -/

/-- How an attempt to connect ends. -/
inductive Connect where
  | noAddress
  | failed
  | connected

/-- `imgConnect` and `prvHstConnect`, which disconnect first. -/
def connect {κ : Type} : Connect → Logged (Op κ) Unit
  | .noAddress => underMutex
  | .failed => do
    underMutex
    underMutex
  | .connected => do
    underMutex
    underMutex
    underMutex

/-- What a turn of a worker's loop meets: `running` at its start, whether there is a connection to be made and how
that ends, `running` again, whether there is a connection, whether bytes are received, and the header that is then
found in the buffer. -/
structure Turn (ι : Type) where
  running : Bool
  shouldConnect : Bool
  connect : Connect
  stillRunning : Bool
  connected : Bool
  received : Bool
  line : Option ι

/-- What is done with the received bytes; an exception is caught at the end of the turn. The result says whether the
loop goes on. -/
def scan {κ ι : Type} (processLine : ι → Logged (Op κ) (Option Bool)) (line : Option ι) : Logged (Op κ) Bool := do
  tell .lock
  match line with
  | none =>
    tell .unlock
    return true
  | some line =>
    match ← processLine line with
    | none =>
      tell .unlock
      return true
    | some ok =>
      tell .unlock
      return ok

/-- The receive, and what is done with the bytes. -/
def receive {κ ι : Type} (processLine : ι → Logged (Op κ) (Option Bool)) (t : Turn ι) : Logged (Op κ) Bool := do
  underMutex
  if t.received then scan processLine t.line
  else
    underMutex
    return false

/-- From the connection on. -/
def imgRead (t : Turn ImgLine) : Logged (Op Img.Output) Bool :=
  if !t.stillRunning then return false
  else do
    underMutex
    if t.connected then receive processImgDataLine t
    else return true

/-- One turn of `imgWorkerThread`. -/
def imgWorkerThread (t : Turn ImgLine) : Logged (Op Img.Output) Bool :=
  if !t.running then return false
  else do
    underMutex
    if t.shouldConnect then
      connect t.connect
      imgRead t
    else imgRead t

/-- A turn of the histogram worker also meets an address that it cannot connect to, accumulation that is disabled,
and, under the mutex, a client that is gone or a buffer that is full. -/
structure HstTurn extends Turn HstLine where
  validAddress : Bool
  connectedAfter : Bool
  accumulationEnable : Bool
  canReceive : Bool

/-- From the connection on. -/
def prvHstRead (t : HstTurn) : Logged (Op Hst.Output) Bool :=
  if !t.stillRunning then return false
  else do
    underMutex
    if t.connected && t.accumulationEnable then
      if t.canReceive then receive processPrvHstDataLine t.toTurn
      else
        underMutex
        return false
    else return true

/-- One turn of `prvHstWorkerThread`. -/
def prvHstWorkerThread (t : HstTurn) : Logged (Op Hst.Output) Bool :=
  if !t.running then return false
  else do
    underMutex
    if t.shouldConnect then
      if t.validAddress then
        connect t.connect
        underMutex
        if t.connectedAfter then prvHstRead t
        else return true
      else return true
    else prvHstRead t

/-! ## Which turns are right -/

/-- The image is complete and goes to `processImgFrame`. -/
def ImgLine.accumulates (l : ImgLine) : Bool :=
  l.header = .accepted && l.received && !l.stopsBefore && l.accumulationEnable && l.threshold_id != 1

/-- The Img worker receives bytes. -/
def Turn.reads (t : Turn ImgLine) : Bool := t.running && t.stillRunning && t.connected && t.received

/-- No image goes to `processImgFrame`, except for one that cannot be added. -/
def ImgClear (t : Turn ImgLine) : Prop :=
  t.reads = true → ∀ l ∈ t.line, l.accumulates = true → l.imgSection = .notAdded

/-- `processPrvHstFrame` returns without having added the frame. -/
def HstFrame.dropped (f : HstFrame) : Bool :=
  !f.accumulationEnable || f.throwsAt != some .runningSum && !f.added

/-- The histogram is complete and goes to `processPrvHstFrame`. -/
def HstLine.accumulates (l : HstLine) : Bool := !l.throwsBefore && (!l.needsMore || l.received)

/-- The histogram worker receives bytes. -/
def HstTurn.reads (t : HstTurn) : Bool :=
  t.running && (!t.shouldConnect || t.validAddress && t.connectedAfter) &&
    (t.stillRunning && t.connected && t.accumulationEnable && t.canReceive && t.received)

/-- The rate of a valid header is stored without an exception, and no histogram goes to `processPrvHstFrame`, except
for one that it does not add. -/
def HstClear (t : HstTurn) : Prop :=
  t.reads = true → ∀ l ∈ t.line, l.header = .accepted → l.validBinSize = true →
    l.rateThrows = false ∧ (l.accumulates = true → l.frame.dropped = true)

/-! ## Runs -/

/-- A worker between two turns: whether it is in its loop, and its hold count of the mutex. -/
structure Thread where
  running : Bool
  held : ℤ

def Thread.start : Thread := ⟨true, 0⟩

def threadStep {κ τ : Type} (worker : τ → Logged (Op κ) Bool) (s : Thread) (t : τ) : Option Thread :=
  some (if s.running then ⟨(worker t).val, s.held + net (worker t).log⟩ else s)

/-- The callbacks of the turn are made with the mutex free, and the turn leaves it free. -/
def TurnRight {κ τ : Type} (free : κ → Prop) (worker : τ → Logged (Op κ) Bool) (s : Thread) (t : τ) : Prop :=
  s.running = true → Sound free s.held 0 (worker t)

/-- Every callback of `processImgFrame` is made after its unlock. -/
def imgAfterUnlock : Img.Output → Prop := fun _ => True

/-- Of the callbacks of `processPrvHstFrame` that of the sum of the last frames is made before its unlock. -/
def prvHstAfterUnlock : Hst.Output → Prop
  | .histogramSumNFrames _ => False
  | _ => True

end ADTimePix3.Stream.FrameLocks
