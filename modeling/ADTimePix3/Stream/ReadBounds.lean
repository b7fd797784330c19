import ADTimePix3.Stream.Worker

/-!
# Where the bytes of a frame come from

What a worker may read from its line buffer, and what may become pixels or bins of a frame. After the copy of a
payload its bytes stay in the buffer, behind the newline of their header, so that the next turn scans them once more.
A byte is therefore known by its place among all the bytes that were ever put into the buffer (`origin`), and not by
the index at which it happens to lie.
-/

namespace ADTimePix3.Stream

open Memory

variable {σ : Type}

/-! ## The payload that a line asks for -/

/-- The payload that a jsonimage line announces, when its header gets that far. -/
def imageRequest (env : Env) (integrates : Bool) (line : Line) (images : List Image) : Option ℕ :=
  match acceptHeader env integrates (env.alloc images.length)
    (readCString line.buffer line.line_buffer).val with
  | .error _ => none
  | .ok header => some header.binaryNeeded

/-- The payload that a jsonhisto line announces, when its header gets that far. -/
def histRequest (env : Env) (line : Line) (ch : Hst.PrvHstChannel) : Option ℕ :=
  if ch.accumulationEnable then
    match Hst.acceptHistHeader env ch.state
      (slice line.buffer line.line_buffer (line.newline_pos - line.line_buffer)) with
    | .error _ => none
    | .ok (header, _) => some header.binaryNeeded
  else none

/-- The line that a scan hands to the line function. -/
def scannedLine (kind : LineKind σ) (w : Worker σ) : Option Line := do
  let newline_pos ← (memchr w.buffer '\n' w.totalRead).val
  let json_start ← (findJsonStart kind.countChars w.buffer newline_pos).val
  if kind.isHeader (slice w.buffer json_start (newline_pos - json_start)) then
    some ⟨set w.buffer newline_pos 0, json_start, newline_pos, w.totalRead⟩
  else none

/-- The line, with the payload it asks for. -/
def payloadLine (kind : LineKind σ) (request : Line → σ → Option ℕ) (w : Worker σ) : Option (Line × ℕ) := do
  let line ← scannedLine kind w
  let needed ← request line w.channel
  return (line, needed)

/-! ## Runs -/

/-- A run of a read loop: for each turn the worker before it, the worker after its receive, the indices of the line
buffer that it reads, and the line that gets as far as its payload. -/
structure ReadRun (σ : Type) where
  before : ℕ → Worker σ
  filled : ℕ → Worker σ
  reads : ℕ → List ℕ
  payload : ℕ → Option (Line × ℕ)

/-- The worker after the receive of its turn. -/
def filledBy (more : Worker σ → Worker σ) (w : Worker σ) : Worker σ := if w.running then more w else w

/-- The run from a worker, for a loop with its receive, its lines and the payload these ask for. -/
def readRun (turn : Worker σ → Traced (Worker σ)) (more : Worker σ → Worker σ) (kind : LineKind σ)
    (request : Line → σ → Option ℕ) (w : Worker σ) : ReadRun σ where
  before := fun n => turns turn n w
  filled := fun n => filledBy more (turns turn n w)
  reads := fun n => (turn (turns turn n w)).reads
  payload := fun n =>
    let filled := filledBy more (turns turn n w)
    if filled.running then payloadLine kind request filled else none

def previewRun (env : Env) (stream : PreviewJsonimageStream) : Worker (List Image) → ReadRun (List Image) :=
  readRun (runPreviewTcpWorker env stream) readMore
    (jsonimageLines env (processPreviewJsonimageLine env stream)) (imageRequest env true)

def imgRun (env : Env) : Worker (List Image) → ReadRun (List Image) :=
  readRun (imgWorkerThread env) readMore (jsonimageLines env (processImgDataLine env)) (imageRequest env false)

/-- With accumulation disabled nothing is received. -/
def prvHstRun (env : Env) : Worker Hst.PrvHstChannel → ReadRun Hst.PrvHstChannel :=
  readRun (prvHstWorkerThread env) (fun w => if w.channel.accumulationEnable then prvHstReadMore w else w)
    (jsonhistoLines env) (histRequest env)

namespace ReadRun

variable (run : ReadRun σ)

/-- The indices from which the turn copies payload. -/
def taken (n : ℕ) : List ℕ :=
  match run.payload n with
  | none => []
  | some (line, needed) => (copyBuffered line needed).reads

/-- How many bytes have left the buffer before the turn. They leave it at its start. -/
def gone (n : ℕ) : ℕ :=
  ((List.range n).map fun k => (run.filled k).totalRead - (run.before (k + 1)).totalRead).sum

/-- The bytes that were put into the buffer by the first `n` turns. -/
def arrived (n : ℕ) : List UInt8 :=
  (List.range n).flatMap fun k => slice (run.filled k).buffer (run.before k).totalRead
    ((run.filled k).totalRead - (run.before k).totalRead)

/-- Which of all those bytes lies at an index, in the turn. -/
def origin (n i : ℕ) : ℕ := run.gone n + i

/-- The frame of a turn has taken the byte for its pixels or bins. -/
def TakenBy (n p : ℕ) : Prop := ∃ i ∈ run.taken n, i < (run.filled n).totalRead ∧ run.origin n i = p

/-- What is read is among the received bytes, and so inside the buffer; what becomes pixels or bins lies behind the
header, and no earlier frame has taken it. -/
structure ReadsRight (n : ℕ) : Prop where
  received : ∀ i ∈ run.reads n, i < (run.filled n).totalRead ∧ i < MAX_BUFFER_SIZE
  behind : ∀ line needed, run.payload n = some (line, needed) → ∀ i ∈ run.taken n, line.newline_pos < i
  unused : ∀ i ∈ run.taken n, ∀ k < n, ¬ run.TakenBy k (run.origin n i)

/-- The bytes are those at the indices taken; and where such an index is among the received bytes, the byte is the one
of all that have arrived that its origin says. -/
structure MadeOf (n : ℕ) (bytes : List UInt8) : Prop where
  bytes_eq : bytes = (run.taken n).map (run.filled n).buffer
  origin_eq : ∀ i ∈ run.taken n, i < (run.filled n).totalRead →
    (run.arrived (n + 1))[run.origin n i]? = some ((run.filled n).buffer i)

/-- The turn puts no image, or one of the header of its line, whose pixels are the bytes taken and behind them what
the socket gives. -/
def PutsImage (env : Env) (integrates : Bool) (run : ReadRun (List Image)) (n : ℕ) : Prop :=
  (run.before (n + 1)).channel = (run.before n).channel ∨
    ∃ line header bytes rest client image,
      acceptHeader env integrates (env.alloc (run.before n).channel.length)
        (readCString line.buffer line.line_buffer).val = .ok header ∧
      run.payload n = some (line, header.binaryNeeded) ∧ run.MadeOf n bytes ∧
      receivePayload (run.filled n).client (header.binaryNeeded - bytes.length) = (some rest, client) ∧
      (run.before (n + 1)).channel = (run.before n).channel ++ [image] ∧
      image.pixels = convertPixels header.format header.pixelCount (bytes ++ rest)

/-- The turn hands no histogram on, or one of the header of its line, whose bins are the bytes taken and behind them
what the socket gives. -/
def HandsHistogram (env : Env) (run : ReadRun Hst.PrvHstChannel) (n : ℕ) : Prop :=
  (run.before (n + 1)).channel.handed = (run.before n).channel.handed ∨
    ∃ line header state bytes rest client,
      Hst.acceptHistHeader env (run.before n).channel.state
        (slice line.buffer line.line_buffer (line.newline_pos - line.line_buffer)) = .ok (header, state) ∧
      run.payload n = some (line, header.binaryNeeded) ∧ run.MadeOf n bytes ∧
      Hst.receiveBins (run.filled n).client (header.binaryNeeded - bytes.length) = (some rest, client) ∧
      (run.before (n + 1)).channel.handed =
        (run.before n).channel.handed ++ [Hst.frameHistogram header (bytes ++ rest)]

/-- A line that gets as far as its payload starts the buffer or has all of its payload behind it; and if it has some,
nothing behind its newline was taken by an earlier frame. -/
structure PayloadInReach (n : ℕ) : Prop where
  reach : ∀ line needed, run.payload n = some (line, needed) →
    line.line_buffer = 0 ∨ needed ≤ line.total_read - (line.newline_pos + 1)
  ahead : ∀ line needed, run.payload n = some (line, needed) → 0 < needed →
    line.newline_pos + 1 < line.total_read →
    ∀ k < n, ∀ p, run.TakenBy k p → p ≤ run.origin n line.newline_pos

end ReadRun

end ADTimePix3.Stream
