import ADTimePix3.Hst.PrvHst

/-!
# The stream workers

The read loops of `runPreviewTcpWorker` and `imgWorkerThread` (`serval_stream.cpp`) and of
`prvHstWorkerThread` (`histogram_io.cpp`) while they are connected. What the three do with the bytes once
they are in the line buffer is the same code (`scanBuffer`); the histogram worker has guards of its own before
and after the receive.

Left out: connecting and disconnecting, mutexes and logging.
-/

namespace ADTimePix3.Stream

open Memory

/-- A worker: its line buffer, how many bytes are in it, the client and the channel. `running` is false once
the loop has been left. -/
structure Worker (σ : Type) where
  running : Bool
  buffer : ℕ → UInt8
  totalRead : ℕ
  client : NetworkClient
  channel : σ

/-- What the workers do differently with a line: whether characters count in the search for a header, which
members make a line a header, and the line function. -/
structure LineKind (σ : Type) where
  parse : List UInt8 → Option Json
  countChars : Bool
  headerKeys : List String
  processLine : Line → NetworkClient → σ → Traced (LineResult σ)

variable {σ : Type}

/-- The line parses, and has one of the members of a header. -/
def LineKind.isHeader (kind : LineKind σ) (text : List UInt8) : Bool :=
  match kind.parse text with
  | none => false
  | some j => kind.headerKeys.any j.contains

namespace Worker

def exit (w : Worker σ) : Worker σ := { w with running := false }

/-- Move what follows the newline to the start of the buffer. -/
def dropLine (w : Worker σ) (newline_pos : ℕ) : Traced (Worker σ) := do
  let rem := w.totalRead - (newline_pos + 1)
  let _ ← readRange w.buffer (newline_pos + 1) rem
  return { w with buffer := moveDown w.buffer (newline_pos + 1) rem, totalRead := rem }

/-- Look for a line in the buffer, and process it when it is a header. -/
def scanLine (kind : LineKind σ) (w : Worker σ) : Traced (Worker σ) := do
  match ← memchr w.buffer '\n' w.totalRead with
  | none => return w
  | some newline_pos =>
    match ← findJsonStart kind.countChars w.buffer newline_pos with
    | none => w.dropLine newline_pos
    | some json_start =>
      let json_str ← readRange w.buffer json_start (newline_pos - json_start)
      if kind.isHeader json_str then
        let buffer := set w.buffer newline_pos 0
        let line : Line := ⟨buffer, json_start, newline_pos, w.totalRead⟩
        let result ← kind.processLine line w.client w.channel
        let w := { w with buffer := buffer, client := result.client, channel := result.channel }
        if result.ok then w.dropLine newline_pos else return w.exit
      else w.dropLine newline_pos

/-- Discard everything when the buffer is full. -/
def resetIfFull (w : Worker σ) : Worker σ :=
  if w.running && w.totalRead ≥ MAX_BUFFER_SIZE - 1 then { w with totalRead := 0 } else w

/-- What is done after a receive. -/
def scanBuffer (kind : LineKind σ) (w : Worker σ) : Traced (Worker σ) := resetIfFull <$> w.scanLine kind

/-- Put the next received bytes behind those in the buffer; leave the loop when there are none. -/
def receive (w : Worker σ) (max_size : ℕ) : Worker σ :=
  match w.client.receive max_size with
  | (some (b :: bytes), client) =>
    { w with
      buffer := store w.buffer w.totalRead (b :: bytes)
      totalRead := w.totalRead + (b :: bytes).length
      client := client }
  | (_, client) => { w.exit with client := client }

/-- Put a NUL behind the bytes in the buffer, unless the loop has been left. -/
def terminate (w : Worker σ) : Worker σ :=
  if w.running then { w with buffer := set w.buffer w.totalRead 0 } else w

end Worker

open Worker

/-- The receive of `runPreviewTcpWorker` and of `imgWorkerThread`. -/
def readMore (w : Worker σ) : Worker σ := (w.receive (MAX_BUFFER_SIZE - w.totalRead - 1)).terminate

/-- One turn of their read loops. -/
def readTurn (kind : LineKind σ) (w : Worker σ) : Traced (Worker σ) :=
  if !w.running then pure w
  else
    let w := readMore w
    if w.running then w.scanBuffer kind else pure w

def jsonimageLines (env : Env)
    (processLine : Line → NetworkClient → List Image → Traced (LineResult (List Image))) :
    LineKind (List Image) where
  parse := env.parse
  countChars := true
  headerKeys := ["width", "frameNumber", "height", "timeAtFrame"]
  processLine := processLine

def runPreviewTcpWorker (env : Env) (stream : PreviewJsonimageStream) :
    Worker (List Image) → Traced (Worker (List Image)) :=
  readTurn (jsonimageLines env (processPreviewJsonimageLine env stream))

def prvImgWorkerThread (env : Env) := runPreviewTcpWorker env ⟨0, 8⟩

def prvImg1WorkerThread (env : Env) := runPreviewTcpWorker env ⟨10, 11⟩

def imgWorkerThread (env : Env) : Worker (List Image) → Traced (Worker (List Image)) :=
  readTurn (jsonimageLines env (processImgDataLine env))

def jsonhistoLines (env : Env) : LineKind Hst.PrvHstChannel where
  parse := env.parse
  countChars := false
  headerKeys := ["binSize", "binWidth", "timeAtFrame"]
  processLine := Hst.processPrvHstDataLine env

/-- The receive of `prvHstWorkerThread`, with its guards on the size of the buffer. -/
def prvHstReadMore (w : Worker σ) : Worker σ :=
  let w := if w.totalRead ≥ MAX_BUFFER_SIZE then { w with totalRead := 0 } else w
  let available_space := MAX_BUFFER_SIZE - w.totalRead - 1
  if available_space = 0 then w.exit
  else
    let w := w.receive available_space
    let w := if w.totalRead ≥ MAX_BUFFER_SIZE then { w with totalRead := MAX_BUFFER_SIZE - 1 } else w
    w.terminate

/-- One turn of `prvHstWorkerThread`. With accumulation disabled it only sleeps. -/
def prvHstWorkerThread (env : Env) (w : Worker Hst.PrvHstChannel) : Traced (Worker Hst.PrvHstChannel) :=
  if !w.running || !w.channel.accumulationEnable then pure w
  else
    let w := prvHstReadMore w
    if w.running then w.scanBuffer (jsonhistoLines env) else pure w

/-- A worker that has just connected. Its buffer may hold anything. -/
def Worker.start (buffer : ℕ → UInt8) (client : NetworkClient) (channel : σ) : Worker σ where
  running := true
  buffer := buffer
  totalRead := 0
  client := client
  channel := channel

def turns (turn : Worker σ → Traced (Worker σ)) (n : ℕ) (w : Worker σ) : Worker σ :=
  (fun w => (turn w).val)^[n] w

end ADTimePix3.Stream
