import ADTimePix3.Lib.Counts
import ADTimePix3.Lib.Logs
import ADTimePix3.Stream.Json
import ADTimePix3.Stream.LineBuffer

/-!
# The read loops and their sizes

The read loops of `runPreviewTcpWorker` and `imgWorkerThread` (`serval_stream.cpp`) and of `prvHstWorkerThread`
(`histogram_io.cpp`) from their start on, with the sizes as the machine computes them: a subtraction of `size_t`s
that underflows wraps around. A worker logs what it asks `receive` for, the single bytes that it writes to its
buffer, and its subtractions. What else happens is an input: the flags that the loop reads, what `recv` returns,
and what the line function makes of a header. An exception can leave the line function, and then skips the rest of
the turn.

Left out: connecting, mutexes (`Stream/FrameLocks.lean`), logging and the guards on null pointers and on the length
of the line buffer, which has `MAX_BUFFER_SIZE` bytes from the start of the worker.
-/

namespace ADTimePix3.Stream.ReceiveLoop

open Counts Logged Memory

/-- What `json::parse` does with a text: it gives a value, or throws a `json::parse_error` or something else. -/
inductive Parsed where
  | value (j : Json)
  | parse_error
  | other_exception

/-- What `NetworkClient::receive` does with a request for some number of bytes. It gives no more than these, and
none of them only when the peer has closed or when nothing was asked for; `none` is a return value of -1. -/
structure Recv where
  result : ℕ → Option (List UInt8)
  closed : Bool
  length_le : ∀ max_size bytes, result max_size = some bytes → bytes.length ≤ max_size
  closed_of_nil : ∀ max_size, result max_size = some [] → max_size = 0 ∨ closed = true

/-! ## What is logged -/

inductive Access where
  /-- A call of `receive` that writes behind the first `totalRead` bytes. -/
  | receive (totalRead max_size : ℕ) (recv : Recv)
  /-- A byte written to the buffer. -/
  | store (index : ℕ)
  /-- A subtraction `a - b`. -/
  | subtract (a b : ℕ)

/-- At a receive there is room for the bytes that are asked for and the NUL, at least one byte is asked for, and
nothing comes back only when the peer has closed. Bytes are written inside the buffer, and no subtraction
underflows. -/
def Access.Right : Access → Prop
  | .receive totalRead max_size recv =>
    totalRead ≤ MAX_BUFFER_SIZE - 2 ∧ 1 ≤ max_size ∧ totalRead + max_size < MAX_BUFFER_SIZE ∧
      (recv.result max_size = some [] → recv.closed = true)
  | .store index => index < MAX_BUFFER_SIZE
  | .subtract a b => b ≤ a

/-- `a - b`, for `size_t`s. -/
def sub (a b : ℕ) : Logged Access ℕ := do
  tell (.subtract a b)
  return wrapAdd (2 ^ 64) a (2 ^ 64 - b)

/-! ## The line functions -/

/-- What a line function does with a header. It returns before it takes the payload, or it takes what is in the
buffer and, when the client is `connected`, asks for the rest. `ok` is what it returns, `false` also when it has
caught an exception. -/
inductive Processing where
  | early (ok : Bool)
  | payload (binary_needed : ℕ) (connected ok : Bool)

/-- What a turn of the loop meets: `running` at the start of the turn and after connecting, `connected` (with a
client), what `receive` returns and what the line function makes of a header; for the histogram worker also
whether accumulation is enabled, before the receive and in the line function, and whether the client is still
there under the mutex. -/
structure Turn where
  running : Bool
  stillRunning : Bool
  connected : Bool
  accumulationEnable : Bool
  hasClient : Bool
  recv : Recv
  lineAccumulationEnable : Bool
  process : Line → Json → Processing

/-- The subtractions for the payload. -/
def takePayload (line : Line) (binary_needed : ℕ) (connected : Bool) : Logged Access Unit := do
  let line_length ← sub line.newline_pos line.line_buffer
  let remaining ← sub line.total_read (line_length + 1)
  let binary_read := min remaining binary_needed
  if binary_read < binary_needed && connected then
    let _ ← sub binary_needed binary_read

/-- What is done with a parsed header, where every exception is caught. -/
def processHeader (turn : Turn) (line : Line) (j : Json) : Logged Access Bool :=
  match turn.process line j with
  | .early ok => return ok
  | .payload binary_needed connected ok => do
    takePayload line binary_needed connected
    return ok

/-- `processPreviewJsonimageLine` and `processImgDataLine`; `none` is an exception. Where the header is parsed
only a `json::parse_error` is caught. -/
def processJsonimageLine (parse : List UInt8 → Parsed) (turn : Turn) (line : Line) :
    Logged Access (Option Bool) :=
  let json_start := (skipBinary true line.buffer line.line_buffer MAX_BUFFER_SIZE).val
  if line.buffer json_start != '{'.toUInt8 then return some true
  else
    match parse (readCString line.buffer json_start).val with
    | .parse_error => return some true
    | .other_exception => return none
    | .value j => do return some (← processHeader turn line j)

/-- `processPrvHstDataLine`; `none` is an exception. -/
def processPrvHstDataLine (parse : List UInt8 → Parsed) (turn : Turn) (line : Line) :
    Logged Access (Option Bool) := do
  if !turn.lineAccumulationEnable then return some true
  if line.newline_pos ≤ line.line_buffer then return some false
  let line_length ← sub line.newline_pos line.line_buffer
  if line_length = 0 then return some true
  let json_start := (skipBinary false line.buffer line.line_buffer line.newline_pos).val
  if json_start ≥ line.newline_pos || line.buffer json_start != '{'.toUInt8 then return some true
  let json_length ← sub line.newline_pos json_start
  match parse (slice line.buffer json_start json_length) with
  | .parse_error => return some true
  | .other_exception => return none
  | .value j => return some (← processHeader turn line j)

/-! ## The buffer -/

/-- The line buffer, and how many bytes are in it. -/
structure LineBuffer where
  buffer : ℕ → UInt8
  totalRead : ℕ

/-- A worker starts with an empty buffer, whatever its bytes. -/
def start (buffer : ℕ → UInt8) : LineBuffer := ⟨buffer, 0⟩

namespace LineBuffer

/-- Receive behind the bytes that are in the buffer; nothing comes of it when the worker leaves its loop. -/
def receive (lb : LineBuffer) (recv : Recv) (max_size : ℕ) : Logged Access (Option LineBuffer) := do
  tell (.receive lb.totalRead max_size recv)
  match recv.result max_size with
  | some (b :: bytes) =>
    return some
      { buffer := Memory.store lb.buffer lb.totalRead (b :: bytes)
        totalRead := wrapAdd (2 ^ 64) lb.totalRead (b :: bytes).length }
  | _ => return none

/-- `lineBuffer[index] = '\0'`. -/
def setNul (lb : LineBuffer) (index : ℕ) : Logged Access LineBuffer := do
  tell (.store index)
  return { lb with buffer := set lb.buffer index 0 }

/-- Move what follows the newline to the start of the buffer. -/
def dropLine (lb : LineBuffer) (newline_pos : ℕ) : Logged Access LineBuffer := do
  let remaining ← sub lb.totalRead (newline_pos + 1)
  return { buffer := moveDown lb.buffer (newline_pos + 1) remaining, totalRead := remaining }

/-- Discard everything when the buffer is full. -/
def resetIfFull (lb : LineBuffer) : LineBuffer :=
  if lb.totalRead ≥ MAX_BUFFER_SIZE - 1 then { lb with totalRead := 0 } else lb

end LineBuffer

/-! ## The scan for a line -/

/-- What the workers do differently with a line: whether characters count in the search for a header, which
members make a line a header, and the line function. -/
structure LineRules where
  countChars : Bool
  headerKeys : List String
  processLine : (List UInt8 → Parsed) → Turn → Line → Logged Access (Option Bool)

/-- The line parses, and has one of the members of a header. Every exception is caught. -/
def LineRules.isHeader (rules : LineRules) (parse : List UInt8 → Parsed) (text : List UInt8) : Bool :=
  match parse text with
  | .value j => rules.headerKeys.any j.contains
  | _ => false

/-- How the scan ends: the loop is left, an exception is thrown, or neither. -/
inductive Scanned where
  | breaks
  | throws (lb : LineBuffer)
  | done (lb : LineBuffer)

/-- Look for a line in the buffer, and process it when it is a header. -/
def scanLine (rules : LineRules) (parse : List UInt8 → Parsed) (turn : Turn) (lb : LineBuffer) :
    Logged Access Scanned := do
  match (memchr lb.buffer '\n' lb.totalRead).val with
  | none => return .done lb.resetIfFull
  | some newline_pos =>
    match (findJsonStart rules.countChars lb.buffer newline_pos).val with
    | none => return .done (← lb.dropLine newline_pos)
    | some json_start =>
      let json_length ← sub newline_pos json_start
      if rules.isHeader parse (slice lb.buffer json_start json_length) then
        let lb ← lb.setNul newline_pos
        match ← rules.processLine parse turn ⟨lb.buffer, json_start, newline_pos, lb.totalRead⟩ with
        | none => return .throws lb
        | some false => return .breaks
        | some true => return .done (← lb.dropLine newline_pos)
      else return .done (← lb.dropLine newline_pos)

/-- The end of a turn. An exception is caught, and the buffer left as it is. -/
def Scanned.finish : Scanned → Option LineBuffer
  | .breaks => none
  | .throws lb => some lb
  | .done lb => some lb.resetIfFull

/-! ## The workers -/

/-- A turn of `runPreviewTcpWorker` and of `imgWorkerThread`. -/
def readTurn (rules : LineRules) (parse : List UInt8 → Parsed) (turn : Turn) (lb : LineBuffer) :
    Logged Access (Option LineBuffer) := do
  if !turn.running || !turn.stillRunning then return none
  if !turn.connected then return some lb
  let space ← sub MAX_BUFFER_SIZE lb.totalRead
  let max_size ← sub space 1
  match ← lb.receive turn.recv max_size with
  | none => return none
  | some lb =>
    let lb ← lb.setNul lb.totalRead
    return (← scanLine rules parse turn lb).finish

def jsonimageLines : LineRules where
  countChars := true
  headerKeys := ["width", "frameNumber", "height", "timeAtFrame"]
  processLine := processJsonimageLine

def runPreviewTcpWorker := readTurn jsonimageLines

def imgWorkerThread := readTurn jsonimageLines

def jsonhistoLines : LineRules where
  countChars := false
  headerKeys := ["binSize", "binWidth", "timeAtFrame"]
  processLine := processPrvHstDataLine

/-- A turn of `prvHstWorkerThread`, with its guards on the size of the buffer. -/
def prvHstWorkerThread (parse : List UInt8 → Parsed) (turn : Turn) (lb : LineBuffer) :
    Logged Access (Option LineBuffer) := do
  if !turn.running || !turn.stillRunning then return none
  if !turn.connected || !turn.accumulationEnable then return some lb
  if !turn.hasClient then return none
  let lb := if lb.totalRead ≥ MAX_BUFFER_SIZE then { lb with totalRead := 0 } else lb
  let space ← sub MAX_BUFFER_SIZE lb.totalRead
  let available_space ← sub space 1
  if available_space = 0 || available_space > MAX_BUFFER_SIZE then return none
  match ← lb.receive turn.recv available_space with
  | none => return none
  | some lb =>
    let lb := if lb.totalRead ≥ MAX_BUFFER_SIZE then { lb with totalRead := MAX_BUFFER_SIZE - 1 } else lb
    let lb ← lb.setNul lb.totalRead
    return (← scanLine jsonhistoLines parse turn lb).finish

end ADTimePix3.Stream.ReceiveLoop
