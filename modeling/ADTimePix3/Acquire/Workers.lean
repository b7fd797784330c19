import ADTimePix3.Lib.Runs
import Mathlib.Logic.Function.Basic

/-!
# Stopping the stream workers

The workers of the four channels (`runPreviewTcpWorker` and `imgWorkerThread` in `serval_stream.cpp`,
`prvHstWorkerThread` in `histogram_io.cpp`) with their mutexes, and the client thread in the part of `acquireStop`
that stops them, or in the same part at the beginning of `acquireStart` (`acquire.cpp`). Any thread may make the
next step, and the server sends and closes as it likes.

A worker receives with its mutex locked; inside a line the mutex is locked once more for the pixels. Sections that
only read or set flags are one step, so that between steps a mutex is held by its worker or by nobody. What is in
the bytes is open: a line may be complete or not, fail, or want any number of bytes.

Left out: host and port, but for whether there are any, and the callback thread, which is joined before.
-/

namespace ADTimePix3.Acquire.Workers

/-! ## States -/

inductive Channel where
  | prvImg
  | prvImg1
  | img
  | prvHst
deriving DecidableEq

/-- The bytes that have arrived and are not read, and whether the server keeps the connection open. -/
structure Socket where
  available : ℕ
  isOpen : Bool
deriving DecidableEq

/-- What a worker does next. `absent` is a thread id of NULL. -/
inductive WorkerPc where
  | absent
  | loopHead
  | flags
  | connect
  | checkRunning
  | readConnected
  | receive
  | recv
  | closed
  | process
  | parse
  | recvExact (need : ℕ)
  | parsed
  | disconnect
  | finished
deriving DecidableEq

/-- A channel: its flags, how often its worker has locked the mutex, its client and its worker. -/
structure ChannelState where
  running : Bool
  connected : Bool
  locks : ℕ
  socket : Option Socket
  worker : WorkerPc
deriving DecidableEq

/-- What becomes of the bytes: the loop goes on, the line fails, or it has pixels of which `need` bytes are still
to be received. -/
inductive LineOutcome where
  | next
  | fails
  | pixels (need : ℕ)

/-- What a worker's step finds: whether there is a host and a port, whether the server accepts a connection, the
parameter of the histogram's accumulation, how many bytes a receive asks for, and the line. -/
structure WorkerInput where
  endpoint : Bool
  accepted : Bool
  accumulationEnable : Bool
  bytes : ℕ
  line : LineOutcome

/-- A statement of the client that stops the workers. -/
inductive StopOp where
  | flags (c : Channel)
  | join (c : Channel)
  | disconnect (c : Channel)
  | request
deriving DecidableEq

def StopOp.channel : StopOp → Option Channel
  | .flags c | .join c | .disconnect c => some c
  | .request => none

/-- Who stops the workers. -/
inductive Caller where
  | acquireStop
  | acquireStart

/-- The statements up to the request `/measurement/stop`. -/
def Caller.ops : Caller → List StopOp
  | .acquireStop =>
    [.flags .prvImg, .flags .prvImg1, .flags .img, .flags .prvHst,
      .join .prvImg, .join .prvImg1, .join .img, .join .prvHst,
      .disconnect .prvImg, .disconnect .prvImg1, .disconnect .img, .disconnect .prvHst, .request]
  | .acquireStart =>
    [.flags .prvImg, .join .prvImg, .disconnect .prvImg,
      .flags .prvImg1, .join .prvImg1, .disconnect .prvImg1,
      .flags .img, .join .img, .disconnect .img, .request]

/-- The channels, and what the client has still to do. -/
structure State where
  channels : Channel → ChannelState
  client : List StopOp

def State.init : State := ⟨fun _ => ⟨false, false, 0, none, .absent⟩, []⟩

inductive Action where
  | startWorker (c : Channel)
  | stop (caller : Caller)
  | client
  | worker (c : Channel) (input : WorkerInput)
  | serverSends (c : Channel) (bytes : ℕ)
  | serverCloses (c : Channel)

/-! ## Workers -/

/-- A receive of at most `bytes` bytes, and at least one. -/
def Socket.count (sk : Socket) (bytes : ℕ) : ℕ := min sk.available (max 1 bytes)

def Socket.drop (sk : Socket) (n : ℕ) : Socket := { sk with available := sk.available - n }

/-- The next step of the worker of channel `c`; none when it has none, or waits in `recv`. -/
def workerStep (c : Channel) (ch : ChannelState) (input : WorkerInput) : Option ChannelState :=
  match ch.worker with
  | .absent | .finished => none
  | .loopHead => some { ch with worker := if ch.running then .flags else .disconnect }
  | .flags =>
    if ch.running && !ch.connected then
      if input.endpoint then some { ch with worker := .connect }
      else some { ch with worker := if c = .prvHst then .loopHead else .checkRunning }
    else some { ch with worker := .checkRunning }
  | .connect =>
    if input.accepted then
      some { ch with connected := true, socket := some ⟨0, true⟩, worker := .checkRunning }
    else
      some { ch with
        connected := false, socket := none, worker := if c = .prvHst then .loopHead else .checkRunning }
  | .checkRunning => some { ch with worker := if ch.running then .readConnected else .disconnect }
  | .readConnected =>
    -- the histogram worker does not read while the accumulation is off
    if ch.connected && ch.socket.isSome && (c ≠ .prvHst || input.accumulationEnable) then
      some { ch with worker := .receive }
    else some { ch with worker := .loopHead }
  | .receive => some { ch with locks := ch.locks + 1, worker := .recv }
  | .recv =>
    match ch.socket with
    | none => some { ch with locks := ch.locks - 1, worker := .closed }
    | some sk =>
      if 0 < sk.available then
        some { ch with
          socket := some (sk.drop (sk.count input.bytes)), locks := ch.locks - 1, worker := .process }
      else if sk.isOpen then none
      else some { ch with locks := ch.locks - 1, worker := .closed }
  | .closed => some { ch with connected := false, running := false, worker := .disconnect }
  | .process => some { ch with locks := ch.locks + 1, worker := .parse }
  | .parse =>
    match input.line with
    | .next => some { ch with locks := ch.locks - 1, worker := .loopHead }
    | .fails => some { ch with locks := ch.locks - 1, worker := .disconnect }
    | .pixels need => some { ch with locks := ch.locks + 1, worker := .recvExact need }
  | .recvExact need =>
    if need = 0 then some { ch with locks := ch.locks - 1, worker := .parsed }
    else
      match ch.socket with
      | none => some { ch with locks := ch.locks - 2, worker := .disconnect }
      | some sk =>
        if 0 < sk.available then
          let n := min need (sk.count input.bytes)
          some { ch with socket := some (sk.drop n), worker := .recvExact (need - n) }
        else if sk.isOpen then none
        else some { ch with locks := ch.locks - 2, worker := .disconnect }
  | .parsed => some { ch with locks := ch.locks - 1, worker := .loopHead }
  | .disconnect => some { ch with connected := false, socket := none, worker := .finished }

/-! ## The client and the server -/

namespace State

def setChannel (s : State) (c : Channel) (ch : ChannelState) : State :=
  { s with channels := Function.update s.channels c ch }

end State

/-- What a statement does to its channel; none when the client has to wait. -/
def StopOp.apply (op : StopOp) (ch : ChannelState) : Option ChannelState :=
  match op with
  | .flags _ => if ch.locks = 0 then some { ch with running := false } else none
  | .join _ =>
    match ch.worker with
    | .absent | .finished => some { ch with worker := .absent }
    | _ => none
  | .disconnect _ => if ch.locks = 0 then some { ch with connected := false, socket := none } else none
  | .request => some ch

def clientStep (s : State) : Option State :=
  match s.client with
  | [] => none
  | op :: rest =>
    match op.channel with
    | none => some { s with client := rest }
    | some c => (op.apply (s.channels c)).map fun ch => { s.setChannel c ch with client := rest }

/-- `acquireStart` creates the worker of a channel, unless it has one. -/
def startWorker (ch : ChannelState) : ChannelState :=
  if ch.running = false ∧ ch.worker = .absent then { ch with running := true, worker := .loopHead } else ch

def step (s : State) : Action → Option State
  | .startWorker c => if s.client = [] then some (s.setChannel c (startWorker (s.channels c))) else none
  | .stop caller => if s.client = [] then some { s with client := caller.ops } else none
  | .client => clientStep s
  | .worker c input => (workerStep c (s.channels c) input).map (s.setChannel c)
  | .serverSends c bytes =>
    match (s.channels c).socket with
    | some ⟨available, true⟩ =>
      some (s.setChannel c { s.channels c with socket := some ⟨available + bytes, true⟩ })
    | _ => none
  | .serverCloses c =>
    match (s.channels c).socket with
    | some ⟨available, true⟩ =>
      some (s.setChannel c { s.channels c with socket := some ⟨available, false⟩ })
    | _ => none

/-! ## Waiting -/

/-- The worker waits in `recv` for an open socket without bytes. -/
def ChannelState.Blocked (ch : ChannelState) : Prop :=
  (ch.worker = .recv ∨ ∃ n, ch.worker = .recvExact (n + 1)) ∧ ch.socket = some ⟨0, true⟩

/-- The client is at a statement about a channel whose worker waits in `recv`. -/
def State.Deadlocked (s : State) : Prop :=
  ∃ op rest c, s.client = op :: rest ∧ op.channel = some c ∧ (s.channels c).Blocked

/-- The worker has an open connection, and can come to a `recv` on it: it will not look at the running flag
before, or will find it set. -/
def ChannelState.mayBlock (ch : ChannelState) : Bool :=
  match ch.socket with
  | some ⟨available, true⟩ =>
    match ch.worker with
    | .loopHead | .flags | .connect | .checkRunning | .parsed => ch.running
    | .readConnected | .receive | .recv | .process | .parse => true
    | .recvExact need => ch.running || available < need
    | .absent | .closed | .disconnect | .finished => false
  | _ => false

/-- The client has still to do with the channel. -/
def State.Stopping (s : State) (c : Channel) : Prop := ∃ op ∈ s.client, op.channel = some c

/-- The workers are not stopped where one of them may come to wait, and none connects while it is stopped. -/
def Unhindered (s : State) : Action → Prop
  | .stop caller => ∀ op ∈ caller.ops, ∀ c ∈ op.channel, (s.channels c).mayBlock = false
  | .worker c input =>
    s.Stopping c → (s.channels c).worker = .connect → input.accepted = true → (s.channels c).running = false
  | _ => True

instance (s : State) (c : Channel) : Decidable (s.Stopping c) :=
  inferInstanceAs (Decidable (∃ op ∈ s.client, op.channel = some c))

instance (s : State) (a : Action) : Decidable (Unhindered s a) := by
  cases a <;> unfold Unhindered <;> infer_instance

/-- A step that is not the server's. -/
def Action.own : Action → Bool
  | .serverSends _ _ | .serverCloses _ => false
  | _ => true

end ADTimePix3.Acquire.Workers
