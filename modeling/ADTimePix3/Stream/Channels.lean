import ADTimePix3.Stream.Sockets
import ADTimePix3.Acquire.Workers

/-!
# The clients of the channels

`prvImgConnect`, `prvImg1Connect`, `imgConnect` and `prvHstConnect` with their `…Disconnect` (`serval_stream.cpp`,
`histogram_io.cpp`) over the class of `Stream/Sockets.lean`: each channel keeps its client by a `unique_ptr`, while
the other channels go on. That the functions of one channel are called by one thread at a time is assumed: the source
does not see to it where a start and a stop overlap.
-/

namespace ADTimePix3.Stream.Channels

open Acquire.Workers (Channel)

/-- What the functions of a channel do next. `reset` is the `reset()` of `…Disconnect`, after which `…Connect` goes on
or not; `drop` the one after a connection that failed. -/
inductive Pc where
  | idle
  | reset (connect : Bool)
  | create
  | connecting
  | drop
deriving DecidableEq

/-- The client is known by the name of its object. -/
structure ChannelState where
  connected : Bool
  client : Option ℕ
  pc : Pc
deriving DecidableEq

/-- `fresh` is the name of the next object. -/
structure State where
  sockets : Sockets.State
  channels : Channel → ChannelState
  fresh : ℕ

def State.init : State := ⟨.init, fun _ => ⟨false, none, .idle⟩, 0⟩

inductive Event where
  | connect (c : Channel) (endpoint : Bool)
  | disconnect (c : Channel)
  | receive (c : Channel) (r : Sockets.Recv)
  | lost (c : Channel)
  | next (c : Channel) (ok : Bool)
  | isTcpPortInUse (j : ℕ) (resolved opened : Bool)
  | closeProbe (j : ℕ)
  | othersOpen
  | othersClose (fd : ℕ)

def State.set (s : State) (c : Channel) (channel : ChannelState) : State :=
  { s with channels := Function.update s.channels c channel }

/-- The channel's `…Disconnect`, up to `reset()`; without a client there is nothing to reset. -/
def disconnect (s : State) (c : Channel) (connect : Bool) : Option State :=
  match (s.channels c).client with
  | some i => do
    let sockets ← Sockets.step s.sockets (.disconnect i)
    return { s with sockets := sockets }.set c ⟨false, some i, .reset connect⟩
  | none => some (s.set c ⟨false, none, if connect then .create else .idle⟩)

/-- `client.reset()`. -/
def reset (s : State) (c : Channel) (pc : Pc) : Option State := do
  let i ← (s.channels c).client
  let sockets ← Sockets.step s.sockets (.destroy i)
  return { s with sockets := sockets }.set c ⟨(s.channels c).connected, none, pc⟩

/-- `client.reset(new NetworkClient())` and the beginning of `client->connect(host, port)`. -/
def create (s : State) (c : Channel) : Option State := do
  let sockets ← Sockets.step s.sockets (.construct s.fresh)
  let sockets ← Sockets.step sockets (.connect s.fresh)
  return { s with sockets := sockets, fresh := s.fresh + 1 }.set c
    ⟨(s.channels c).connected, some s.fresh, .connecting⟩

/-- One more system call of `client->connect(host, port)`; what it returns is `connected_`. -/
def goOn (s : State) (c : Channel) (ok : Bool) : Option State := do
  let i ← (s.channels c).client
  let sockets ← Sockets.step s.sockets (.advance i ok)
  let client ← sockets.clients i
  let s := { s with sockets := sockets }
  if client.pc = .idle then
    if client.connected_ then return s.set c ⟨true, some i, .idle⟩
    else return s.set c ⟨(s.channels c).connected, some i, .drop⟩
  else return s

def step (s : State) : Event → Option State
  | .connect c endpoint =>
    if (s.channels c).pc = .idle then if endpoint then disconnect s c true else some s else none
  | .disconnect c => if (s.channels c).pc = .idle then disconnect s c false else none
  | .receive c r =>
    if (s.channels c).pc = .idle then
      match (s.channels c).client with
      | some i => (Sockets.step s.sockets (.receive i r)).map fun sockets => { s with sockets := sockets }
      | none => some s
    else none
  -- a receive that returned 0 or failed, which the worker notices
  | .lost c =>
    if (s.channels c).pc = .idle then some (s.set c ⟨false, (s.channels c).client, .idle⟩) else none
  | .next c ok =>
    match (s.channels c).pc with
    | .idle => none
    | .reset connect => reset s c (if connect then .create else .idle)
    | .create => create s c
    | .connecting => goOn s c ok
    | .drop => reset s c .idle
  | .isTcpPortInUse j resolved opened =>
    (Sockets.step s.sockets (.isTcpPortInUse j resolved opened)).map fun sockets => { s with sockets := sockets }
  | .closeProbe j => (Sockets.step s.sockets (.closeProbe j)).map fun sockets => { s with sockets := sockets }
  | .othersOpen => (Sockets.step s.sockets .othersOpen).map fun sockets => { s with sockets := sockets }
  | .othersClose fd =>
    (Sockets.step s.sockets (.othersClose fd)).map fun sockets => { s with sockets := sockets }

/-- The `…Disconnect` of a channel, all of it. -/
def disconnectCalls (s : State) (c : Channel) : List Event :=
  .disconnect c :: if (s.channels c).client.isSome then [.next c true] else []

/-- `shutdownPortDriver`, after it has joined the workers. -/
def shutdownPortDriver (s : State) : List Event :=
  [Channel.prvImg, .prvImg1, .img, .prvHst].flatMap (disconnectCalls s)

/-- The functions of a channel are not called while one of them is still running. -/
def Allowed (s : State) : Event → Prop
  | .connect c _ | .disconnect c | .receive c _ | .lost c => (s.channels c).pc = .idle
  | .next c _ => (s.channels c).pc ≠ .idle
  | .isTcpPortInUse j _ _ => s.sockets.probes j = none
  | .closeProbe j => (s.sockets.probes j).isSome
  | .othersOpen => True
  | .othersClose fd => s.sockets.table.holder fd = some .other

end ADTimePix3.Stream.Channels
