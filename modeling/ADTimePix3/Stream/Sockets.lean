import ADTimePix3.Lib.Descriptors
import ADTimePix3.Lib.Runs
import Mathlib.Logic.Function.Basic
import Mathlib.Algebra.Order.Group.Unbundled.Int

/-!
# The sockets of the network clients

The class `NetworkClient` (`network_client.cpp`) with the descriptors of the process. Several threads use clients, one
thread a client at a time, and `isTcpPortInUse` opens a socket of its own; other parts of the process open and close
descriptors as they like. A step is one system call and what the thread does up to the next one.
-/

namespace ADTimePix3.Stream.Sockets

/-- Who holds a descriptor: a client object, a call of `isTcpPortInUse`, or another part of the process. -/
inductive Holder where
  | client (i : ℕ)
  | probe (j : ℕ)
  | other
deriving DecidableEq

/-- Where a call of `connect` stands: before which system call. -/
inductive Pc where
  | idle
  | socket
  | resolve
  | connect
  | close
deriving DecidableEq

structure NetworkClient where
  socket_fd_ : ℤ
  connected_ : Bool
  pc : Pc
deriving DecidableEq

/-- What `recv` comes back with: bytes, the end of the connection, nothing yet (`EAGAIN`), or an error. -/
inductive Recv where
  | bytes
  | closed
  | again
  | error
deriving DecidableEq

/-- The objects by name; `none` is an object that is not constructed or destroyed. A call of `isTcpPortInUse` with a
socket open is in `probes`. -/
structure State where
  table : Descriptors Holder
  clients : ℕ → Option NetworkClient
  probes : ℕ → Option ℕ

def State.init : State := ⟨.empty, fun _ => none, fun _ => none⟩

/-! ## The calls -/

/-- `NetworkClient::NetworkClient()`. -/
def NetworkClient.new : NetworkClient := ⟨-1, false, .idle⟩

/-- `if (socket_fd_ >= 0) { ::close(socket_fd_); socket_fd_ = -1; } connected_ = false;`, by which `connect` and
`disconnect` begin. -/
def closeSocket (table : Descriptors Holder) (i : ℕ) (c : NetworkClient) :
    Option (Descriptors Holder × NetworkClient) :=
  if 0 ≤ c.socket_fd_ then
    (table.closeBy (.client i) c.socket_fd_.toNat).map (·, { c with socket_fd_ := -1, connected_ := false })
  else some (table, { c with connected_ := false })

/-- The object's descriptor goes with the move, if there is one. -/
def passSocket (table : Descriptors Holder) (i src : ℕ) (c : NetworkClient) : Option (Descriptors Holder) :=
  if 0 ≤ c.socket_fd_ then table.passBy (.client src) (.client i) c.socket_fd_.toNat else some table

/-- `receive`: what `recv` says of the connection. Without a connection it is not called. -/
def NetworkClient.receive (c : NetworkClient) (r : Recv) : NetworkClient :=
  if c.connected_ = true ∧ 0 ≤ c.socket_fd_ then
    match r with
    | .bytes | .again => c
    | .closed | .error => { c with connected_ := false }
  else c

/-- The system call before which `connect` stands, `ok` if it succeeds. `resolve` stands for `inet_pton` and, where
that fails, `getaddrinfo`. -/
def advance (table : Descriptors Holder) (i : ℕ) (c : NetworkClient) (ok : Bool) :
    Option (Descriptors Holder × NetworkClient) :=
  match c.pc with
  | .idle => none
  | .socket =>
    if ok then some (table.openBy (.client i), { c with socket_fd_ := table.lowest, pc := .resolve })
    else some (table, { c with socket_fd_ := -1, pc := .idle })
  | .resolve => some (table, { c with pc := if ok then .connect else .close })
  | .connect => some (table, if ok then { c with connected_ := true, pc := .idle } else { c with pc := .close })
  | .close =>
    (table.closeBy (.client i) c.socket_fd_.toNat).map (·, { c with socket_fd_ := -1, pc := .idle })

/-! ## The system -/

inductive Event where
  | construct (i : ℕ)
  | moveConstruct (i src : ℕ)
  | moveAssign (i src : ℕ)
  | connect (i : ℕ)
  | advance (i : ℕ) (ok : Bool)
  | disconnect (i : ℕ)
  | receive (i : ℕ) (r : Recv)
  | destroy (i : ℕ)
  | isTcpPortInUse (j : ℕ) (resolved opened : Bool)
  | closeProbe (j : ℕ)
  | othersOpen
  | othersClose (fd : ℕ)

def State.set (s : State) (i : ℕ) (c : Option NetworkClient) : State :=
  { s with clients := Function.update s.clients i c }

def State.setProbe (s : State) (j : ℕ) (fd : Option ℕ) : State :=
  { s with probes := Function.update s.probes j fd }

@[simp]
theorem State.table_set (s : State) (i : ℕ) (c : Option NetworkClient) : (s.set i c).table = s.table := rfl

@[simp]
theorem State.probes_set (s : State) (i : ℕ) (c : Option NetworkClient) : (s.set i c).probes = s.probes := rfl

@[simp]
theorem State.clients_set_self (s : State) (i : ℕ) (c : Option NetworkClient) : (s.set i c).clients i = c :=
  Function.update_self ..

theorem State.clients_set_of_ne (s : State) {i k : ℕ} (h : k ≠ i) (c : Option NetworkClient) :
    (s.set i c).clients k = s.clients k :=
  Function.update_of_ne h ..

/-- The object, when it can be called: it lives, and no other call is going on. -/
def State.idle (s : State) (i : ℕ) : Option NetworkClient :=
  (s.clients i).filter fun c => c.pc = .idle

/-- A step. There is none for a call on an object that is not there, and none that closes a descriptor that the
closing party does not hold. -/
def step (s : State) : Event → Option State
  | .construct i => if s.clients i = none then some (s.set i (some .new)) else none
  | .moveConstruct i src =>
    if s.clients i = none then do
      let c ← s.idle src
      let table ← passSocket s.table i src c
      return ({ s with table := table }.set i (some c)).set src (some .new)
    else none
  | .moveAssign i src => do
    let c ← s.idle i
    let other ← s.idle src
    -- if (this != &other)
    if i = src then return s
    let (table, _) ← closeSocket s.table i c
    let table ← passSocket table i src other
    return ({ s with table := table }.set i (some other)).set src (some .new)
  | .connect i => do
    let c ← s.idle i
    let (table, c) ← closeSocket s.table i c
    return { s with table := table }.set i (some { c with pc := .socket })
  | .advance i ok => do
    let c ← s.clients i
    let (table, c) ← Sockets.advance s.table i c ok
    return { s with table := table }.set i (some c)
  | .disconnect i => do
    let c ← s.idle i
    let (table, c) ← closeSocket s.table i c
    return { s with table := table }.set i (some c)
  | .receive i r => do
    let c ← s.idle i
    return s.set i (some (c.receive r))
  | .destroy i => do
    let c ← s.idle i
    let (table, _) ← closeSocket s.table i c
    return { s with table := table }.set i none
  | .isTcpPortInUse j resolved opened =>
    if s.probes j = none then
      if resolved && opened then
        some ({ s with table := s.table.openBy (.probe j) }.setProbe j (some s.table.lowest))
      else some s
    else none
  | .closeProbe j => do
    let fd ← s.probes j
    let table ← s.table.closeBy (.probe j) fd
    return { s with table := table }.setProbe j none
  | .othersOpen => some { s with table := s.table.openBy .other }
  | .othersClose fd => (s.table.closeBy .other fd).map fun table => { s with table := table }

/-- How the class is used: what is called is there and is not in a call, and what is constructed is not there yet;
and the rest of the process closes its own descriptors only. -/
def Allowed (s : State) : Event → Prop
  | .construct i => s.clients i = none
  | .moveConstruct i src => s.clients i = none ∧ (s.idle src).isSome
  | .moveAssign i src => (s.idle i).isSome ∧ (s.idle src).isSome
  | .connect i | .disconnect i | .receive i _ | .destroy i => (s.idle i).isSome
  | .advance i _ => ∃ c, s.clients i = some c ∧ c.pc ≠ .idle
  | .isTcpPortInUse j _ _ => s.probes j = none
  | .closeProbe j => (s.probes j).isSome
  | .othersOpen => True
  | .othersClose fd => s.table.holder fd = some .other

end ADTimePix3.Stream.Sockets
