import ADTimePix3.Acquire.Measurement
import ADTimePix3.Lib.Runs

/-!
# The connection poll

`ADTimePix::connectionPollThread` and `checkConnection` (`serval_http.cpp`), the initial check of the constructor
(`ADTimePix.cpp`), and the operations of a client that write `ServalConnected` or `DetConnected` while the thread
runs. The two parameters are shared and no lock is held: what is interleaved is a single write or read of one of
them.

The server URL is not empty; without one there is no initial check, and no poll finds anything.
-/

namespace ADTimePix3.Serval.Connection

open Acquire (Response)
open ADTimePix3.Stream (Json)

/-! ## The two parameters -/

/-- `ADTimePixServalConnected` and `ADTimePixDetConnected`. -/
structure Connected where
  servalConnected : ℤ
  detConnected : ℤ
deriving DecidableEq

inductive ConnectionWrite where
  | servalConnected (value : ℤ)
  | detConnected (value : ℤ)
deriving DecidableEq

namespace Connected

def write (p : Connected) : ConnectionWrite → Connected
  | .servalConnected value => { p with servalConnected := value }
  | .detConnected value => { p with detConnected := value }

/-- `servalNow && detNow` -/
def both (p : Connected) : Bool := p.servalConnected ≠ 0 && p.detConnected ≠ 0

end Connected

/-! ## The operations -/

/-- `dashboard_j[key]`, which makes a member where there is none and throws on what is not an object. -/
def memberOrNull (key : String) : Json → Option Json
  | .null => some .null
  | .object members => some ((members.lookup key).getD .null)
  | _ => none

/-- `dashboard_j["Detector"]`, none when the text does not parse or the index throws. -/
def detectorOf (r : Response) : Option Json := r.json.bind (memberOrNull "Detector")

/-- `ADTimePix::checkConnection`: its writes, and whether it finds Serval answering and a detector attached. -/
def checkConnection (r : Response) : List ConnectionWrite × Bool :=
  if r.status_code = 200 then
    match detectorOf r with
    | none => ([.servalConnected 1, .detConnected 0], false)
    | some .null => ([.servalConnected 1, .detConnected 0], false)
    | some (.object _) => ([.servalConnected 1, .detConnected 1], true)
    -- `dashboard_j["Detector"]["DetectorType"]` throws; the handler clears the parameter, but not `detOk`
    | some _ => ([.servalConnected 1, .detConnected 1, .detConnected 0], true)
  else ([.servalConnected 0, .detConnected 0], false)

/-- `ADTimePix::initialServerCheckConnection`: GET of the server's root, then of the dashboard. -/
def initialServerCheckConnection (root dashboard : Response) : List ConnectionWrite × Bool :=
  if root.status_code = 200 then
    if dashboard.status_code = 200 then
      match detectorOf dashboard with
      | some (.object _) => ([.servalConnected 1, .detConnected 1], true)
      | _ => ([.servalConnected 1, .detConnected 0], false)
    else ([.servalConnected 1, .detConnected 0], false)
  else ([.servalConnected 0, .detConnected 0], false)

/-- `dashboard_j["Server"]["DiskSpace"]` throws, or the access to its first element does. -/
def diskSpaceThrows (dashboard_j : Json) : Bool :=
  match (memberOrNull "Server" dashboard_j).bind (memberOrNull "DiskSpace") with
  | none => true
  | some .null => false
  | some (.array _) => false
  | some (.object members) => !members.isEmpty
  | some _ => true

/-- `ADTimePix::getDashboard`: the writes of `checkConnection`; what follows them in the source may throw. -/
def getDashboard (r : Response) : List ConnectionWrite :=
  let diskSpace : List ConnectionWrite :=
    if r.status_code = 200 && r.json.any diskSpaceThrows then [.detConnected 0] else []
  match detectorOf r with
  | some .null => (checkConnection r).1 ++ diskSpace
  | some (.object _) => (checkConnection r).1 ++ diskSpace
  | _ => (checkConnection r).1

def getDetector (r : Response) : List ConnectionWrite :=
  if r.status_code ≠ 200 then [.detConnected 0] else [.detConnected 1]

def getServer (r : Response) : List ConnectionWrite :=
  if r.status_code ≠ 200 then
    if r.text.toList.tails.any fun rest => "Destination is not set".toList.isPrefixOf rest then []
    else [.detConnected 0]
  else [.detConnected 1]

/-- `detector` is the answer to the `getDetector` that is called while the detector family is unknown. -/
def initAcquisition (r : Response) (detector : Option Response) : List ConnectionWrite :=
  if r.status_code ≠ 200 then [.detConnected 0]
  else .detConnected 1 :: (match detector with | some d => getDetector d | none => [])

/-- The operations of a client that write one of the parameters. -/
inductive ClientOp where
  | getDetector (r : Response)
  | getServer (r : Response)
  | initAcquisition (r : Response) (detector : Option Response)
  | refreshConnection (r : Response)
  | health (dashboard detector : Response)

def ClientOp.writes : ClientOp → List ConnectionWrite
  | .getDetector r => Connection.getDetector r
  | .getServer r => Connection.getServer r
  | .initAcquisition r detector => Connection.initAcquisition r detector
  | .refreshConnection r => (checkConnection r).1
  | .health dashboard detector => getDashboard dashboard ++ Connection.getDetector detector

/-- The answers that `refreshOnReconnect` gets. -/
structure RefreshReplies where
  config : Response
  configDetector : Option Response
  server : Response
  detector : Response

def refreshOnReconnect (r : RefreshReplies) : List ConnectionWrite :=
  initAcquisition r.config r.configDetector ++ getServer r.server ++ getDetector r.detector

/-! ## The threads -/

/-- What the poll thread does next. `up` is what `checkConnection` returned; the thread drops it. -/
inductive PollPc where
  | wait
  | check (writes : List ConnectionWrite) (up : Bool)
  | readServal (up : Bool)
  | readDet (servalNow : ℤ) (up : Bool)
  | decide (servalNow detNow : ℤ) (up : Bool)
  | refresh (writes : List ConnectionWrite) (servalNow detNow : ℤ)
  | store (servalNow detNow : ℤ)
deriving DecidableEq

/-- A poll that has decided: whether it was up, and whether `refreshOnReconnect` was run. -/
structure Poll where
  up : Bool
  refreshed : Bool
deriving DecidableEq

/-- `client` are the writes that the operation of the client still has to make. `polls`, the last one first, is
the record of the run. -/
structure PollState where
  params : Connected
  lastServalConnected : ℤ
  lastDetConnected : ℤ
  connectionPollSkipOnce : Bool
  pc : PollPc
  client : List ConnectionWrite
  polls : List Poll
deriving DecidableEq

inductive PollEvent where
  /-- The thread wakes up; the answer is to its GET of the dashboard. -/
  | wake (r : Response)
  | poll (r : RefreshReplies)
  | request (op : ClientOp)
  | client

/-- The state that the constructor leaves. -/
def PollState.start (root dashboard : Response) : PollState :=
  let params := (initialServerCheckConnection root dashboard).1.foldl Connected.write ⟨0, 0⟩
  { params := params
    lastServalConnected := params.servalConnected
    lastDetConnected := params.detConnected
    connectionPollSkipOnce := true
    pc := .wait
    client := []
    polls := [] }

/-- The next step of the poll thread, which is not waiting. -/
def pollStep (r : RefreshReplies) (s : PollState) : Option PollState :=
  match s.pc with
  | .wait => none
  | .check (w :: writes) up => some { s with params := s.params.write w, pc := .check writes up }
  | .check [] up => some { s with pc := .readServal up }
  | .readServal up => some { s with pc := .readDet s.params.servalConnected up }
  | .readDet servalNow up => some { s with pc := .decide servalNow s.params.detConnected up }
  | .decide servalNow detNow up =>
    if (servalNow ≠ 0 && detNow ≠ 0) && (s.lastServalConnected = 0 || s.lastDetConnected = 0) then
      some { s with pc := .refresh (refreshOnReconnect r) servalNow detNow, polls := ⟨up, true⟩ :: s.polls }
    else some { s with pc := .store servalNow detNow, polls := ⟨up, false⟩ :: s.polls }
  | .refresh (w :: writes) servalNow detNow =>
    some { s with params := s.params.write w, pc := .refresh writes servalNow detNow }
  | .refresh [] servalNow detNow => some { s with pc := .store servalNow detNow }
  | .store servalNow detNow =>
    some { s with lastServalConnected := servalNow, lastDetConnected := detNow, pc := .wait }

def step (s : PollState) : PollEvent → Option PollState
  | .wake r =>
    if s.pc ≠ .wait then none
    else if s.connectionPollSkipOnce then some { s with connectionPollSkipOnce := false }
    else some { s with pc := .check (checkConnection r).1 (checkConnection r).2 }
  | .poll r => pollStep r s
  | .request op => if s.client ≠ [] then none else some { s with client := op.writes }
  | .client =>
    match s.client with
    | [] => none
    | w :: writes => some { s with params := s.params.write w, client := writes }

/-! ## What the refreshes are to be -/

/-- The outcome before the polls of a record: that of the poll before them, or of the initial check. -/
def lastUp (initialUp : Bool) : List Poll → Bool
  | [] => initialUp
  | p :: _ => p.up

/-- The refresh is run at the polls that are up after one that was not, and at no other. -/
def OnReconnects (initialUp : Bool) : List Poll → Prop
  | [] => True
  | p :: earlier => p.refreshed = (p.up && !lastUp initialUp earlier) ∧ OnReconnects initialUp earlier

/-! ## When they are -/

/-- Whether the poll under way is going to find both parameters set, if nobody else writes them. -/
def PollState.willRead (s : PollState) : Option Bool :=
  match s.pc with
  | .check writes _ => some (writes.foldl Connected.write s.params).both
  | .readServal _ => some s.params.both
  | .readDet servalNow _ => some (Connected.both ⟨servalNow, s.params.detConnected⟩)
  | .decide servalNow detNow _ => some (Connected.both ⟨servalNow, detNow⟩)
  | _ => none

/-- A detector that is attached is described by an object. -/
def Regular (r : Response) : Bool :=
  r.status_code ≠ 200 ||
    match detectorOf r with
    | none => true
    | some .null => true
    | some (.object _) => true
    | some _ => false

/-- The dashboard is regular, and a write of the client does not change what the poll under way is going to
read. -/
def Undisturbed (s : PollState) : PollEvent → Prop
  | .wake r => s.connectionPollSkipOnce ∨ Regular r
  | .client => ∀ w ∈ s.client.head?, { s with params := s.params.write w }.willRead = s.willRead
  | _ => True

instance (s : PollState) : (e : PollEvent) → Decidable (Undisturbed s e)
  | .wake r => inferInstanceAs (Decidable (s.connectionPollSkipOnce ∨ Regular r))
  | .client => inferInstanceAs (Decidable (∀ w ∈ s.client.head?, _))
  | .poll _ => isTrue trivial
  | .request _ => isTrue trivial

end ADTimePix3.Serval.Connection
