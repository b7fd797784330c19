import ADTimePix3.Acquire.Measurement
import ADTimePix3.Lib.Runs

/-!
# The threads of an acquisition

The client thread, which writes `ADAcquire` and the parameters whose writes stop an acquisition
(`ADTimePix::writeInt32` and `writeFloat64`, `ADTimePix.cpp`), and the threads that run `timePixCallback`, as one
machine (`acquire.cpp`). A thread makes one step for each use of what the threads share: `ADAcquire`, the flag
`acquiring`, the id of the callback thread, and a request to the server. Any thread may make the next step.

An exception that leaves `acquireStop` is caught nowhere: it ends the program, and there is no next state.

Left out: the stream workers, except that they are stopped (`workers`), logging, and parameters that are only
written. Threads can be created, and `ADAcquire` is written at its own address.
-/

namespace ADTimePix3.Acquire

/-! ## States -/

inductive ADStatus where
  | idle
  | acquire
  | error
deriving DecidableEq

/-- A write that can start or stop an acquisition. `timing` is a write of `ADAcquireTime`, `ADAcquirePeriod`,
`ADTimePixTriggerDelay` or `ADTimePixGlobalTimestampInterval`. -/
inductive Write where
  | adAcquire (value : ℤ)
  | adImageMode (value : ℤ)
  | timing
deriving DecidableEq

/-- What a thread in `acquireStop` does next. -/
inductive StopPc where
  | clear
  | join
  | joining (thread : ℕ)
  | clearId
  | workers
  | request
  | publish
  | readBack
deriving DecidableEq

/-- What the client does next in `acquireStart`. -/
inductive StartPc where
  | workers
  | trigger
  | stopPrior
  | checkPrior
  | stopRunning
  | ports
  | request
  | rotate
  | retry
  | create
  | assign (thread : ℕ)
  | setFlag
  | streams
deriving DecidableEq

/-- What the client does next. `set` has read `ADAcquire` into `acquiring`. -/
inductive ClientPc where
  | idle
  | set (write : Write) (acquiring : ℤ)
  | start (pc : StartPc)
  | stop (pc : StopPc)
deriving DecidableEq

/-- What a callback thread does next. -/
inductive CallbackPc where
  | firstGet
  | loopHead
  | poll
  | polled
  | afterPoll
  | stop (pc : StopPc)
  | finished
deriving DecidableEq

/-- A thread in `timePixCallback`, and the measurement it was created for. -/
structure CallbackThread where
  pc : CallbackPc
  measurement : ℕ
  frameCounter : ℤ
  new_frame_num : ℤ
  isIdle : Bool
deriving DecidableEq

/-- `measurement` counts the measurements that have been started; `measuring` is the server's. -/
structure State where
  adAcquire : ℤ
  adStatus : ADStatus
  statusMessage : String
  acquiring : Bool
  callbackThreadId : Option ℕ
  threads : List CallbackThread
  client : ClientPc
  measurement : ℕ
  measuring : Bool

def State.init : State :=
  { adAcquire := 0, adStatus := .idle, statusMessage := "", acquiring := false, callbackThreadId := none,
    threads := [], client := .idle, measurement := 0, measuring := false }

/-- What a step finds outside: the answer to its request, whether `ensurePreviewTcpPortsFree` succeeds, and the
parameters of the trigger. -/
structure Input where
  response : Response
  portsFree : Bool
  trigger : TriggerParams

inductive Action where
  | write (write : Write)
  | client (input : Input)
  | callback (thread : ℕ) (input : Input)
  | measurementEnds

namespace State

def setThread (s : State) (thread : ℕ) (t : CallbackThread) : State :=
  { s with threads := s.threads.set thread t }

def finished (s : State) (thread : ℕ) : Bool :=
  match s.threads[thread]? with
  | some t => t.pc = .finished
  | none => true

/-- GET `/measurement/stop`. -/
def stopRequest (r : Response) (s : State) : State :=
  if r.status_code = 200 then { s with measuring := false } else s

end State

/-! ## `acquireStop` -/

/-- The state after the next step of thread `self` (none for the client), and what it does then; none when it
returns. -/
def acquireStop (self : Option ℕ) (pc : StopPc) (input : Input) (s : State) : Option (State × Option StopPc) :=
  match pc with
  | .clear => some ({ s with acquiring := false }, some .join)
  | .join =>
    match s.callbackThreadId with
    | some thread => some (s, some (if some thread = self then .clearId else .joining thread))
    | none => some (s, some .clearId)
  | .joining thread => if s.finished thread then some (s, some .clearId) else none
  | .clearId => some ({ s with callbackThreadId := none }, some .workers)
  | .workers => some (s, some .request)
  | .request =>
    if input.response.status_code ≠ 200 then
      some ({ s with statusMessage := "Failed to stop acquisition", adStatus := .error }, none)
    else some (s.stopRequest input.response, some .publish)
  | .publish =>
    some ({ s with adStatus := .idle, statusMessage := "Acquisition stopped", adAcquire := 0 }, some .readBack)
  | .readBack =>
    if input.response.status_code ≠ 200 then some (s, none)
    else input.response.json.map fun _ => (s, none)

/-! ## `acquireStart` -/

def kMpx3BothCountersTriggerMsg : String :=
  "MPX3: BothCounters requires non-Continuous TriggerMode (use AutoTrgSt_TmrSp=4)"

/-- The end of a start whose request was answered with another code than 200. -/
def startFailed (addressInUse : Bool) (s : State) : State :=
  { s with
    statusMessage :=
      if addressInUse then
        "Preview TCP port in use (Serval did not release a prior listener). " ++
          "Restart Serval or change preview ports, then WriteData=1."
      else "Failed to start acquisition"
    adStatus := .idle
    client := .idle }

def started (s : State) : State :=
  { s with measurement := s.measurement + 1, measuring := true, client := .start .create }

def acquireStart (pc : StartPc) (input : Input) (s : State) : State :=
  match pc with
  | .workers =>
    { s with adStatus := .acquire, statusMessage := "Starting acquisition...", client := .start .trigger }
  | .trigger =>
    if mpx3BothCountersTriggerConflict input.trigger then
      { s with statusMessage := kMpx3BothCountersTriggerMsg, adStatus := .error, client := .idle }
    else { s with client := .start .stopPrior }
  | .stopPrior => { s.stopRequest input.response with client := .start .checkPrior }
  | .checkPrior =>
    { s with client := .start (if reportsRunning input.response then .stopRunning else .ports) }
  | .stopRunning => { s.stopRequest input.response with client := .start .ports }
  | .ports =>
    if input.portsFree then { s with client := .start .request }
    else { s with statusMessage := "Failed to reassign occupied preview TCP ports", adStatus := .idle, client := .idle }
  | .request =>
    if input.response.status_code = 200 then started s
    else if input.response.addressInUse then { s with client := .start .rotate }
    else startFailed false s
  | .rotate => if input.portsFree then { s with client := .start .retry } else startFailed true s
  | .retry =>
    if input.response.status_code = 200 then started s
    else startFailed input.response.addressInUse s
  | .create =>
    { s with
      threads := s.threads ++ [⟨.firstGet, s.measurement, 0, 0, false⟩]
      client := .start (.assign s.threads.length) }
  | .assign thread => { s with callbackThreadId := some thread, client := .start .setFlag }
  | .setFlag => { s with acquiring := true, client := .start .streams }
  | .streams => { s with statusMessage := "Acquisition running", client := .idle }

/-! ## The client -/

/-- What the write does once its parameter is set, by the value of `ADAcquire` it has read. -/
def Write.next (write : Write) (acquiring : ℤ) : ClientPc :=
  match write with
  | .adAcquire value =>
    if value ≠ 0 ∧ acquiring = 0 then .start .workers
    else if value = 0 ∧ acquiring ≠ 0 then .stop .clear
    else .idle
  | .adImageMode _ => if acquiring = 1 then .stop .clear else .idle
  | .timing => if acquiring ≠ 0 then .stop .clear else .idle

def Write.setParam (write : Write) (s : State) : State :=
  match write with
  | .adAcquire value => { s with adAcquire := value }
  | .adImageMode _ | .timing => s

def clientStep (input : Input) (s : State) : Option State :=
  match s.client with
  | .idle => none
  | .set write acquiring => some { write.setParam s with client := write.next acquiring }
  | .start pc => some (acquireStart pc input s)
  | .stop pc => (acquireStop none pc input s).map fun (s', next) => { s' with client := next.elim .idle .stop }

/-! ## `timePixCallback` -/

/-- The first GET has failed, or its text does not parse. -/
def callbackAborts (thread : ℕ) (t : CallbackThread) (message : String) (s : State) : State :=
  { s.setThread thread { t with pc := .finished } with
    statusMessage := message
    adStatus := .idle
    acquiring := false }

def callbackStep (thread : ℕ) (input : Input) (s : State) : Option State :=
  match s.threads[thread]? with
  | none => none
  | some t =>
    match t.pc with
    | .firstGet =>
      if input.response.status_code ≠ 200 then
        some (callbackAborts thread t "Measurement HTTP error; acquisition stopped" s)
      else
        match input.response.json with
        | none => some (callbackAborts thread t "Invalid measurement JSON; acquisition stopped" s)
        | some _ => some (s.setThread thread { t with pc := .loopHead })
    | .loopHead => some (s.setThread thread { t with pc := if s.acquiring then .poll else .finished })
    | .poll =>
      if input.response.status_code ≠ 200 then some (s.setThread thread { t with pc := .afterPoll })
      else
        match input.response.json with
        | none => some { s.setThread thread { t with pc := .afterPoll } with acquiring := false }
        | some measurement_j =>
          some (s.setThread thread
            { t with
              pc := .polled
              new_frame_num := (frameCount measurement_j).getD t.new_frame_num
              isIdle := t.isIdle || reportsIdle measurement_j })
    | .polled =>
      -- the inner loop goes on while there is no new frame
      some (s.setThread thread
        { t with pc := if t.isIdle || !s.acquiring || t.frameCounter ≠ t.new_frame_num then .afterPoll else .poll })
    | .afterPoll =>
      some (s.setThread thread
        { t with frameCounter := t.new_frame_num, pc := if t.isIdle then .stop .clear else .loopHead })
    | .stop pc =>
      (acquireStop (some thread) pc input s).map fun (s', next) =>
        s'.setThread thread { t with pc := next.elim .loopHead .stop }
    | .finished => none

/-! ## Steps -/

def step (s : State) : Action → Option State
  | .write write =>
    match s.client with
    | .idle => some { s with client := .set write s.adAcquire }
    | _ => none
  | .client input => clientStep input s
  | .callback thread input => callbackStep thread input s
  | .measurementEnds => if s.measuring then some { s with measuring := false } else none

end ADTimePix3.Acquire
