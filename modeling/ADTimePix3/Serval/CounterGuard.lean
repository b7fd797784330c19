import ADTimePix3.Acquire.Measurement
import ADTimePix3.Acquire.TcpPath
import ADTimePix3.Lib.Interference
import Mathlib.Data.Finset.Insert

/-!
# The counter guard of Medipix3

With `BothCounters`, a Medipix3 takes neither the trigger mode CONTINUOUS nor a pixel depth of 24.
`ADTimePix::writeInt32` (`ADTimePix.cpp`) and `initAcquisition` (`serval_http.cpp`) check the parameters and rewrite
them, `getDetector` overwrites them with those of the server, and `refreshOnReconnect` does both on the connection
poll thread, which takes no lock. A step is a read or a write of one parameter.

Of a configuration, the members the guard is about are kept; of `writeInt32`, the functions that touch them. An
index or a conversion that throws elsewhere in `initAcquisition` would stop it before its PUT.
-/

namespace ADTimePix3.Serval.Guard

open Acquire (Response)
open ADTimePix3.Stream (Json)

/-! ## Families and choices -/

inductive DetectorFamily where
  | Unknown
  | TPX3
  | MPX3
deriving DecidableEq

def upperAscii (s : String) : List Char := s.toList.map Char.toUpper

def chipboardPrefixIs (chipboardId : String) (digit : Char) : Bool := chipboardId.toList.head? == some digit

def detectDetectorFamily (mpxType : ℤ) (chipType chipboardId : String) : DetectorFamily :=
  if upperAscii chipType = "MPX3".toList then .MPX3
  else if upperAscii chipType = "TPX3".toList then .TPX3
  else if mpxType = 5 then .MPX3
  else if mpxType = 6 then .TPX3
  else if chipboardPrefixIs chipboardId '5' then .MPX3
  else if chipboardPrefixIs chipboardId '4' then .TPX3
  else .Unknown

/-- `kTriggerModes`: label of the menu and name that Serval uses. -/
def kTriggerModes : List (String × String) :=
  [("PEXSTART_NEXSTOP", "PEXSTART_NEXSTOP"), ("NEXSTART_PEXSTOP", "NEXSTART_PEXSTOP"),
    ("PEXSTART_TIMERSTOP", "PEXSTART_TIMERSTOP"), ("NEXSTART_TIMERSTOP", "NEXSTART_TIMERSTOP"),
    ("AUTOTRIGSTART_TIMERSTOP", "AUTOTRIGSTART_TIMERSTOP"), ("CONTINUOUS", "CONTINUOUS"),
    ("SOFTWARESTART_TIMERSTOP", "SOFTWARESTART_TIMERSTOP"), ("SwReSt_SwReSp", "SOFTWARESTART_SOFTWARESTOP"),
    ("FOLLOWING", "FOLLOWING")]

/-- `index < 0 || index >= kTriggerModeCount` -/
def triggerModeOutOfRange (index : ℤ) : Bool := index < 0 || kTriggerModes.length ≤ index

def triggerModeServalName (index : ℤ) : String :=
  if triggerModeOutOfRange index then "PEXSTART_NEXSTOP"
  else ((kTriggerModes[index.toNat]?).map Prod.snd).getD ""

def triggerModeIndexFromServal (name : String) : ℤ :=
  ((kTriggerModes.findIdx? fun mode => name == mode.2 || name == mode.1).map Int.ofNat).getD 0

/-! ## Conversions -/

def pixelDepthIsValid (depth : ℤ) : Bool := depth = 1 || depth = 6 || depth = 12 || depth = 24

def pixelDepthNormalize (depth : ℤ) : ℤ := if pixelDepthIsValid depth then depth else 12

def pixelDepthFromJson : Json → ℤ
  | .number_integer z => pixelDepthNormalize (((Json.number_integer z).getInt).getD 12)
  | .number_float q => pixelDepthNormalize (Json.truncate q)
  | .string s => pixelDepthNormalize ((Acquire.stoi s.toList).getD 12)
  | _ => 12

def jsonBoolOr : Json → Bool
  | .boolean b => b
  | .number_integer z => (Json.number_integer z).getInt ≠ some 0
  | .number_float q => Json.truncate q ≠ 0
  | _ => false

def jsonStringOr (j : Json) : String := j.getString.getD ""

/-! ## The shared state -/

/-- `ADTriggerMode`, `ADTimePixBothCounters`, `ADTimePixPixelDepth`, and the two members of the driver. -/
structure GuardParams where
  triggerMode : ℤ
  bothCounters : ℤ
  pixelDepth : ℤ
  detectorFamily_ : DetectorFamily
  detectorFamilyApplied_ : Bool
deriving DecidableEq

inductive GuardWrite where
  | triggerMode (value : ℤ)
  | bothCounters (value : ℤ)
  | pixelDepth (value : ℤ)
  | detectorFamily_ (family : DetectorFamily)
  | detectorFamilyApplied_

def GuardParams.write (p : GuardParams) : GuardWrite → GuardParams
  | .triggerMode value => { p with triggerMode := value }
  | .bothCounters value => { p with bothCounters := value }
  | .pixelDepth value => { p with pixelDepth := value }
  | .detectorFamily_ family => { p with detectorFamily_ := family }
  | .detectorFamilyApplied_ => { p with detectorFamilyApplied_ := true }

/-- The family is `MPX3` and `BothCounters` is set. -/
abbrev GuardParams.BothOn (p : GuardParams) : Prop := p.detectorFamily_ = .MPX3 ∧ p.bothCounters ≠ 0

/-- The members of a body of `/detector/config` that the guard is about. -/
structure ConfigBody where
  triggerMode : String
  bothCounters : Option Json
  pixelDepth : Option Json

/-- `BothCounters` is `true`. -/
def ConfigBody.bothOn (b : ConfigBody) : Bool :=
  match b.bothCounters with
  | some (.boolean on) => on
  | _ => false

def ConfigBody.depth24 (b : ConfigBody) : Bool :=
  match b.pixelDepth with
  | some (.number_integer z) => z = 24
  | _ => false

/-- The combinations that a Medipix3 does not take. -/
def ConfigBody.Conflicting (b : ConfigBody) : Bool :=
  b.bothOn && (b.triggerMode == "CONTINUOUS" || b.depth24)

/-- A PUT, with the family at that time. -/
structure ConfigPut where
  family : DetectorFamily
  body : ConfigBody

/-- `puts` is the record of the run. -/
structure GuardShared where
  params : GuardParams
  puts : List ConfigPut

/-! ## The threads -/

/-- What `getDetector` reads of an answer. A member of the configuration is none where there is none, or where an
access before it throws. -/
structure ReadBack where
  mpxType : ℤ
  chipType : String
  chipboardId : String
  triggerMode : Option Json
  bothCounters : Option Json
  pixelDepth : Option Json

def ReadBack.family (rb : ReadBack) : DetectorFamily :=
  detectDetectorFamily rb.mpxType rb.chipType rb.chipboardId

/-- The answers that one call of `initAcquisition` gets: to its GET, to the `getDetector` of an unknown family, to
its PUT, and to the GET after a PUT that was rejected. -/
structure ConfigReplies where
  config : Response
  detector : Option ReadBack
  put : Response
  resync : Response

/-- `config_j`, which becomes an object where it is null; none when the text does not parse or a member cannot be
set. -/
def ConfigReplies.config_j (r : ConfigReplies) : Option (List (String × Json)) :=
  match r.config.json with
  | some .null => some []
  | some (.object members) => some members
  | _ => none

/-- The body of a detector that is not `MPX3`: what the server has is passed on. -/
def ConfigReplies.passedOn (r : ConfigReplies) (triggerModeIdx : ℤ) : ConfigBody :=
  let members := r.config_j.getD []
  { triggerMode := triggerModeServalName triggerModeIdx
    bothCounters := members.lookup "BothCounters"
    pixelDepth := members.lookup "PixelDepth" }

def mpx3Body (triggerModeIdx : ℤ) (bothCounters : Bool) (pixelDepth : ℤ) : ConfigBody :=
  { triggerMode := triggerModeServalName triggerModeIdx
    bothCounters := some (.boolean bothCounters)
    pixelDepth := some (.number_integer pixelDepth) }

/-- Who asks `mpx3BothCountersTriggerConflict` or `mpx3BothCountersPixelDepthConflict`. -/
inductive ConflictCheck where
  | writePixelDepth (value : ℤ)
  | writeBothCountersTrigger (triggerMode : ℤ)
  | writeBothCountersDepth (pixelDepth : ℤ)
  | writeTriggerMode (value : ℤ)
  | initTrigger (triggerModeIdx : ℤ) (r : ConfigReplies)
  | initDepth (triggerModeIdx : ℤ) (bothCounters : Bool) (pixelDepth : ℤ) (r : ConfigReplies)

/-- `triggerMode == 5` or `pixelDepth == 24` -/
def ConflictCheck.suspect : ConflictCheck → Bool
  | .writePixelDepth value => value = 24
  | .writeBothCountersTrigger triggerMode => triggerMode = 5
  | .writeBothCountersDepth pixelDepth => pixelDepth = 24
  | .writeTriggerMode value => value = 5
  | .initTrigger triggerModeIdx _ => triggerModeIdx = 5
  | .initDepth _ _ pixelDepth _ => pixelDepth = 24

/-- What a thread does next. -/
inductive GuardPc where
  /-- The call under way is over. -/
  | next
  /-- `asynError` is returned by `writeInt32`, or an exception leaves the thread: the calls that were to follow are
  not made. -/
  | leave
  | set (w : GuardWrite) (pc : GuardPc)
  /-- The read of `detectorFamily_` in a check, and that of `BothCounters`. -/
  | checkFamily (c : ConflictCheck)
  | checkCounters (c : ConflictCheck)
  -- `writeInt32`, `BothCounters`
  | readTriggerMode
  | readPixelDepth
  -- `initAcquisition`
  | bodyFamily (triggerModeIdx : ℤ) (r : ConfigReplies)
  | bodyCounters (triggerModeIdx : ℤ) (r : ConfigReplies)
  | bodyDepth (triggerModeIdx : ℤ) (bothCounters : Bool) (r : ConfigReplies)
  | put (body : ConfigBody) (r : ConfigReplies)
  | resync (r : ConfigReplies)
  -- `updateDetectorFamily`, after the write of the family
  | readApplied (changed : Bool) (rb : ReadBack)

/-- A call still to be made. `configure` is what `initAcquisition` does once the family has been asked for. -/
inductive GuardCall where
  | initAcquisition (r : ConfigReplies)
  | configure (r : ConfigReplies)
  | getDetector (rb : Option ReadBack)

structure GuardThread where
  pc : GuardPc
  calls : List GuardCall

def GuardThread.idle : GuardThread := ⟨.next, []⟩

/-- The functions of `writeInt32` that end in `initAcquisition` or `getDetector`. -/
inductive ConfigFunction where
  | bothCounters
  | triggerMode
  | pixelDepth
  /-- Any other parameter of the configuration: `ADNumImages`, `BiasVolt`, `GainMode`, and so on. -/
  | configuration
  /-- `Health`. -/
  | health (rb : Option ReadBack)

/-- `ADTimePix::writeInt32` -/
def writeInt32 (function : ConfigFunction) (value : ℤ) (r : ConfigReplies) : GuardThread :=
  match function with
  | .bothCounters =>
    ⟨.set (.bothCounters value) (if value ≠ 0 then .readTriggerMode else .next), [.initAcquisition r]⟩
  | .triggerMode =>
    if triggerModeOutOfRange value then
      ⟨.set (.triggerMode value) (.set (.triggerMode 0) (.checkFamily (.writeTriggerMode 0))),
        [.initAcquisition r]⟩
    else ⟨.set (.triggerMode value) (.checkFamily (.writeTriggerMode value)), [.initAcquisition r]⟩
  | .pixelDepth =>
    if pixelDepthIsValid value then
      ⟨.set (.pixelDepth value) (.checkFamily (.writePixelDepth value)), [.initAcquisition r]⟩
    else
      ⟨.set (.pixelDepth value) (.set (.pixelDepth 12) (.checkFamily (.writePixelDepth 12))),
        [.initAcquisition r]⟩
  | .configuration => ⟨.next, [.initAcquisition r]⟩
  | .health rb => ⟨.next, [.getDetector rb]⟩

def refreshOnReconnect (r : ConfigReplies) (rb : Option ReadBack) : GuardThread :=
  ⟨.next, [.initAcquisition r, .getDetector rb]⟩

/-- Where the thread goes on after a check without a conflict. -/
def ConflictCheck.clear : ConflictCheck → GuardPc
  | .writePixelDepth _ => .next
  | .writeBothCountersTrigger _ => .readPixelDepth
  | .writeBothCountersDepth _ => .next
  | .writeTriggerMode _ => .next
  | .initTrigger triggerModeIdx r => .bodyFamily triggerModeIdx r
  | .initDepth triggerModeIdx bothCounters pixelDepth r => .put (mpx3Body triggerModeIdx bothCounters pixelDepth) r

/-- And after one with a conflict. -/
def ConflictCheck.conflict : ConflictCheck → GuardPc
  | .writePixelDepth _ => .set (.pixelDepth 12) .leave
  | .writeBothCountersTrigger _ => .set (.triggerMode 4) .readPixelDepth
  | .writeBothCountersDepth _ => .set (.pixelDepth 12) .next
  | .writeTriggerMode _ => .set (.triggerMode 4) .next
  -- no body is PUT, and `asynError` is returned
  | .initTrigger _ _ => .next
  | .initDepth triggerModeIdx bothCounters _ r =>
    .set (.pixelDepth 12) (.put (mpx3Body triggerModeIdx bothCounters 12) r)

/-- The writes of `getDetector` after those of the family. -/
def ReadBack.configWrites (rb : ReadBack) : GuardPc :=
  let depth : GuardPc :=
    match rb.pixelDepth with
    | some j => .set (.pixelDepth (pixelDepthFromJson j)) .next
    | none => .next
  let counters : GuardPc :=
    match rb.bothCounters with
    | some j => .set (.bothCounters (if jsonBoolOr j then 1 else 0)) depth
    | none => depth
  match rb.triggerMode with
  | some j => .set (.triggerMode (triggerModeIndexFromServal (jsonStringOr j))) counters
  | none => counters

/-- `updateDetectorFamily` with `applyFamilyDefaults`, from the read of `detectorFamilyApplied_` on. -/
def familyDefaults (changed applied : Bool) (rb : ReadBack) : GuardPc :=
  if changed || !applied then
    if rb.family = .MPX3 then .set (.pixelDepth 12) (.set .detectorFamilyApplied_ rb.configWrites)
    else .set .detectorFamilyApplied_ rb.configWrites
  else rb.configWrites

/-- The first step of a call. -/
def startCall (p : GuardParams) (call : GuardCall) (calls : List GuardCall) : GuardThread :=
  match call with
  | .initAcquisition r =>
    if r.config.status_code ≠ 200 then ⟨.next, calls⟩
    else if p.detectorFamily_ = .Unknown then ⟨.next, .getDetector r.detector :: .configure r :: calls⟩
    else ⟨.next, .configure r :: calls⟩
  | .configure r =>
    if r.config_j.isNone then ⟨.leave, calls⟩
    else if triggerModeOutOfRange p.triggerMode then
      ⟨.set (.triggerMode 0) (.checkFamily (.initTrigger 0 r)), calls⟩
    else ⟨.checkFamily (.initTrigger p.triggerMode r), calls⟩
  | .getDetector none => ⟨.next, calls⟩
  | .getDetector (some rb) =>
    ⟨.set (.detectorFamily_ rb.family) (.readApplied (rb.family ≠ p.detectorFamily_) rb), calls⟩

/-- The next step at a program point that neither starts a call nor leaves, and writes no record. -/
def pcStep (p : GuardParams) : GuardPc → GuardParams × GuardPc
  | .next => (p, .next)
  | .leave => (p, .next)
  | .set w pc => (p.write w, pc)
  | .checkFamily c => (p, if p.detectorFamily_ ≠ .MPX3 then c.clear else .checkCounters c)
  | .checkCounters c => (p, if p.bothCounters ≠ 0 && c.suspect then c.conflict else c.clear)
  | .readTriggerMode => (p, .checkFamily (.writeBothCountersTrigger p.triggerMode))
  | .readPixelDepth => (p, .checkFamily (.writeBothCountersDepth p.pixelDepth))
  | .bodyFamily triggerModeIdx r =>
    (p, if p.detectorFamily_ ≠ .MPX3 then .put (r.passedOn triggerModeIdx) r else .bodyCounters triggerModeIdx r)
  | .bodyCounters triggerModeIdx r => (p, .bodyDepth triggerModeIdx (p.bothCounters ≠ 0) r)
  | .bodyDepth triggerModeIdx bothCounters r =>
    let depth := pixelDepthNormalize p.pixelDepth
    (p, .set (.pixelDepth depth) (.checkFamily (.initDepth triggerModeIdx bothCounters depth r)))
  | .put _ r => (p, if r.put.status_code ≠ 200 then .resync r else .next)
  | .resync r =>
    (p, if p.detectorFamily_ = .MPX3 ∧ r.resync.status_code = 200 then
        match r.resync.json.bind fun cfg => cfg.member "PixelDepth" with
        | some j => .set (.pixelDepth (pixelDepthFromJson j)) .next
        | none => .next
      else .next)
  | .readApplied changed rb => (p, familyDefaults changed p.detectorFamilyApplied_ rb)

/-- The next step of a thread; none when it has nothing to do. -/
def threadStep (s : GuardShared) (t : GuardThread) : Option (GuardShared × GuardThread) :=
  match t.pc, t.calls with
  | .next, [] => none
  | .next, call :: calls => some (s, startCall s.params call calls)
  | .leave, _ => some (s, .idle)
  | .put body r, calls =>
    some (⟨s.params, ⟨s.params.detectorFamily_, body⟩ :: s.puts⟩, ⟨(pcStep s.params (.put body r)).2, calls⟩)
  | pc, calls => some (⟨(pcStep s.params pc).1, s.puts⟩, ⟨(pcStep s.params pc).2, calls⟩)

inductive GuardThreadId where
  | client
  | poll
deriving DecidableEq

instance : Fintype GuardThreadId where
  elems := {.client, .poll}
  complete t := by cases t <;> decide

inductive GuardEvent where
  | writeInt32 (function : ConfigFunction) (value : ℤ) (r : ConfigReplies)
  | refreshOnReconnect (r : ConfigReplies) (rb : Option ReadBack)
  | step

def guardStep (i : GuardThreadId) (e : GuardEvent) (s : GuardShared) (t : GuardThread) :
    Option (GuardShared × GuardThread) :=
  match e, i, t with
  | .step, _, t => threadStep s t
  | .writeInt32 function value r, .client, ⟨.next, []⟩ => some (s, writeInt32 function value r)
  | .refreshOnReconnect r rb, .poll, ⟨.next, []⟩ => some (s, refreshOnReconnect r rb)
  | _, _, _ => none

abbrev GuardState := Interference.State GuardThreadId GuardShared GuardThread

abbrev GuardState.start (params : GuardParams) : GuardState := ⟨⟨params, []⟩, fun _ => .idle⟩

/-! ## The guard, and when it holds -/

/-- No body that was PUT while the family was `MPX3` has a combination that it does not take. -/
def GuardKept (puts : List ConfigPut) : Prop := ∀ put ∈ puts, put.family = .MPX3 → put.body.Conflicting = false

/-- What `initAcquisition` takes for granted, between the check of a value and its use. -/
def GuardPc.relies : GuardPc → GuardParams → Prop
  | .set w pc, p => pc.relies (p.write w)
  | .bodyFamily triggerModeIdx _, p => triggerModeIdx = 5 → ¬p.BothOn
  | .bodyCounters triggerModeIdx _, p =>
    (triggerModeIdx = 5 → p.bothCounters = 0) ∧
      (p.bothCounters ≠ 0 → pixelDepthNormalize p.pixelDepth = 24 → p.detectorFamily_ = .MPX3)
  | .bodyDepth triggerModeIdx bothCounters _, p =>
    (triggerModeIdx = 5 → bothCounters = false) ∧
      (bothCounters = true → pixelDepthNormalize p.pixelDepth = 24 → p.BothOn)
  | .checkFamily (.initDepth triggerModeIdx bothCounters pixelDepth _), p =>
    (triggerModeIdx = 5 → bothCounters = false) ∧ (bothCounters = true → pixelDepth = 24 → p.BothOn)
  | .checkCounters (.initDepth triggerModeIdx bothCounters pixelDepth _), p =>
    (triggerModeIdx = 5 → bothCounters = false) ∧ (bothCounters = true → pixelDepth = 24 → p.bothCounters ≠ 0)
  | .put body _, p => body.Conflicting = true → p.detectorFamily_ ≠ .MPX3
  | _, _ => True

instance instDecidableRelies : (pc : GuardPc) → (p : GuardParams) → Decidable (pc.relies p)
  | .set w pc, p => instDecidableRelies pc (p.write w)
  | .bodyFamily triggerModeIdx _, p => inferInstanceAs (Decidable (triggerModeIdx = 5 → ¬p.BothOn))
  | .bodyCounters triggerModeIdx _, p =>
    inferInstanceAs (Decidable ((triggerModeIdx = 5 → p.bothCounters = 0) ∧
      (p.bothCounters ≠ 0 → pixelDepthNormalize p.pixelDepth = 24 → p.detectorFamily_ = .MPX3)))
  | .bodyDepth triggerModeIdx bothCounters _, p =>
    inferInstanceAs (Decidable ((triggerModeIdx = 5 → bothCounters = false) ∧
      (bothCounters = true → pixelDepthNormalize p.pixelDepth = 24 → p.BothOn)))
  | .checkFamily (.initDepth triggerModeIdx bothCounters pixelDepth _), p =>
    inferInstanceAs (Decidable ((triggerModeIdx = 5 → bothCounters = false) ∧
      (bothCounters = true → pixelDepth = 24 → p.BothOn)))
  | .checkCounters (.initDepth triggerModeIdx bothCounters pixelDepth _), p =>
    inferInstanceAs (Decidable ((triggerModeIdx = 5 → bothCounters = false) ∧
      (bothCounters = true → pixelDepth = 24 → p.bothCounters ≠ 0)))
  | .put body _, p => inferInstanceAs (Decidable (body.Conflicting = true → p.detectorFamily_ ≠ .MPX3))
  | .next, _ | .leave, _ | .readTriggerMode, _ | .readPixelDepth, _ | .resync _, _ | .readApplied _ _, _
  | .checkFamily (.writePixelDepth _), _ | .checkFamily (.writeBothCountersTrigger _), _
  | .checkFamily (.writeBothCountersDepth _), _ | .checkFamily (.writeTriggerMode _), _
  | .checkFamily (.initTrigger _ _), _
  | .checkCounters (.writePixelDepth _), _ | .checkCounters (.writeBothCountersTrigger _), _
  | .checkCounters (.writeBothCountersDepth _), _ | .checkCounters (.writeTriggerMode _), _
  | .checkCounters (.initTrigger _ _), _ => isTrue trivial

/-- No step takes away what the other thread relies on. -/
abbrev GuardUndisturbed (s : GuardState) (e : GuardThreadId × GuardEvent) : Prop :=
  Interference.Undisturbed guardStep (fun t p => t.pc.relies p.params) s e

end ADTimePix3.Serval.Guard
