import ADTimePix3.Lib.Runs
import ADTimePix3.Serval.AnsweredCalls

/-!
# The configuration of the detector

What `initAcquisition` makes of the parameters, and what `getDetector` makes of the answer (`serval_http.cpp`). The
document that is sent is built by the functions of `Serval/DetectorReplies.lean`, here with a value for every member.
Serval is a parameter: a `Server` answers a GET and takes a PUT, and what is taken for granted of it is `Server.Keeps`.

Doubles are exact but for one sum: `addRelax` is the time with 0.003 added to it, as a double. `dump` is the text of a
value.
-/

namespace ADTimePix3.Serval.DetectorConfig

open Faults (outcome)
open Guard (DetectorFamily jsonBoolOr jsonStringOr pixelDepthFromJson pixelDepthNormalize triggerModeIndexFromServal
  triggerModeOutOfRange triggerModeServalName)
open Replies (Action Driver chainModeIndex configMembers flag polarityIndex strip_quotes tdcLabels)
open ADTimePix3.Stream (Json)

/-! ## Parameters -/

@[ext]
structure Params where
  detectorFamily_ : DetectorFamily
  triggerMode : ℤ
  acquireTime : ℚ
  acquirePeriod : ℚ
  numImages : ℤ
  biasVolt : ℤ
  biasEnable : ℤ
  chainMode : ℤ
  polarity : ℤ
  triggerIn : ℤ
  triggerOut : ℤ
  triggerDelay : ℚ
  globalTimestampInterval : ℚ
  tdc0 : ℤ
  tdc1 : ℤ
  externalReferenceClock : ℤ
  periphClk80 : ℤ
  bothCounters : ℤ
  chargeSumming : ℤ
  colour : ℤ
  gainMode : ℤ
  pixelDepth : ℤ
  counterSelectIn : ℤ
  counterSelectOut : ℤ
  iDelay0 : ℤ
  iDelay1 : ℤ
  iDelay2 : ℤ
  iDelay3 : ℤ
  logLevel : ℤ
  -- set by the read-back only
  fan1PWM : ℤ
  fan2PWM : ℤ
  nTriggers : ℤ
  exposureTime : ℚ
  triggerPeriod : ℚ
  triggerModeText : String
  tdc : String

def gainModeNames : List String := ["SHGM", "HGM", "LGM", "SLGM"]

def gainModeFromString (s : String) : ℤ := ((gainModeNames.findIdx? (s == ·)).map Int.ofNat).getD 0

def gainModeToString (index : ℤ) : String :=
  if index < 0 ∨ index > 3 then "SHGM" else (gainModeNames[index.toNat]?).getD ""

/-- What the faults of `initAcquisition` depend on. -/
def Params.driver (p : Params) : Driver :=
  { detectorFamily_ := p.detectorFamily_
    triggerMode := p.triggerMode
    bothCounters := p.bothCounters
    biasEnable := p.biasEnable
    chainMode := p.chainMode
    polarity := p.polarity
    tdc0 := p.tdc0
    tdc1 := p.tdc1
    externalReferenceClock := p.externalReferenceClock
    periphClk80 := p.periphClk80 }

/-! ## Sending -/

section Send

variable (addRelax : ℚ → ℚ)

def Params.triggerModeIdx (p : Params) : ℤ := p.driver.triggerModeIdx

/-- The parameters once the trigger mode has been checked. -/
def Params.checked (p : Params) : Params := { p with triggerMode := p.triggerModeIdx }

/-- `TriggerPeriod`: that of the exposure in CONTINUOUS, and otherwise at least 0.003 longer. -/
def Params.sentPeriod (p : Params) : ℚ :=
  if p.triggerModeIdx = 5 then p.acquireTime
  else if p.acquirePeriod ≤ addRelax p.acquireTime then addRelax p.acquireTime
  else p.acquirePeriod

/-- `mpx3BothCountersPixelDepthConflict` -/
def Params.mpx3BothCountersPixelDepthConflict (p : Params) (pixelDepth : ℤ) : Bool :=
  p.detectorFamily_ = .MPX3 && p.bothCounters ≠ 0 && pixelDepth = 24

def Params.sentDepth (p : Params) : ℤ :=
  if p.mpx3BothCountersPixelDepthConflict (pixelDepthNormalize p.pixelDepth) then 12
  else pixelDepthNormalize p.pixelDepth

/-- The members whose values come from numbers. -/
def Params.fields (p : Params) : List (String × Json) :=
  [("ExposureTime", .number_float p.acquireTime),
    ("TriggerPeriod", .number_float (p.sentPeriod addRelax)),
    ("nTriggers", .number_integer p.numImages),
    ("BiasVoltage", .number_integer p.biasVolt),
    ("TriggerIn", .number_integer p.triggerIn),
    ("TriggerOut", .number_integer p.triggerOut),
    ("TriggerDelay", .number_float p.triggerDelay),
    ("GlobalTimestampInterval", .number_float p.globalTimestampInterval),
    ("BothCounters", .boolean (p.bothCounters ≠ 0)),
    ("ChargeSumming", .boolean (p.chargeSumming ≠ 0)),
    ("Colour", .boolean (p.colour ≠ 0)),
    ("GainMode", .string (gainModeToString p.gainMode)),
    ("PixelDepth", .number_integer p.sentDepth),
    ("CounterSelectIn", .number_integer p.counterSelectIn),
    ("CounterSelectOut", .number_integer p.counterSelectOut),
    ("IDelayConfig", .array ([p.iDelay0, p.iDelay1, p.iDelay2, p.iDelay3].map .number_integer)),
    ("LogLevel", .number_integer p.logLevel)]

def Params.values (p : Params) (key : String) : Json := ((p.fields addRelax).lookup key).getD .null

/-- `config_j`, from the answer to the GET to the body of the PUT. -/
def Params.buildConfig (p : Params) (config_j : Json) : Action Json := do
  let config_j ← Replies.commonMembers (p.values addRelax) p.triggerModeIdx p.driver config_j
  let config_j ←
    (if p.detectorFamily_ ≠ .MPX3 then Replies.tpx3Members (p.values addRelax) p.driver config_j
      else Replies.mpx3Members (p.values addRelax) config_j)
  Replies.setMember "LogLevel" (p.values addRelax "LogLevel") config_j

/-- The parameters that `initAcquisition` sets itself before its PUT. -/
def Params.prepared (p : Params) : Params :=
  { p with
    triggerMode := p.triggerModeIdx
    pixelDepth := if p.detectorFamily_ = .MPX3 then p.sentDepth else p.pixelDepth }

/-! What is sent, member by member. -/

/-- The entry of a list of labels; behind its end there is null. -/
def labelAt (labels : List String) (i : ℤ) : Json := (labels.map Json.string).getD i.toNat .null

def switchLabels : List String := ["false", "true"]

def chainModeLabels : List String := ["NONE", "LEADER", "FOLLOWER"]

def polarityLabels : List String := ["Positive", "Negative"]

def Params.common (p : Params) : List (String × Json) :=
  [("TriggerMode", .string (triggerModeServalName p.triggerModeIdx)),
    ("ExposureTime", .number_float p.acquireTime),
    ("TriggerPeriod", .number_float (p.sentPeriod addRelax)),
    ("nTriggers", .number_integer p.numImages),
    ("BiasVoltage", .number_integer p.biasVolt),
    ("BiasEnabled", labelAt switchLabels p.biasEnable),
    ("ChainMode", labelAt chainModeLabels p.chainMode),
    ("Polarity", labelAt polarityLabels p.polarity),
    ("TriggerIn", .number_integer p.triggerIn),
    ("TriggerOut", .number_integer p.triggerOut)]

/-- `config_j["Tdc"]` with its first two entries set. -/
def Params.sentTdc (p : Params) (tdc : Json) : Json :=
  let first := (Json.fillTo (Replies.elements tdc) 1).set 0 (labelAt tdcLabels p.tdc0)
  .array ((Json.fillTo first 2).set 1 (labelAt tdcLabels p.tdc1))

def Params.tpx3 (p : Params) (tdc : Json) : List (String × Json) :=
  [("TriggerDelay", .number_float p.triggerDelay),
    ("GlobalTimestampInterval", .number_float p.globalTimestampInterval),
    ("Tdc", p.sentTdc tdc),
    ("ExternalReferenceClock", labelAt switchLabels p.externalReferenceClock),
    ("PeriphClk80", labelAt switchLabels p.periphClk80)]

def Params.mpx3 (p : Params) : List (String × Json) :=
  [("BothCounters", .boolean (p.bothCounters ≠ 0)),
    ("ChargeSumming", .boolean (p.chargeSumming ≠ 0)),
    ("Colour", .boolean (p.colour ≠ 0)),
    ("GainMode", .string (gainModeToString p.gainMode)),
    ("PixelDepth", .number_integer p.sentDepth),
    ("CounterSelectIn", .number_integer p.counterSelectIn),
    ("CounterSelectOut", .number_integer p.counterSelectOut),
    ("IDelayConfig", .array ([p.iDelay0, p.iDelay1, p.iDelay2, p.iDelay3].map .number_integer))]

/-- All members that are sent, those set last first; `tdc` is the `Tdc` that the configuration had. -/
def Params.sent (p : Params) (tdc : Json) : List (String × Json) :=
  ("LogLevel", .number_integer p.logLevel) ::
    ((if p.detectorFamily_ = .MPX3 then p.mpx3 else p.tpx3 tdc) ++ p.common addRelax)

/-- The members that a Medipix3 does not have. -/
def tpx3Keys : List String :=
  ["TriggerDelay", "GlobalTimestampInterval", "Tdc", "ExternalReferenceClock", "PeriphClk80"]

/-- The configuration that is sent: a member that is driven by a parameter, or else the one there was. -/
def Params.sentMember (p : Params) (members : List (String × Json)) (key : String) : Option Json :=
  if p.detectorFamily_ = .MPX3 ∧ key ∈ tpx3Keys then none
  else ((p.sent addRelax ((members.lookup "Tdc").getD .null)).lookup key).or (members.lookup key)

end Send

/-! ## Reading back -/

section ReadBack

variable (dump : Json → String)

def jsonIntOr (j : Json) : ℤ := j.getInt.getD 0

def jsonDoubleOr (j : Json) : ℚ := j.getDouble.getD 0

/-- `jsonStringOr`, for a value that may be of any kind. -/
def jsonText : Json → String
  | .string s => s
  | .null => ""
  | j => strip_quotes (dump j)

/-- `cfg[key]`, or `cfg.value(key, json())`. -/
def memberOr (cfg : Json) (key : String) : Json := (cfg.member key).getD .null

/-- `if (cfg.contains(key)) …`: the parameter is overwritten where the member is there. -/
def overwritten {α : Type} (cfg : Json) (key : String) (read : Json → α) (old : α) : α :=
  ((cfg.member key).map read).getD old

/-- An entry of `IDelayConfig`. -/
def delayOr (cfg : Json) (i : ℕ) (old : ℤ) : ℤ :=
  (((Replies.elements (memberOr cfg "IDelayConfig"))[i]?).map jsonIntOr).getD old

/-- The part of `getDetector` that reads the configuration, which has the members that are asked for. -/
def Params.readBack (p : Params) (cfg : Json) : Params :=
  { p with
    fan1PWM := jsonIntOr (memberOr cfg "Fan1PWM")
    fan2PWM := jsonIntOr (memberOr cfg "Fan2PWM")
    biasVolt := jsonIntOr (memberOr cfg "BiasVoltage")
    biasEnable := flag (memberOr cfg "BiasEnabled")
    triggerIn := jsonIntOr (memberOr cfg "TriggerIn")
    triggerOut := jsonIntOr (memberOr cfg "TriggerOut")
    polarity := overwritten cfg "Polarity" (fun v => polarityIndex (jsonStringOr v)) p.polarity
    chainMode := overwritten cfg "ChainMode" (fun v => chainModeIndex (jsonStringOr v)) p.chainMode
    triggerModeText := overwritten cfg "TriggerMode" (jsonText dump) p.triggerModeText
    triggerMode := overwritten cfg "TriggerMode" (fun v => triggerModeIndexFromServal (jsonStringOr v)) p.triggerMode
    exposureTime := jsonDoubleOr (memberOr cfg "ExposureTime")
    acquireTime := jsonDoubleOr (memberOr cfg "ExposureTime")
    triggerPeriod := jsonDoubleOr (memberOr cfg "TriggerPeriod")
    acquirePeriod := jsonDoubleOr (memberOr cfg "TriggerPeriod")
    nTriggers := jsonIntOr (memberOr cfg "nTriggers")
    numImages := jsonIntOr (memberOr cfg "nTriggers")
    periphClk80 := flag (memberOr cfg "PeriphClk80")
    triggerDelay := jsonDoubleOr (memberOr cfg "TriggerDelay")
    tdc := jsonText dump (memberOr cfg "Tdc")
    globalTimestampInterval := jsonDoubleOr (memberOr cfg "GlobalTimestampInterval")
    externalReferenceClock := flag (memberOr cfg "ExternalReferenceClock")
    logLevel := jsonIntOr (memberOr cfg "LogLevel")
    bothCounters := overwritten cfg "BothCounters" flag p.bothCounters
    gainMode := overwritten cfg "GainMode" (fun v => gainModeFromString (jsonText dump v)) p.gainMode
    chargeSumming := overwritten cfg "ChargeSumming" flag p.chargeSumming
    colour := overwritten cfg "Colour" flag p.colour
    pixelDepth := overwritten cfg "PixelDepth" pixelDepthFromJson p.pixelDepth
    counterSelectIn := overwritten cfg "CounterSelectIn" jsonIntOr p.counterSelectIn
    counterSelectOut := overwritten cfg "CounterSelectOut" jsonIntOr p.counterSelectOut
    iDelay0 := delayOr cfg 0 p.iDelay0
    iDelay1 := delayOr cfg 1 p.iDelay1
    iDelay2 := delayOr cfg 2 p.iDelay2
    iDelay3 := delayOr cfg 3 p.iDelay3 }

end ReadBack

/-! ## Serval -/

/-- The texts of the switches. -/
def switches : List String := ["BiasEnabled", "ExternalReferenceClock", "PeriphClk80"]

def booleanOf : Json → Json
  | .string "false" => .boolean false
  | .string "true" => .boolean true
  | v => v

/-- A member as it is stored: as it was sent, except that the texts of the switches may be understood as booleans. -/
def kept (understands : Bool) (key : String) (v : Json) : Json :=
  if understands ∧ key ∈ switches then booleanOf v else v

def keptMembers (understands : Bool) (members : List (String × Json)) : List (String × Json) :=
  members.map fun m => (m.1, kept understands m.1 m.2)

/-- Serval as the driver meets it. `stored` is the configuration that it has, `answer` the one in the answer to a GET
of `/detector/config`, `accept` what a PUT makes of Serval that it answers with 200, and `elapse` what time makes of
it. -/
structure Server (σ : Type) where
  stored : σ → List (String × Json)
  answer : σ → List (String × Json)
  accept : Json → σ → σ
  elapse : σ → σ

/-- What is taken for granted of Serval. After a PUT that it accepts, it has stored the members that were sent, and
until the next one it keeps them. The answer to a GET can lag behind: it is the configuration that is stored, or one
that was before. -/
structure Server.Keeps {σ : Type} (server : Server σ) (understands : Bool) : Prop where
  accept_stored : ∀ members serval key, (server.stored (server.accept (.object members) serval)).lookup key =
    (members.lookup key).map (kept understands key)
  accept_answer : ∀ body serval, server.answer (server.accept body serval) ∈
    [server.answer serval, server.stored serval, server.stored (server.accept body serval)]
  elapse_stored : ∀ serval, server.stored (server.elapse serval) = server.stored serval
  elapse_answer : ∀ serval, server.answer (server.elapse serval) ∈ [server.answer serval, server.stored serval]

/-! What of the parameters comes back. -/

/-- The members that come from integers are those of `asynParamInt32`. -/
def Params.Int32 (p : Params) : Prop :=
  ∀ z ∈ [p.numImages, p.biasVolt, p.triggerIn, p.triggerOut, p.counterSelectIn, p.counterSelectOut, p.iDelay0,
    p.iDelay1, p.iDelay2, p.iDelay3, p.logLevel], -2 ^ 31 ≤ z ∧ z < 2 ^ 31

/-- A text is not taken for a boolean by the driver itself. -/
def switchBack (understands : Bool) (i : ℤ) : ℤ := if understands ∧ i = 1 then 1 else 0

/-- The parameters after the configuration has been sent and read back; `members` is the one there was before. -/
def Params.returned (addRelax : ℚ → ℚ) (dump : Json → String) (understands : Bool) (p : Params)
    (members : List (String × Json)) : Params :=
  let q := { p.prepared.readBack dump (.object members) with
    biasVolt := p.biasVolt
    biasEnable := switchBack understands p.biasEnable
    triggerIn := p.triggerIn
    triggerOut := p.triggerOut
    polarity := if p.polarity = 1 then 1 else 0
    chainMode := if p.chainMode ≤ 2 then p.chainMode else 0
    triggerModeText := triggerModeServalName p.triggerModeIdx
    triggerMode := p.triggerModeIdx
    exposureTime := p.acquireTime
    acquireTime := p.acquireTime
    triggerPeriod := p.sentPeriod addRelax
    acquirePeriod := p.sentPeriod addRelax
    nTriggers := p.numImages
    numImages := p.numImages
    logLevel := p.logLevel }
  if p.detectorFamily_ = .MPX3 then
    { q with
      periphClk80 := 0
      triggerDelay := 0
      tdc := ""
      globalTimestampInterval := 0
      externalReferenceClock := 0
      bothCounters := if p.bothCounters = 0 then 0 else 1
      gainMode := if 0 ≤ p.gainMode ∧ p.gainMode ≤ 3 then p.gainMode else 0
      chargeSumming := if p.chargeSumming = 0 then 0 else 1
      colour := if p.colour = 0 then 0 else 1
      pixelDepth := p.sentDepth
      counterSelectIn := p.counterSelectIn
      counterSelectOut := p.counterSelectOut
      iDelay0 := p.iDelay0
      iDelay1 := p.iDelay1
      iDelay2 := p.iDelay2
      iDelay3 := p.iDelay3 }
  else
    { q with
      periphClk80 := switchBack understands p.periphClk80
      triggerDelay := p.triggerDelay
      tdc := jsonText dump (p.sentTdc ((members.lookup "Tdc").getD .null))
      globalTimestampInterval := p.globalTimestampInterval
      externalReferenceClock := switchBack understands p.externalReferenceClock }

/-! ## The system -/

variable {σ : Type}

/-- The parameters, Serval, and the parameters of the PUTs it has accepted, the last one first. -/
structure System (σ : Type) where
  params : Params
  detectorFamilyApplied_ : Bool
  serval : σ
  puts : List Params

/-- Clients set parameters; the answer to a GET, that of a PUT, and that of the GET after a PUT that was rejected are
200 or not; `getDetector` finds a family; time passes. -/
inductive Event where
  | set (q : Params)
  | initAcquisition (get : Bool) (detector : Option DetectorFamily) (put resync : Bool)
  | getDetector (family : DetectorFamily)
  | elapse

section System

variable (addRelax : ℚ → ℚ) (dump : Json → String) (server : Server σ)

/-- The configuration that a GET is answered with. -/
def System.config (s : System σ) : List (String × Json) := server.answer s.serval

/-- Serval answers with what it has stored. -/
def System.CaughtUp (s : System σ) : Prop := server.answer s.serval = server.stored s.serval

/-- `applyFamilyDefaults`, of the parameters of the configuration. -/
def applyFamilyDefaults (p : Params) : Params :=
  if p.detectorFamily_ ≠ .MPX3 then p
  else { p with gainMode := 1, pixelDepth := 12, iDelay0 := 15, iDelay1 := 15, iDelay2 := 15, iDelay3 := 10 }

def updateDetectorFamily (family : DetectorFamily) (s : System σ) : System σ :=
  let params := { s.params with detectorFamily_ := family }
  if family ≠ s.params.detectorFamily_ ∨ s.detectorFamilyApplied_ = false then
    { s with params := applyFamilyDefaults params, detectorFamilyApplied_ := true }
  else { s with params := params }

/-- `getDetector`; none where a member is missing that it reads through a const reference. -/
def getDetector (family : DetectorFamily) (s : System σ) : Option (System σ) :=
  if configMembers.all fun key => ((s.config server).lookup key).isSome then
    let s := updateDetectorFamily family s
    some { s with params := s.params.readBack dump (.object (s.config server)) }
  else none

/-- The setpoints of a Medipix3 after a PUT that was rejected. -/
def resync (s : System σ) : System σ :=
  let cfg := Json.object (s.config server)
  { s with params := { s.params with
      pixelDepth := overwritten cfg "PixelDepth" pixelDepthFromJson s.params.pixelDepth
      gainMode := overwritten cfg "GainMode" (fun v => gainModeFromString (jsonText dump v)) s.params.gainMode } }

/-- `initAcquisition`, once the family has been asked for. An index before a list of labels throws, or is undefined
(`none`). -/
def configure (put resynced : Bool) (s : System σ) : Option (System σ) :=
  let s := { s with params := s.params.checked }
  if s.params.driver.mpx3BothCountersTriggerConflict then some s
  else
    match (outcome (s.params.buildConfig addRelax (.object (s.config server))) s.params.driver).1 with
    | .error .undefined => none
    | .error .exception => some s
    | .ok body =>
      let s := { s with params := s.params.prepared }
      if put then some { s with serval := server.accept body s.serval, puts := s.params :: s.puts }
      else if s.params.detectorFamily_ = .MPX3 ∧ resynced then some (resync dump server s)
      else some s

def initAcquisition (get : Bool) (detector : Option DetectorFamily) (put resynced : Bool) (s : System σ) :
    Option (System σ) :=
  if get then
    match s.params.detectorFamily_, detector with
    | .Unknown, some family => (getDetector dump server family s).bind (configure addRelax dump server put resynced)
    | _, _ => configure addRelax dump server put resynced s
  else some s

/-- Time passes. -/
def System.elapsed (n : ℕ) (s : System σ) : System σ := { s with serval := server.elapse^[n] s.serval }

def step (s : System σ) : Event → Option (System σ)
  -- the family is no parameter of the clients
  | .set q => some { s with params := { q with detectorFamily_ := s.params.detectorFamily_ } }
  | .initAcquisition get detector put resynced =>
    initAcquisition addRelax dump server get detector put resynced s
  | .getDetector family => getDetector dump server family s
  | .elapse => some (s.elapsed server 1)

/-- The family is known, the configuration can be written, and read back afterwards. -/
structure Ready (s : System σ) : Prop where
  family : s.params.detectorFamily_ ≠ .Unknown
  applied : s.detectorFamilyApplied_ = true
  int32 : s.params.Int32
  writable : Replies.ConfigWritable s.params.driver (.object (s.config server))
  conflict : s.params.driver.mpx3BothCountersTriggerConflict = false
  fan1 : ((s.config server).lookup "Fan1PWM").isSome
  fan2 : ((s.config server).lookup "Fan2PWM").isSome

end System

section Properties

variable (addRelax : ℚ → ℚ) (understands : Bool) (server : Server σ)

/-- A switch that comes back as it was sent. -/
def SwitchKept (i : ℤ) : Prop := i = 0 ∨ (understands = true ∧ i = 1)

/-- Every choice is one of its menu, and the switches come back. -/
def Resendable (p : Params) : Prop :=
  SwitchKept understands p.biasEnable ∧ p.chainMode ≤ 2 ∧ p.polarity ≤ 1 ∧
    (p.detectorFamily_ ≠ .MPX3 →
      SwitchKept understands p.externalReferenceClock ∧ SwitchKept understands p.periphClk80)

instance (p : Params) : Decidable (Resendable understands p) :=
  inferInstanceAs (Decidable ((_ ∨ _) ∧ _ ∧ _ ∧ (_ → (_ ∨ _) ∧ (_ ∨ _))))

/-- The members that a parameter drives, or that are taken away. -/
def drivenKeys : List String :=
  ["TriggerMode", "ExposureTime", "TriggerPeriod", "nTriggers", "BiasVoltage", "BiasEnabled", "ChainMode", "Polarity",
    "TriggerIn", "TriggerOut", "BothCounters", "ChargeSumming", "Colour", "GainMode", "PixelDepth", "CounterSelectIn",
    "CounterSelectOut", "IDelayConfig", "LogLevel"] ++ tpx3Keys

/-- Serval's document follows the driver: it is the first one until a PUT is accepted, and then holds what the last one
sent; what nothing drives stays as it was, in the answers too. -/
structure Follows (initial : List (String × Json)) (s : System σ) : Prop where
  untouched : s.puts = [] → server.stored s.serval = initial
  driven : ∀ p ∈ s.puts.head?, ∃ tdc, ∀ field ∈ p.sent addRelax tdc,
    (server.stored s.serval).lookup field.1 = some (kept understands field.1 field.2)
  stripped : ∀ p ∈ s.puts.head?, p.detectorFamily_ = .MPX3 →
    ∀ key ∈ tpx3Keys, (server.stored s.serval).lookup key = none
  undriven : ∀ key ∉ drivenKeys, (server.stored s.serval).lookup key = initial.lookup key
  answered : ∀ key ∉ drivenKeys, (s.config server).lookup key = initial.lookup key

end Properties

end ADTimePix3.Serval.DetectorConfig
