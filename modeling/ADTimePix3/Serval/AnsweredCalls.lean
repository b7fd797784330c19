import ADTimePix3.Serval.DetectorReplies

/-!
# When a call is answered

A call is one of the nine functions, with the replies that it gets. `Answered` is what the replies and the state of
the driver have to be for it to return an `asynStatus`.
-/

namespace ADTimePix3.Serval.Replies

open Faults
open Acquire (Response)
open Connection (memberOrNull)
open Guard (DetectorFamily detectDetectorFamily jsonStringOr triggerModeIndexFromServal)
open ADTimePix3.Stream (Json)

variable (dump : Json → String)

inductive Call where
  | initAcquisition (values : String → Json) (r : ConfigReplies)
  | acquireStop (stop measurement : Response)
  | getHealth (r : Response)
  | getDetector (r : Response)
  | getServer (r : Response)
  | getMeasurementConfig (r : Response)
  | sendMeasurementConfig (p : MeasurementParams) (get put : Response)
  | checkConnection (r : Response)
  | writeDac (dac : String) (value : ℤ) (get put : Response)

def Call.run : Call → Action AsynStatus
  | .initAcquisition values r => Replies.initAcquisition dump values r
  | .acquireStop stop measurement => Replies.acquireStop stop measurement
  | .getHealth r => Replies.getHealth r
  | .getDetector r => Replies.getDetector dump r
  | .getServer r => Replies.getServer r
  | .getMeasurementConfig r => Replies.getMeasurementConfig r
  | .sendMeasurementConfig p get put => Replies.sendMeasurementConfig p get put
  | .checkConnection r => Replies.checkConnection r
  | .writeDac dac value get put => Replies.writeDac dac value get put

/-! ## Shapes -/

/-- An object, or null, which becomes one. -/
def indexable : Json → Bool
  | .null => true
  | .object _ => true
  | _ => false

/-- An array, or null. -/
def arrayLike : Json → Bool
  | .null => true
  | .array _ => true
  | _ => false

/-- A member can be set behind a chain of member names. -/
def settable : List String → Json → Bool
  | [], j => indexable j
  | key :: keys, j => indexable j && settable keys ((j.member key).getD .null)

def intOf (key : String) (j : Json) : Option ℤ := (memberOrNull key j).bind Json.getInt

/-! ## The description of a detector -/

/-- The integers that are read before the division. -/
def countsRead (Info : Json) : Bool :=
  ["PixCount", "RowLen", "NumberOfChips", "NumberOfRows"].all fun key => (intOf key Info).isSome

/-- The quotient of `PixCount` and `NumberOfRows` is an `int`. -/
def rowsDivide (Info : Json) : Bool :=
  (intOf "NumberOfRows" Info).getD 0 ≠ 0 &&
    !(intOf "PixCount" Info == some (-2 ^ 31) && intOf "NumberOfRows" Info == some (-1))

def boardsIn (Info : Json) : List Json := elements ((Info.member "Boards").getD .null)

/-- An object with the members that are read through a const reference. -/
def BoardDefined (B : Json) : Prop := isObject B → B.contains "ChipboardId" ∧ B.contains "IpAddress"

/-- So are the first two boards, the second one if the first is read. -/
def BoardsDefined : List Json → Prop
  | [] => True
  | [B0] => BoardDefined B0
  | B0 :: B1 :: _ => BoardDefined B0 ∧ (isObject B0 → BoardDefined B1)

def boardsRead (Boards : List Json) : Bool := (Boards.take 2).all isObject

def configMembers : List String :=
  ["Fan1PWM", "Fan2PWM", "BiasVoltage", "BiasEnabled", "TriggerIn", "TriggerOut", "ExposureTime", "TriggerPeriod",
    "nTriggers", "LogLevel"]

def familyIn (Info : Json) : DetectorFamily :=
  detectDetectorFamily ((intOf "MpxType" Info).getD 0)
    (((Info.member "ChipType").map fun v => strip_quotes (dump v)).getD "")
    ((((boardsIn Info).head?.bind fun B0 => B0.member "ChipboardId").map fun v => strip_quotes (dump v)).getD "")

/-- `Health` is an object without temperatures. -/
def healthBare (detector_j : Json) : Bool :=
  match detector_j.member "Health" with
  | some (.object members) => (members.lookup "ChipTemperatures").isNone
  | _ => false

/-- The temperature of a chip with these DACs is asked for. -/
def temperatureRead (family : DetectorFamily) (dacs : Json) : Bool :=
  family == .MPX3 || !dacs.contains "Ibias_Preamp_ON" || dacMembers.all fun key => (intOf key dacs).isSome

/-- The temperature of the first chip, if it is come to, is in a `Health` that has temperatures. -/
def TemperatureDefined (family : DetectorFamily) (detector_j : Json) : Prop :=
  healthBare detector_j → ∀ c ∈ (elements ((detector_j.member "Chips").getD .null)).head?,
    ∀ dacs, memberOrNull "DACs" c = some dacs → temperatureRead family dacs = false

/-- No access of `getDetector` is undefined. Each part is asked for as far as nothing before it throws. -/
def DetectorDefined (detector_j : Json) : Prop :=
  ∀ Info, memberOrNull "Info" detector_j = some Info → countsRead Info → rowsDivide Info ∧
    ((intOf "MpxType" Info).isSome → BoardsDefined (boardsIn Info) ∧
      (boardsRead (boardsIn Info) → (∀ key ∈ infoMembers, Info.contains key) ∧
        ∀ members, memberOrNull "Config" detector_j = some (.object members) →
          (∀ key ∈ configMembers, (Json.object members).contains key) ∧
            TemperatureDefined (familyIn dump Info) detector_j))

/-- The parameters after the configuration has been read back. -/
def Driver.readBack (cfg : Json) (s : Driver) : Driver :=
  { s with
    triggerMode :=
      ((cfg.member "TriggerMode").map fun v => triggerModeIndexFromServal (jsonStringOr v)).getD s.triggerMode
    bothCounters := ((cfg.member "BothCounters").map flag).getD s.bothCounters
    biasEnable := flag ((cfg.member "BiasEnabled").getD .null)
    chainMode := ((cfg.member "ChainMode").map fun v => chainModeIndex (jsonStringOr v)).getD s.chainMode
    polarity := ((cfg.member "Polarity").map fun v => polarityIndex (jsonStringOr v)).getD s.polarity
    externalReferenceClock := flag ((cfg.member "ExternalReferenceClock").getD .null)
    periphClk80 := flag ((cfg.member "PeriphClk80").getD .null) }

/-- What a description of the detector makes of the state: the family, if that can be told, and the configuration, if
nothing before it throws. -/
def Driver.detected (detector_j : Json) (s : Driver) : Driver :=
  match memberOrNull "Info" detector_j with
  | none => s
  | some Info =>
    if countsRead Info && (intOf "MpxType" Info).isSome then
      let s := { s with detectorFamily_ := familyIn dump Info }
      match memberOrNull "Config" detector_j with
      | some (.object members) => if boardsRead (boardsIn Info) then s.readBack (.object members) else s
      | _ => s
    else s

def DetectorAnswered (r : Response) : Prop :=
  r.status_code = 200 → ∀ detector_j ∈ r.json, DetectorDefined dump detector_j

/-! ## The configuration -/

/-- The configuration can be written in this state of the driver. -/
def ConfigWritable (s : Driver) (config_j : Json) : Prop :=
  indexable config_j ∧ 0 ≤ s.biasEnable ∧ 0 ≤ s.chainMode ∧ 0 ≤ s.polarity ∧
    (s.detectorFamily_ ≠ .MPX3 → arrayLike ((config_j.member "Tdc").getD .null) ∧ 0 ≤ s.tdc0 ∧ 0 ≤ s.tdc1 ∧
      0 ≤ s.externalReferenceClock ∧ 0 ≤ s.periphClk80)

/-- The state in which `initAcquisition` looks at the configuration. -/
def Driver.familyDetected (detector : Response) (s : Driver) : Driver :=
  if s.detectorFamily_ = .Unknown ∧ detector.status_code = 200 then
    (detector.json.map fun detector_j => s.detected dump detector_j).getD s
  else s

/-- `initAcquisition` returns when the configuration is a JSON text, unless the trigger mode is refused one that can
be written. -/
def ConfigAnswered (r : ConfigReplies) (s : Driver) : Prop :=
  r.config.status_code = 200 →
    (s.detectorFamily_ = .Unknown → DetectorAnswered dump r.detector) ∧
      ∃ config_j, r.config.json = some config_j ∧
        ((s.familyDetected dump r.detector).mpx3BothCountersTriggerConflict ∨
          ConfigWritable (s.familyDetected dump r.detector) config_j)

/-- What the replies to a call and the state have to be. -/
def Call.Answered (s : Driver) : Call → Prop
  | .initAcquisition _ r => ConfigAnswered dump r s
  | .acquireStop stop measurement => stop.status_code = 200 → measurement.status_code = 200 → measurement.json.isSome
  | .getHealth r => r.status_code = 200 → ∀ health_j ∈ r.json, indexable health_j
  | .getDetector r => DetectorAnswered dump r
  | .getServer _ => True
  | .getMeasurementConfig _ => True
  | .sendMeasurementConfig p get _ =>
    p.tofTdcReference.isSome ∧ (get.status_code = 200 → ∀ config_j ∈ get.json,
      settable ["Stem", "Scan"] config_j ∧ settable ["Stem", "VirtualDetector"] config_j ∧
        settable ["TimeOfFlight"] config_j)
  | .checkConnection _ => True
  | .writeDac _ _ get _ => get.status_code = 200 → ∀ dacsRead_j ∈ get.json, indexable dacsRead_j

end ADTimePix3.Serval.Replies
