import ADTimePix3.Serval.Replies

/-!
# Faults from the description and the configuration of the detector

`getDetector` with `fetchDacs`, and `initAcquisition` (`serval_http.cpp`). `dump` is the text of a value, and
`values` are what the parameters that are not kept give to the members of a configuration.
-/

namespace ADTimePix3.Serval.Replies

open Faults
open Acquire (Response)
open Connection (memberOrNull)
open Guard (DetectorFamily detectDetectorFamily jsonBoolOr jsonStringOr triggerModeOutOfRange
  triggerModeServalName triggerModeIndexFromServal)
open ADTimePix3.Stream (Json)
open ADTimePix3.Stream.Json (PathStep)

variable (dump : Json → String)

/-! ## The health of the detector -/

/-- One element of `VDD` or `AVDD`. -/
def chipVoltage (i : ℕ) (key : String) (H : Json) : Action Unit :=
  whenContains constIndex key H fun v =>
    if i < (elements v).length then element i v >>= whenNumber getDouble else pure ()

def chipVoltages (H : Json) : Action Unit :=
  (List.range 3).forM fun i => ["VDD", "AVDD"].forM fun key => chipVoltage i key H

/-- The arrays of the boards that are put one behind the other. -/
def readArrays (keys : List String) (healthRoot : Json) : Action Unit :=
  (elements healthRoot).forM fun hb => if isObject hb then copyMembers keys hb else pure ()

def chipTempsMerged (healthRoot : Json) : List Json :=
  (elements healthRoot).flatMap fun hb => elements ((hb.member "ChipTemperatures").getD .null)

def healthOfBoards (healthRoot : Json) : Action Unit :=
  if elements healthRoot = [] then pure ()
  else do
    let H0 ← element 0 healthRoot
    if isObject H0 then do
      copyMembers ["LocalTemperature", "FPGATemperature", "Fan1Speed", "Fan2Speed", "BiasVoltage", "Humidity"] H0
      readArrays ["ChipTemperatures"] healthRoot
      (if chipTempsMerged healthRoot = [] then copyMembers ["ChipTemperatures"] H0 else pure ())
      (if (elements healthRoot).length > 1 then readArrays ["VDD", "AVDD"] healthRoot
        else copyMembers ["VDD", "AVDD"] H0)
      chipVoltages H0
      if (elements healthRoot).length > 1 then do
        let H1 ← element 1 healthRoot
        if isObject H1 then chipVoltages H1 else pure ()
      else pure ()
    else pure ()

def healthOfDetector (H : Json) : Action Unit := do
  copyMembers ["LocalTemperature", "FPGATemperature", "Fan1Speed", "Fan2Speed", "BiasVoltage", "Humidity",
    "ChipTemperatures", "VDD", "AVDD"] H
  chipVoltages H

def updateDetectorHealthFromJson (detector_j : Json) : Action Unit :=
  whenContains constIndex "Health" detector_j fun healthRoot =>
    if isArray healthRoot then healthOfBoards healthRoot
    else if isObject healthRoot then healthOfDetector healthRoot
    else pure ()

/-! ## Boards -/

def strip_quotes (str : String) : String :=
  if str.toList.length > 1 then String.ofList str.toList.tail.dropLast else str

def chipBoardEntryLabel (chip : Json) : Action Unit :=
  let ofId := whenContains constIndex "Id" chip fun v =>
    if isString v then discard (getString v) else whenInteger v
  if isObject chip && chip.contains "Name" then do
    let Name ← constIndex "Name" chip
    if isString Name then discard (getString Name) else ofId
  else if isObject chip then ofId
  else pure ()

/-- `Info["Boards"]`, empty where it is not an array. -/
def boardsOf (Info : Json) : Action (List Json) :=
  if Info.contains "Boards" then do
    let Boards ← index "Boards" Info
    pure (elements Boards)
  else pure []

def chipTypeOf (Info : Json) : Action String :=
  if Info.contains "ChipType" then do
    let ChipType ← index "ChipType" Info
    pure (strip_quotes (dump ChipType))
  else pure ""

def chipboardIdOf : List Json → Action String
  | [] => pure ""
  | B0 :: _ =>
    if B0.contains "ChipboardId" then do
      let ChipboardId ← index "ChipboardId" B0
      pure (strip_quotes (dump ChipboardId))
    else pure ""

/-- The labels of the chips of a board, if there are at least `n`. -/
def boardChips (n : ℕ) (B : Json) : Action Unit :=
  whenContains constIndex "Chips" B fun Chips =>
    if n ≤ (elements Chips).length then ((elements Chips).take 4).forM chipBoardEntryLabel else pure ()

def board (n : ℕ) (B : Json) : Action Unit := do
  constMembers ["ChipboardId", "IpAddress"] B
  boardChips n B

def boards : List Json → Action Unit
  | [] => pure ()
  | [B0] => board 1 B0
  | B0 :: B1 :: _ => do
    board 1 B0
    board 4 B1

def updateDetectorFamily (mpxType : ℤ) (chipType chipboardId : String) : Action Unit :=
  modify fun s => { s with detectorFamily_ := detectDetectorFamily mpxType chipType chipboardId }

/-! ## The configuration -/

/-- `cfg.value(key, json())` -/
def valueOrNull (key : String) : Json → Action Json
  | .object members => pure ((members.lookup key).getD .null)
  | _ => throw .exception

def polarityIndex (pol : String) : ℤ := if pol = "Negative" then 1 else 0

def chainModeIndex (chain : String) : ℤ := if chain = "LEADER" then 1 else if chain = "FOLLOWER" then 2 else 0

def flag (j : Json) : ℤ := if jsonBoolOr j then 1 else 0

def configReadback (cfg : Json) : Action Unit := do
  constMembers ["Fan1PWM", "Fan2PWM", "BiasVoltage"] cfg
  let BiasEnabled ← constIndex "BiasEnabled" cfg
  modify fun s => { s with biasEnable := flag BiasEnabled }
  constMembers ["TriggerIn", "TriggerOut"] cfg
  whenContains constIndex "Polarity" cfg fun v =>
    modify fun s => { s with polarity := polarityIndex (jsonStringOr v) }
  whenContains constIndex "ChainMode" cfg fun v =>
    modify fun s => { s with chainMode := chainModeIndex (jsonStringOr v) }
  whenContains constIndex "TriggerMode" cfg fun v =>
    modify fun s => { s with triggerMode := triggerModeIndexFromServal (jsonStringOr v) }
  constMembers ["ExposureTime", "TriggerPeriod", "nTriggers"] cfg
  let PeriphClk80 ← valueOrNull "PeriphClk80" cfg
  modify fun s => { s with periphClk80 := flag PeriphClk80 }
  ["TriggerDelay", "Tdc", "GlobalTimestampInterval"].forM fun key => discard (valueOrNull key cfg)
  let ExternalReferenceClock ← valueOrNull "ExternalReferenceClock" cfg
  modify fun s => { s with externalReferenceClock := flag ExternalReferenceClock }
  constMembers ["LogLevel"] cfg
  whenContains constIndex "BothCounters" cfg fun v => modify fun s => { s with bothCounters := flag v }
  copyMembers ["GainMode", "ChargeSumming", "Colour", "PixelDepth", "CounterSelectIn", "CounterSelectOut"] cfg
  whenContains constIndex "IDelayConfig" cfg fun idelay =>
    (List.range 4).forM fun i => if i < (elements idelay).length then discard (element i idelay) else pure ()

/-! ## Chips -/

/-- The loop of `chipTemperatureFromHealthV4` over the boards. -/
def temperatureOfBoards (chip : ℕ) : List Json → ℕ → Action Unit
  | [], _ => pure ()
  | block :: blocks, offset =>
    if isObject block && block.contains "ChipTemperatures" then do
      let ct ← constIndex "ChipTemperatures" block
      if isArray ct then
        if chip < offset + (elements ct).length then element (chip - offset) ct >>= whenNumber getDouble
        else temperatureOfBoards chip blocks (offset + (elements ct).length)
      else temperatureOfBoards chip blocks offset
    else temperatureOfBoards chip blocks offset

def chipTemperatureFromHealthV4 (detector : Json) (chip : ℕ) : Action Unit :=
  whenContains constIndex "Health" detector fun Health => temperatureOfBoards chip (elements Health) 0

def chipTemperatureFromHealthV3 (detector : Json) (chip : ℕ) : Action Unit :=
  whenContains constIndex "Health" detector fun Health =>
    if isObject Health then do
      let ct ← constIndex "ChipTemperatures" Health
      if chip < (elements ct).length then element chip ct >>= whenNumber getDouble else pure ()
    else pure ()

/-- The choice by the shape of `Health`, the same at both places of `fetchDacs`. -/
def chipTemperature (data : Json) (chip : ℕ) : Action Unit :=
  whenContains index "Health" data fun Health =>
    if isArray Health then chipTemperatureFromHealthV4 data chip
    else if isObject Health then chipTemperatureFromHealthV3 data chip
    else pure ()

def dacMembers : List String :=
  ["Ibias_CP_PLL", "Ibias_DiscS1_OFF", "Ibias_DiscS1_ON", "Ibias_DiscS2_OFF", "Ibias_DiscS2_ON", "Ibias_Ikrum",
    "Ibias_PixelDAC", "Ibias_Preamp_OFF", "Ibias_Preamp_ON", "Ibias_TPbufferIn", "Ibias_TPbufferOut", "PLL_Vcntrl",
    "VPreamp_NCAS", "VTP_coarse", "VTP_fine", "Vfbk", "Vthreshold_coarse", "Vthreshold_fine"]

/-- The DACs of `data["Chips"][chip]`. -/
def fetchDacsOf (data : Json) (chip : ℕ) (c : Json) : Action Unit := do
  let dacs ← index "DACs" c
  let s ← get
  if s.detectorFamily_ = .MPX3 ∨ ¬dacs.contains "Ibias_Preamp_ON" then chipTemperature data chip
  else do
    dacMembers.forM fun key => discard (readInt key dacs)
    chipTemperature data chip
    discard (index "Adjust" c)

/-- What it returns is not looked at. -/
def fetchDacs (data : Json) (chip : ℕ) : Action Unit :=
  whenContains index "Chips" data fun Chips =>
    match (elements Chips)[chip]? with
    | none => pure ()
    | some c => fetchDacsOf data chip c

def detectorOrientation (detector_j : Json) : Action Unit :=
  whenObject "Layout" detector_j fun Layout => whenContains index "DetectorOrientation" Layout fun _ => pure ()

/-- `detector_j["Layout"]["Original"]["Chips"][chip]` -/
def chipLayout (detector_j : Json) (chip : ℕ) : Action Unit :=
  whenObject "Layout" detector_j fun Layout => whenObject "Original" Layout fun Original =>
    whenContains index "Chips" Original fun Chips =>
      if chip < (elements Chips).length then discard (element chip Chips) else pure ()

def chips (detector_j : Json) (number_chips : ℤ) : Action Unit := do
  fetchDacs detector_j 0
  detectorOrientation detector_j
  chipLayout detector_j 0
  (List.range' 1 (number_chips.toNat - 1)).forM fun chip => do
    fetchDacs detector_j chip
    chipLayout detector_j chip

/-! ## The description of the detector -/

def infoMembers : List String :=
  ["SuppAcqModes", "ClockReadout", "MaxPulseCount", "MaxPulseHeight", "MaxPulsePeriod", "TimerMaxVal", "TimerMinVal",
    "TimerStep"]

/-- The numbers of pixels, chips and rows; that of the chips is used later. -/
def readCounts (Info : Json) : Action ℤ := do
  forEach .exception ["IfaceName", "SW_version", "FW_version"] fun key => memberOrNull key Info
  let PixCount ← readInt "PixCount" Info
  let _ ← readInt "RowLen" Info
  let NumberOfChips ← readInt "NumberOfChips" Info
  let NumberOfRows ← readInt "NumberOfRows" Info
  let _ ← divide PixCount NumberOfRows
  pure NumberOfChips

def readFamily (Info : Json) : Action Unit := do
  let MpxType ← readInt "MpxType" Info
  let chipType ← chipTypeOf dump Info
  let Boards ← boardsOf Info
  let chipboardId ← chipboardIdOf dump Boards
  updateDetectorFamily MpxType chipType chipboardId

def readBoards (Info : Json) : Action Unit := do
  let Boards ← boardsOf Info
  boards Boards

def readConfig (Info detector_j : Json) : Action Unit := do
  let cfg ← index "Config" detector_j
  constMembers infoMembers Info
  let _ ← valueOrNull "ClockTimepix" Info
  configReadback cfg

def getDetectorReads (detector_j : Json) : Action Unit := do
  updateDetectorHealthFromJson detector_j
  let Info ← index "Info" detector_j
  let NumberOfChips ← readCounts Info
  readFamily dump Info
  readBoards Info
  readConfig Info detector_j
  chips detector_j NumberOfChips

def getDetector (r : Response) : Action AsynStatus :=
  if r.status_code ≠ 200 then pure .asynSuccess
  else attempt caught (do
    let detector_j ← parse r
    getDetectorReads dump detector_j
    pure .asynSuccess) (pure .asynError)

/-! ## Sending the configuration -/

/-- `labels[i]` of a `json` that is not const: it is filled up with null, and the size that a negative index asks
for is too large, or wraps to zero. -/
def label (labels : List String) (i : ℤ) : Action Json :=
  if i = -1 then throw .undefined
  else if i < 0 then throw .exception
  else pure ((labels.map Json.string).getD i.toNat .null)

/-- `config_j[key] = v` -/
def setMember (key : String) (v : Json) (config_j : Json) : Action Json :=
  orFault .exception (config_j.assign [.key key] v)

def setMembers (fields : List (String × Json)) (config_j : Json) : Action Json :=
  fields.foldlM (fun config_j field => setMember field.1 field.2 config_j) config_j

/-- `config_j.erase(key)` -/
def eraseMember (key : String) : Json → Action Json
  | .object members => pure (.object (members.filter fun m => m.1 != key))
  | _ => throw .exception

def stripTpx3DetectorConfigFields (config_j : Json) : Action Json :=
  ["TriggerDelay", "GlobalTimestampInterval", "Tdc", "ExternalReferenceClock", "PeriphClk80"].foldlM
    (fun config_j key => eraseMember key config_j) config_j

def tdcLabels : List String := ["P0123", "N0123", "PN0123", "P0", "N0", "PN0"]

def tpx3Members (values : String → Json) (s : Driver) (config_j : Json) : Action Json := do
  let config_j ← setMembers (["TriggerDelay", "GlobalTimestampInterval"].map fun key => (key, values key)) config_j
  let tdc0 ← label tdcLabels s.tdc0
  let config_j ← orFault .exception (config_j.assign [.key "Tdc", .index 0] tdc0)
  let tdc1 ← label tdcLabels s.tdc1
  let config_j ← orFault .exception (config_j.assign [.key "Tdc", .index 1] tdc1)
  let externalClock ← label ["false", "true"] s.externalReferenceClock
  let config_j ← setMember "ExternalReferenceClock" externalClock config_j
  let peripheralClock80 ← label ["false", "true"] s.periphClk80
  setMember "PeriphClk80" peripheralClock80 config_j

def mpx3Members (values : String → Json) (config_j : Json) : Action Json := do
  let config_j ← stripTpx3DetectorConfigFields config_j
  setMembers (["BothCounters", "ChargeSumming", "Colour", "GainMode", "PixelDepth", "CounterSelectIn",
    "CounterSelectOut", "IDelayConfig"].map fun key => (key, values key)) config_j

def commonMembers (values : String → Json) (triggerModeIdx : ℤ) (s : Driver) (config_j : Json) : Action Json := do
  let config_j ← setMember "TriggerMode" (.string (triggerModeServalName triggerModeIdx)) config_j
  let config_j ← setMembers
    (["ExposureTime", "TriggerPeriod", "nTriggers", "BiasVoltage"].map fun key => (key, values key)) config_j
  let biasEnabled ← label ["false", "true"] s.biasEnable
  let config_j ← setMember "BiasEnabled" biasEnabled config_j
  let chainMode ← label ["NONE", "LEADER", "FOLLOWER"] s.chainMode
  let config_j ← setMember "ChainMode" chainMode config_j
  let polarity ← label ["Positive", "Negative"] s.polarity
  let config_j ← setMember "Polarity" polarity config_j
  setMembers (["TriggerIn", "TriggerOut"].map fun key => (key, values key)) config_j

/-- `ADTriggerMode`, set to 0 where it is no mode. -/
def Driver.triggerModeIdx (s : Driver) : ℤ := if triggerModeOutOfRange s.triggerMode then 0 else s.triggerMode

def Driver.mpx3BothCountersTriggerConflict (s : Driver) : Bool :=
  s.detectorFamily_ = .MPX3 && s.bothCounters ≠ 0 && s.triggerModeIdx = 5

def resyncReads (resync : Response) : Action Unit := do
  let cfg ← parse resync
  copyMembers ["PixelDepth", "GainMode"] cfg

/-- The answers to the GET, to the `getDetector` of an unknown family, to the PUT, and to the GET after a PUT that
was rejected. -/
structure ConfigReplies where
  config : Response
  detector : Response
  put : Response
  resync : Response

/-- The last member and the PUT, and the setpoints of a Medipix3 that has rejected it. -/
def putConfig (values : String → Json) (r : ConfigReplies) (family : DetectorFamily) (config_j : Json) :
    Action AsynStatus := do
  let _ ← setMember "LogLevel" (values "LogLevel") config_j
  if r.put.status_code ≠ 200 ∧ family = .MPX3 then do
    (if r.resync.status_code = 200 then attempt caught (resyncReads r.resync) (pure ()) else pure ())
    pure .asynError
  else pure .asynSuccess

def writeConfig (values : String → Json) (r : ConfigReplies) (s : Driver) (config_j : Json) :
    Action AsynStatus := do
  let config_j ← commonMembers values s.triggerMode s config_j
  let config_j ←
    (if s.detectorFamily_ ≠ .MPX3 then tpx3Members values s config_j else mpx3Members values config_j)
  putConfig values r s.detectorFamily_ config_j

/-- `initAcquisition`, once the family has been asked for. -/
def configure (values : String → Json) (r : ConfigReplies) : Action AsynStatus := do
  let config_j ← parse r.config
  modify fun s => { s with triggerMode := s.triggerModeIdx }
  let s ← get
  if s.mpx3BothCountersTriggerConflict then pure .asynError else writeConfig values r s config_j

/-- `getDetector`, where the family is not known. -/
def detectFamily (detector : Response) : Action Unit := do
  let s ← get
  if s.detectorFamily_ = .Unknown then discard (getDetector dump detector) else pure ()

def initAcquisition (values : String → Json) (r : ConfigReplies) : Action AsynStatus :=
  if r.config.status_code ≠ 200 then pure .asynSuccess
  else do
    detectFamily dump r.detector
    configure values r

end ADTimePix3.Serval.Replies
