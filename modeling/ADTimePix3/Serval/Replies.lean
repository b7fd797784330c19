import ADTimePix3.Lib.Faults
import ADTimePix3.Serval.ConnectionPoll
import ADTimePix3.Serval.CounterGuard
import ADTimePix3.Serval.JsonPath

/-!
# Faults from the replies of Serval

How nine functions of the driver look into the replies they get: `acquireStop` (`acquire.cpp`), and the others of
`serval_http.cpp`. Every access to a body is there, in its order, with the tests before it and the `try` around it.

An access that `nlohmann::json` answers with an exception is an `exception`. One that fails an assertion of it, and
an integer division that C++ does not define, is `undefined`. The members that an index leaves behind in a `json`
that is not const are null, and nothing asks for them with `contains` or through a const reference later on: they
are not kept.

Of the parameters, those are kept that an access or a branch depends on; setting the others returns. A double is
converted as by `Json.truncate`. Memory and stack do not run out.
-/

namespace ADTimePix3.Serval.Replies

open Faults
open Acquire (Response)
open Connection (memberOrNull)
open Guard (DetectorFamily detectDetectorFamily jsonBoolOr jsonStringOr triggerModeOutOfRange
  triggerModeServalName triggerModeIndexFromServal)
open ADTimePix3.Stream (Json)
open ADTimePix3.Stream.Json (PathStep)

inductive AsynStatus where
  | asynSuccess
  | asynError
deriving DecidableEq

inductive Fault where
  | exception
  | undefined
deriving DecidableEq

/-- `detectorFamily_`, and parameters. -/
structure Driver where
  detectorFamily_ : DetectorFamily
  triggerMode : ℤ
  bothCounters : ℤ
  biasEnable : ℤ
  chainMode : ℤ
  polarity : ℤ
  tdc0 : ℤ
  tdc1 : ℤ
  externalReferenceClock : ℤ
  periphClk80 : ℤ
deriving DecidableEq

abbrev Action := Faults.Action Fault Driver

/-- The handlers of the driver take every exception there is. -/
def caught (e : Fault) : Bool := e == .exception

/-! ## Accesses -/

def isObject : Json → Bool
  | .object _ => true
  | _ => false

def isArray : Json → Bool
  | .array _ => true
  | _ => false

def isNumber : Json → Bool
  | .number_integer _ => true
  | .number_float _ => true
  | _ => false

def isString : Json → Bool
  | .string _ => true
  | _ => false

/-- The elements, after `is_array()`. -/
def elements : Json → List Json
  | .array elements => elements
  | _ => []

/-- `json::parse(r.text.c_str())` -/
def parse (r : Response) : Action Json := orFault .exception r.json

/-- `j[key]` of a `json` that is not const. -/
def index (key : String) (j : Json) : Action Json := orFault .exception (memberOrNull key j)

/-- `j[key]` of a const `json`. -/
def constIndex (key : String) : Json → Action Json
  | .object members => orFault .undefined (members.lookup key)
  | _ => throw .exception

/-- `j.at(key)` -/
def atMember (key : String) (j : Json) : Action Json := orFault .exception (j.member key)

/-- `j[i]` of a const `json`. -/
def element (i : ℕ) : Json → Action Json
  | .array elements => orFault .undefined elements[i]?
  | _ => throw .exception

def getInt (j : Json) : Action ℤ := orFault .exception j.getInt

def getDouble (j : Json) : Action ℚ := orFault .exception j.getDouble

def getString (j : Json) : Action String := orFault .exception j.getString

/-- `if (j.contains(key)) … j[key] …` -/
def whenContains (get : String → Json → Action Json) (key : String) (j : Json) (body : Json → Action Unit) :
    Action Unit :=
  if j.contains key then get key j >>= body else pure ()

/-- Members that are copied to parameters where they are there. -/
def copyMembers (keys : List String) (j : Json) : Action Unit :=
  keys.forM fun key => whenContains constIndex key j fun _ => pure ()

def constMembers (keys : List String) (j : Json) : Action Unit := keys.forM fun key => discard (constIndex key j)

/-- `if (v.is_number()) … v.get<…>()` -/
def whenNumber {α : Type} (get : Json → Action α) (v : Json) : Action Unit :=
  if isNumber v then discard (get v) else pure ()

/-- `j[key].get<int>()` -/
def readInt (key : String) (j : Json) : Action ℤ := index key j >>= getInt

/-- The quotient of two `int`s. -/
def divide (a b : ℤ) : Action ℤ :=
  if b = 0 ∨ (a = -2 ^ 31 ∧ b = -1) then throw .undefined else pure (a.tdiv b)

/-! ## The dashboard -/

def updateServalVersionFromDashboard (dashboard_j : Json) : Action Unit :=
  whenContains constIndex "Server" dashboard_j fun srv =>
    if isObject srv then copyMembers ["SoftwareVersion", "SoftwareTimestamp"] srv else pure ()

def updateMeasurementStatusFromJson (statusVal : Json) : Action Unit :=
  if isString statusVal then discard (getString statusVal) else pure ()

/-- `measurementStatusJson`, and what is done with the status that it finds. -/
def updateFromMeasurementStatus (meas : Json) : Action Unit :=
  let ofMeasurement := whenContains constIndex "Status" meas updateMeasurementStatusFromJson
  if meas.contains "Info" then do
    let Info ← constIndex "Info" meas
    if isObject Info && Info.contains "Status" then
      constIndex "Status" Info >>= updateMeasurementStatusFromJson
    else ofMeasurement
  else ofMeasurement

def updateMeasurementFromDashboard (dashboard_j : Json) : Action Unit :=
  if isObject dashboard_j then
    whenContains constIndex "Measurement" dashboard_j fun meas =>
      if meas.isNull then pure () else updateFromMeasurementStatus meas
  else pure ()

def detectorOfDashboard (dashboard_j : Json) : Action Unit := do
  let Detector ← index "Detector" dashboard_j
  if Detector.isNull then pure () else discard (index "DetectorType" Detector)

def checkConnectionReads (r : Response) : Action Unit := do
  let dashboard_j ← parse r
  updateServalVersionFromDashboard dashboard_j
  detectorOfDashboard dashboard_j
  updateMeasurementFromDashboard dashboard_j

def checkConnection (r : Response) : Action AsynStatus := do
  (if r.status_code = 200 then
      attempt caught (checkConnectionReads r) (updateMeasurementStatusFromJson .null)
    else updateMeasurementStatusFromJson .null)
  pure (if (Connection.checkConnection r).2 then .asynSuccess else .asynError)

/-! ## Health and DACs -/

def getHealth (r : Response) : Action AsynStatus :=
  if r.status_code ≠ 200 then pure .asynError
  else
    match r.json with
    -- the parse is in a `try`
    | none => pure .asynError
    | some health_j => do
      forEach .exception
        ["LocalTemperature", "FPGATemperature", "Fan1Speed", "Fan2Speed", "BiasVoltage", "ChipTemperatures", "VDD",
          "AVDD"] fun key => memberOrNull key health_j
      pure .asynSuccess

/-- `put` is the answer to the PUT of the DACs with one of them set. -/
def writeDac (dac : String) (value : ℤ) (get put : Response) : Action AsynStatus :=
  if get.status_code ≠ 200 then pure .asynError
  else
    match get.json with
    | none => pure .asynError
    | some dacsRead_j => do
      let _ ← orFault .exception (dacsRead_j.assign [.key dac] (.number_integer value))
      pure (if put.status_code ≠ 200 then .asynError else .asynSuccess)

/-! ## Stopping a measurement -/

def updateTdcRatesFromMeasurementInfo (info : Json) : Action Unit :=
  if isObject info then do
    whenContains constIndex "Tdc1EventRate" info (whenNumber getInt)
    whenContains constIndex "Tdc2EventRate" info (whenNumber getInt)
    whenContains constIndex "TdcEventRate" info fun v =>
      if info.contains "Tdc1EventRate" then pure () else whenNumber getInt v
  else pure ()

/-- The values of a measurement that has been stopped. -/
def updateFromInfo (Info : Json) : Action Unit := do
  whenContains index "PixelEventRate" Info (whenNumber getInt)
  updateTdcRatesFromMeasurementInfo Info
  whenContains index "StartDateTime" Info (whenNumber getInt)
  whenContains index "ElapsedTime" Info (whenNumber getDouble)
  whenContains index "TimeLeft" Info (whenNumber getDouble)
  whenContains index "FrameCount" Info (whenNumber getInt)
  whenContains index "DroppedFrames" Info (whenNumber getInt)
  whenContains index "Status" Info updateMeasurementStatusFromJson

def updateFromMeasurement (measurement_j : Json) : Action Unit :=
  let ofMeasurement :=
    if measurement_j.contains "Status" then index "Status" measurement_j >>= updateMeasurementStatusFromJson
    else updateMeasurementStatusFromJson (.string "DA_IDLE")
  if measurement_j.contains "Info" then do
    let Info ← index "Info" measurement_j
    if isObject Info then updateFromInfo Info else ofMeasurement
  else ofMeasurement

/-- `stop` and `measurement` are the answers to `/measurement/stop` and to the GET of the measurement after it. -/
def acquireStop (stop measurement : Response) : Action AsynStatus :=
  if stop.status_code ≠ 200 then pure .asynError
  else if measurement.status_code ≠ 200 then pure .asynError
  else do
    let measurement_j ← parse measurement
    updateFromMeasurement measurement_j
    pure .asynSuccess

/-! ## The destination -/

def destinationBody (parsed : Json) : Action Json :=
  if parsed.contains "Destination" then do
    let Destination ← constIndex "Destination" parsed
    pure (if isObject Destination then Destination else parsed)
  else pure parsed

def jsonArraySizeIfArray (key : String) (parent : Json) : Action Unit :=
  whenContains atMember key parent fun _ => pure ()

/-- `previewImageChannelCount` and `previewHistogramChannelCount` -/
def previewChannelCount (key : String) (dest : Json) : Action Unit :=
  whenContains atMember "Preview" dest fun prev =>
    if isObject prev then whenContains atMember key prev fun _ => pure () else pure ()

def getServerReads (r : Response) : Action AsynStatus := do
  let parsed ← parse r
  let server_j ← destinationBody parsed
  jsonArraySizeIfArray "Raw" server_j
  jsonArraySizeIfArray "Image" server_j
  previewChannelCount "ImageChannels" server_j
  previewChannelCount "HistogramChannels" server_j
  pure .asynSuccess

def getServer (r : Response) : Action AsynStatus :=
  if r.status_code ≠ 200 then pure .asynSuccess else attempt caught (getServerReads r) (pure .asynError)

/-! ## The configuration of a measurement -/

/-- `if (j.contains(key) && j[key].is_object()) …` -/
def whenObject (key : String) (j : Json) (body : Json → Action Unit) : Action Unit :=
  whenContains index key j fun v => if isObject v then body v else pure ()

def whenInteger (v : Json) : Action Unit :=
  match v with
  | .number_integer _ => discard (getInt v)
  | _ => pure ()

def readScan (Scan : Json) : Action Unit := do
  whenContains index "Width" Scan whenInteger
  whenContains index "Height" Scan whenInteger
  whenContains index "DwellTime" Scan (whenNumber getDouble)

def readVirtualDetector (VirtualDetector : Json) : Action Unit := do
  whenContains index "RadiusOuter" VirtualDetector whenInteger
  whenContains index "RadiusInner" VirtualDetector whenInteger

def readStem (Stem : Json) : Action Unit := do
  whenObject "Scan" Stem readScan
  whenObject "VirtualDetector" Stem readVirtualDetector

def readTimeOfFlight (TimeOfFlight : Json) : Action Unit := do
  whenContains index "TdcReference" TimeOfFlight fun TdcReference =>
    (elements TdcReference).forM fun ref => if isString ref then discard (getString ref) else pure ()
  whenContains index "Min" TimeOfFlight (whenNumber getDouble)
  whenContains index "Max" TimeOfFlight (whenNumber getDouble)

def measurementConfigReads (r : Response) : Action AsynStatus := do
  let config_j ← parse r
  whenObject "Stem" config_j readStem
  whenObject "TimeOfFlight" config_j readTimeOfFlight
  pure .asynSuccess

def getMeasurementConfig (r : Response) : Action AsynStatus :=
  if r.status_code ≠ 200 then pure .asynError else attempt caught (measurementConfigReads r) (pure .asynError)

/-- The parameters of Stem and of the time of flight. `tofTdcReference` is none when its bytes are not UTF-8. -/
structure MeasurementParams where
  stemScanWidth : ℤ
  stemScanHeight : ℤ
  stemDwellTime : ℚ
  stemRadiusOuter : ℤ
  stemRadiusInner : ℤ
  tofTdcReference : Option String
  tofMin : ℚ
  tofMax : ℚ

/-- The parts between the commas. -/
def MeasurementParams.refArr (p : MeasurementParams) : Json :=
  let parts := (((p.tofTdcReference.getD "").splitOn ",").filter (· ≠ "")).map Json.string
  .array (if parts = [] then [.string "PN0123"] else parts)

/-- What is assigned in a configuration, group by group. -/
def MeasurementParams.groups (p : MeasurementParams) : List (List String × List (String × Json)) :=
  [(["Stem", "Scan"],
      [("Width", .number_integer p.stemScanWidth), ("Height", .number_integer p.stemScanHeight),
        ("DwellTime", .number_float p.stemDwellTime)]),
    (["Stem", "VirtualDetector"],
      [("RadiusOuter", .number_integer p.stemRadiusOuter), ("RadiusInner", .number_integer p.stemRadiusInner)]),
    (["TimeOfFlight"],
      [("TdcReference", p.refArr), ("Min", .number_float p.tofMin), ("Max", .number_float p.tofMax)])]

/-- The configuration that is sent, none when an index throws. -/
def MeasurementParams.merge (p : MeasurementParams) (config_j : Json) : Option Json :=
  p.groups.foldlM (fun j group => Json.assignFields (group.1.map PathStep.key) group.2 j) config_j

/-- A text that does not parse counts as an empty object. -/
def sendMeasurementConfig (p : MeasurementParams) (get put : Response) : Action AsynStatus := do
  let config_j := if get.status_code = 200 then get.json.getD (.object []) else .object []
  let _ ← orFault .exception (p.merge config_j)
  -- `config_j.dump()` of bytes that are not UTF-8
  let _ ← orFault .exception p.tofTdcReference
  pure (if put.status_code ≠ 200 then .asynError else .asynSuccess)

end ADTimePix3.Serval.Replies
