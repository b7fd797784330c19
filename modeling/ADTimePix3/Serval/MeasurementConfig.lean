import ADTimePix3.Lib.Doubles
import ADTimePix3.Lib.MachineInt
import ADTimePix3.Lib.Texts
import ADTimePix3.Serval.AnsweredCalls
import ADTimePix3.Serval.JsonAgreement

/-!
# The configuration of a measurement

`getMeasurementConfig` copies what it finds under `Stem` and `TimeOfFlight` to parameters, each after a test of its
type. When one of these parameters is written, `sendMeasurementConfig` reads the configuration again, sets the
fields of all of them and puts the document (both `serval_http.cpp`).

Doubles are finite. A parameter that has never been set has the value that is found in the variable it is read
into.
-/

namespace ADTimePix3.Serval.MeasurementConfig

open Replies (AsynStatus MeasurementParams isObject settable)
open Acquire (Response)
open Img (toInt32)
open MachineInt (Fits)
open Texts (utf8 decode cStr)
open ADTimePix3.Stream (Json)
open ADTimePix3.Stream.Json (PathStep keyPath ObjectAt AgreesExcept)

/-- The reference is what `setStringParam` was given, byte by byte. -/
structure Params where
  stemScanWidth : ℤ
  stemScanHeight : ℤ
  stemDwellTime : ℚ
  stemRadiusOuter : ℤ
  stemRadiusInner : ℤ
  tofTdcReference : List UInt8
  tofMin : ℚ
  tofMax : ℚ

/-! ## Reading -/

/-- `if (… is_number_integer()) setIntegerParam(…, ….get<int>())`, for a member that may not be there. -/
def setInteger (field : Option Json) (old : ℤ) : ℤ :=
  match field with
  | some (.number_integer z) => toInt32 z
  | _ => old

/-- `if (… is_number()) setDoubleParam(…, ….get<double>())` -/
def setDouble (field : Option Json) (old : ℚ) : ℚ :=
  match field with
  | some (.number_integer z) => Doubles.ofInt z
  | some (.number_float q) => q
  | _ => old

/-- What is appended to `refs` for an element. -/
def refBytes : Json → List UInt8
  | .string s => utf8 s
  | _ => []

def joinRefs (TdcReference : List Json) : List UInt8 := [44].intercalate (TdcReference.map refBytes)

/-- `if (… is_array()) … setStringParam(…, refs.c_str())` -/
def setReference (field : Option Json) (old : List UInt8) : List UInt8 :=
  match field with
  | some (.array TdcReference) => cStr (joinRefs TdcReference)
  | _ => old

/-- `if (j.contains(key) && j[key].is_object()) …` -/
def whenObject (key : String) (j : Json) (read : Json → Params → Params) (p : Params) : Params :=
  match j.member key with
  | some v => if isObject v then read v p else p
  | none => p

def readScan (Scan : Json) (p : Params) : Params :=
  { p with
    stemScanWidth := setInteger (Scan.member "Width") p.stemScanWidth
    stemScanHeight := setInteger (Scan.member "Height") p.stemScanHeight
    stemDwellTime := setDouble (Scan.member "DwellTime") p.stemDwellTime }

def readVirtualDetector (VirtualDetector : Json) (p : Params) : Params :=
  { p with
    stemRadiusOuter := setInteger (VirtualDetector.member "RadiusOuter") p.stemRadiusOuter
    stemRadiusInner := setInteger (VirtualDetector.member "RadiusInner") p.stemRadiusInner }

def readStem (Stem : Json) (p : Params) : Params :=
  whenObject "VirtualDetector" Stem readVirtualDetector (whenObject "Scan" Stem readScan p)

def readTimeOfFlight (TimeOfFlight : Json) (p : Params) : Params :=
  { p with
    tofTdcReference := setReference (TimeOfFlight.member "TdcReference") p.tofTdcReference
    tofMin := setDouble (TimeOfFlight.member "Min") p.tofMin
    tofMax := setDouble (TimeOfFlight.member "Max") p.tofMax }

def getMeasurementConfig (r : Response) (p : Params) : AsynStatus × Params :=
  if r.status_code ≠ 200 then (.asynError, p)
  else
    match r.json with
    | none => (.asynError, p)
    | some config_j =>
      (.asynSuccess, whenObject "TimeOfFlight" config_j readTimeOfFlight (whenObject "Stem" config_j readStem p))

/-! ## Sending -/

/-- `getStringParam`: as many bytes as there is room for in front of the final NUL. -/
def getStringParam (maxChars : ℕ) (value : List UInt8) : List UInt8 := (cStr value).take (maxChars - 1)

/-- The bytes can be put in a document: `char strVal[256]`. -/
def Sendable (value : List UInt8) : Prop := (decode (getStringParam 256 value)).isSome

def Params.toSend (p : Params) : MeasurementParams :=
  { stemScanWidth := p.stemScanWidth
    stemScanHeight := p.stemScanHeight
    stemDwellTime := p.stemDwellTime
    stemRadiusOuter := p.stemRadiusOuter
    stemRadiusInner := p.stemRadiusInner
    tofTdcReference := decode (getStringParam 256 p.tofTdcReference)
    tofMin := p.tofMin
    tofMax := p.tofMax }

/-- `config_j` before the fields are set. -/
def source (get : Response) : Json := if get.status_code = 200 then get.json.getD (.object []) else .object []

/-- The document of the PUT of `sendMeasurementConfig`; none when an index or the dump throws. -/
def sent (get : Response) (p : Params) : Option Json :=
  (p.toSend.merge (source get)).bind fun config_j => p.toSend.tofTdcReference.map fun _ => config_j

/-- The document of a server that takes the body of a PUT in its place. -/
def stored (D : Json) (get : Response) (p : Params) : Json := (sent get p).getD D

/-! ## Writing a parameter -/

/-- One of the parameters and its new value. -/
inductive Change where
  | stemScanWidth (value : ℤ)
  | stemScanHeight (value : ℤ)
  | stemDwellTime (value : ℚ)
  | stemRadiusOuter (value : ℤ)
  | stemRadiusInner (value : ℤ)
  | tofTdcReference (value : List UInt8)
  | tofMin (value : ℚ)
  | tofMax (value : ℚ)

def Change.apply (p : Params) : Change → Params
  | stemScanWidth value => { p with stemScanWidth := value }
  | stemScanHeight value => { p with stemScanHeight := value }
  | stemDwellTime value => { p with stemDwellTime := value }
  | stemRadiusOuter value => { p with stemRadiusOuter := value }
  | stemRadiusInner value => { p with stemRadiusInner := value }
  | tofTdcReference value => { p with tofTdcReference := value }
  | tofMin value => { p with tofMin := value }
  | tofMax value => { p with tofMax := value }

/-- Where the parameter is in a configuration. -/
def Change.field : Change → List String
  | stemScanWidth _ => ["Stem", "Scan", "Width"]
  | stemScanHeight _ => ["Stem", "Scan", "Height"]
  | stemDwellTime _ => ["Stem", "Scan", "DwellTime"]
  | stemRadiusOuter _ => ["Stem", "VirtualDetector", "RadiusOuter"]
  | stemRadiusInner _ => ["Stem", "VirtualDetector", "RadiusInner"]
  | tofTdcReference _ => ["TimeOfFlight", "TdcReference"]
  | tofMin _ => ["TimeOfFlight", "Min"]
  | tofMax _ => ["TimeOfFlight", "Max"]

/-! ## Preservation -/

/-- The answer of a server with the document `D`. -/
def answer (text : String) (D : Json) : Response := ⟨200, text, some D⟩

/-- After `D` has been read and one parameter has been written, the document that is sent has all of `D` but the
field of that parameter. -/
def Preserved (text : String) (D : Json) (old : Params) (change : Change) : Prop :=
  ∃ E, sent (answer text D) (change.apply (getMeasurementConfig (answer text D) old).2) = some E ∧
    AgreesExcept (keyPath change.field) D E

def Params.integers (p : Params) : List (List String × ℤ) :=
  [(["Stem", "Scan", "Width"], p.stemScanWidth), (["Stem", "Scan", "Height"], p.stemScanHeight),
    (["Stem", "VirtualDetector", "RadiusOuter"], p.stemRadiusOuter),
    (["Stem", "VirtualDetector", "RadiusInner"], p.stemRadiusInner)]

def Params.doubles (p : Params) : List (List String × ℚ) :=
  [(["Stem", "Scan", "DwellTime"], p.stemDwellTime), (["TimeOfFlight", "Min"], p.tofMin),
    (["TimeOfFlight", "Max"], p.tofMax)]

/-- A value that comes back from a parameter of type `int`. A floating point number is not read. -/
def KeptInteger (old : ℤ) : Json → Prop
  | .number_integer z => Fits z
  | .number_float q => q = old
  | _ => False

/-- A value that comes back from a parameter of type `double`. -/
def KeptDouble : Json → Prop
  | .number_integer z => Doubles.Exact z
  | .number_float _ => True
  | _ => False

/-- References that come back from a text of 255 bytes with commas. -/
def KeptReferences (refs : List String) : Prop :=
  refs ≠ [] ∧ (∀ ref ∈ refs, ref ≠ "" ∧ ',' ∉ ref.toList ∧ '\x00' ∉ ref.toList) ∧
    (refs.map fun ref => (utf8 ref).length + 1).sum ≤ 256

/-- The branches that are read and set are objects, where they are there; what is there in the fields comes back;
and the reference that is sent is text, also where it does not come from `D`. -/
structure Kept (D : Json) (old : Params) (change : Change) : Prop where
  objects : ∀ names ∈ [[], ["Stem"], ["Stem", "Scan"], ["Stem", "VirtualDetector"], ["TimeOfFlight"]],
    ObjectAt (keyPath names) D
  integers : ∀ field ∈ old.integers, field.1 ≠ change.field → ∀ v, D.valueAt (keyPath field.1) = some v →
    KeptInteger field.2 v
  doubles : ∀ field ∈ old.doubles, field.1 ≠ change.field → ∀ v, D.valueAt (keyPath field.1) = some v → KeptDouble v
  references : ["TimeOfFlight", "TdcReference"] ≠ change.field →
    ∀ v, D.valueAt (keyPath ["TimeOfFlight", "TdcReference"]) = some v →
      ∃ refs : List String, v = .array (refs.map .string) ∧ KeptReferences refs
  text : ∀ value, (change = .tofTdcReference value ∨ (["TimeOfFlight", "TdcReference"] ≠ change.field ∧
    D.valueAt (keyPath ["TimeOfFlight", "TdcReference"]) = none ∧ value = old.tofTdcReference)) → Sendable value

/-- What the two documents have besides Stem and the time of flight is the same. -/
def OthersKept (D D' : Json) : Prop :=
  ∀ step, step ≠ .key "Stem" → step ≠ .key "TimeOfFlight" → D'.valueAt [step] = D.valueAt [step]

end ADTimePix3.Serval.MeasurementConfig
