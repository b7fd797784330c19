import ADTimePix3.Stream.Json

/-!
# Answers of the server

What `acquireStart`, `timePixCallback` and `acquireStop` (`acquire.cpp`) look at in the answers to their requests.
Left out: the rates, times and counts that are only copied to parameters.
-/

namespace ADTimePix3.Acquire

open ADTimePix3.Stream (Json)

/-- `cpr::Response`, with what `json::parse` makes of the text; none when it throws. -/
structure Response where
  status_code : ℤ
  text : String
  json : Option Json

/-- `r.text.find("Address already in use") != std::string::npos` -/
def Response.addressInUse (r : Response) : Bool :=
  r.text.toList.tails.any fun rest => "Address already in use".toList.isPrefixOf rest

/-- `measurement_j["Info"]`, where it is an object. -/
def infoObject (measurement_j : Json) : Option Json :=
  match measurement_j.member "Info" with
  | some (.object members) => some (.object members)
  | _ => none

/-- `get<int>()` of a value that `is_number()`. -/
def getNumber : Json → Option ℤ
  | .number_integer z => (Json.number_integer z).getInt
  | .number_float q => (Json.number_float q).getInt
  | _ => none

def frameCount (measurement_j : Json) : Option ℤ := do
  let info ← infoObject measurement_j
  let count ← info.member "FrameCount"
  getNumber count

/-- The status that `timePixCallback` looks at is `DA_IDLE`. -/
def reportsIdle (measurement_j : Json) : Bool :=
  let status :=
    match infoObject measurement_j with
    | some info => info.member "Status"
    | none => measurement_j.member "Status"
  status.bind Json.getString == some "DA_IDLE"

/-- The status that `acquireStart` looks at is that of a measurement which is under way. A text that does not
parse counts as an empty object. -/
def reportsRunning (r : Response) : Bool :=
  let status := ((r.json.bind infoObject).bind fun info => info.member "Status").bind Json.getString
  match status with
  | some status => r.status_code = 200 && r.text ≠ "" && status ≠ "DA_IDLE" && status ≠ "DA_STOPPED"
  | none => false

/-- `detectorFamily_` is `MPX3`, `ADTimePixBothCounters` and `ADTriggerMode`. -/
structure TriggerParams where
  isMpx3 : Bool
  bothCounters : ℤ
  triggerMode : ℤ

def mpx3BothCountersTriggerConflict (p : TriggerParams) : Bool :=
  p.isMpx3 && p.bothCounters ≠ 0 && p.triggerMode = 5

end ADTimePix3.Acquire
