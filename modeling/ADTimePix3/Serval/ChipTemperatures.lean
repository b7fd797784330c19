import ADTimePix3.Serval.DetectorReplies

/-!
# Chip temperatures

With Serval 4 `Health` is an array with one block for each board, and a block lists the temperatures of its own
chips. `chipTemperatureFromHealthV4` finds the chip with a given number among all boards by a running offset;
`updateDetectorHealthFromJson` puts the lists one behind the other and publishes them (both `serval_http.cpp`).
-/

namespace ADTimePix3.Serval.Health

open Replies (isObject elements)
open ADTimePix3.Stream (Json)
open Img (toInt32)

/-- `block["ChipTemperatures"]` of an object in which it is an array; every other block is skipped. -/
def chipTemperatures (block : Json) : Option (List Json) :=
  match block.member "ChipTemperatures" with
  | some (.array ct) => some ct
  | _ => none

/-- The conversion of an element: towards zero, and zero if it is not a number. -/
def toTemperature : Json → ℤ
  | .number_integer z => toInt32 z
  | .number_float q => Json.truncate q
  | _ => 0

/-- The loop of `chipTemperatureFromHealthV4` with its variable `offset`. -/
def temperatureFrom (chip : ℕ) : List Json → ℕ → ℤ
  | [], _ => 0
  | block :: blocks, offset =>
    match chipTemperatures block with
    | some ct =>
      if chip < offset + ct.length then toTemperature (ct.getD (chip - offset) .null)
      else temperatureFrom chip blocks (offset + ct.length)
    | none => temperatureFrom chip blocks offset

def chipTemperatureFromHealthV4 (detector : Json) (chip : ℤ) : ℤ :=
  if chip < 0 then 0
  else
    match detector.member "Health" with
    | some (.array blocks) => temperatureFrom chip.toNat blocks 0
    | _ => 0

/-- The loop over the blocks that fills `chipTempsMerged`, one `push_back` for each element. -/
def chipTempsMerged (healthRoot : List Json) : List Json :=
  healthRoot.foldl
    (fun merged hb =>
      match chipTemperatures hb with
      | some ct => ct.foldl (fun merged te => merged ++ [te]) merged
      | none => merged) []

/-- What `updateDetectorHealthFromJson` gives to the parameter of the chip temperatures; `none` when it leaves it
as it is. -/
def publishedTemperatures (detector_j : Json) : Option Json :=
  match detector_j.member "Health" with
  | some (.array (H0 :: blocks)) =>
    if isObject H0 then
      if chipTempsMerged (H0 :: blocks) ≠ [] then some (.array (chipTempsMerged (H0 :: blocks)))
      else H0.member "ChipTemperatures"
    else none
  | some (.object members) => (Json.object members).member "ChipTemperatures"
  | _ => none

/-- The element of a list with the number `chip`, as a temperature; zero when there is none. -/
def temperatureAt (temperatures : List Json) (chip : ℕ) : ℤ := toTemperature (temperatures.getD chip .null)

end ADTimePix3.Serval.Health
