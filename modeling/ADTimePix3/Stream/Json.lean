import ADTimePix3.Img.Accumulation
import Mathlib.Data.Rat.Defs

/-!
# JSON values

`nlohmann::json`, as far as the stream headers use it: the kinds of value, member access, and the conversions
`get<int>`, `get<double>` and `get<std::string>`. A conversion that throws has no result (`none`). The parser
itself is not part of the model; it is a parameter of what follows.
-/

namespace ADTimePix3.Stream

open Img (toInt32 toUInt64)

/-- `nlohmann::json`. Integers are exact; `number_float` holds the value the parser found. -/
inductive Json where
  | null
  | boolean (b : Bool)
  | number_integer (z : ℤ)
  | number_float (q : ℚ)
  | string (s : String)
  | array (elements : List Json)
  | object (members : List (String × Json))

namespace Json

/-- The member `key`; `none` when there is none, or when the value is not an object. -/
def member (j : Json) (key : String) : Option Json :=
  match j with
  | object members => members.lookup key
  | _ => none

/-- `j.contains(key)`. -/
def contains (j : Json) (key : String) : Bool := (j.member key).isSome

/-- `static_cast<int>` of a `double`: towards zero, and the smallest `int` when the value is out of range. -/
def truncate (q : ℚ) : ℤ :=
  let z := q.num.tdiv q.den
  if -2 ^ 31 ≤ z ∧ z < 2 ^ 31 then z else -2 ^ 31

/-- `j.get<int>()`. -/
def getInt : Json → Option ℤ
  | boolean b => some (if b then 1 else 0)
  | number_integer z => some (toInt32 z)
  | number_float q => some (truncate q)
  | _ => none

/-- `j.get<double>()`. -/
def getDouble : Json → Option ℚ
  | number_integer z => some z
  | number_float q => some q
  | _ => none

/-- `j.get<std::string>()`. -/
def getString : Json → Option String
  | string s => some s
  | _ => none

/-- `int x = j[key]`: a missing member is `null`, which does not convert. -/
def intAt (j : Json) (key : String) : Option ℤ := (j.member key).bind getInt

/-- `j.value(key, def)`, with the conversion of the default's type: it throws when `j` is not an object and
when the member has another type. -/
def value {α : Type} (get : Json → Option α) (j : Json) (key : String) (default : α) : Option α :=
  match j with
  | object members =>
    match members.lookup key with
    | some v => get v
    | none => some default
  | _ => none

end Json

end ADTimePix3.Stream
