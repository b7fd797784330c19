import ADTimePix3.Stream.Json

/-!
# Paths into JSON values

`j[k₁][k₂]… = v` of `nlohmann::json`: `null` becomes an object or an array as it is indexed, and an array is
filled up with `null` to an index behind its end. Indexing any other value throws (`none`).
-/

namespace ADTimePix3.Stream.Json

inductive PathStep where
  | key (name : String)
  | index (i : ℕ)

/-- The members with one of them set. -/
def setMember (members : List (String × Json)) (name : String) (v : Json) : List (String × Json) :=
  (name, v) :: members.filter fun m => m.1 != name

def fillTo (elements : List Json) (n : ℕ) : List Json :=
  elements ++ List.replicate (n - elements.length) null

/-- `j[k₁][k₂]… = v`. -/
def assign : List PathStep → Json → Json → Option Json
  | [], _, v => some v
  | .key name :: path, null, v => (assign path null v).map fun x => object [(name, x)]
  | .key name :: path, object members, v =>
    (assign path ((members.lookup name).getD null) v).map fun x => object (setMember members name x)
  | .index i :: path, null, v => (assign path null v).map fun x => array ((fillTo [] (i + 1)).set i x)
  | .index i :: path, array elements, v =>
    (assign path (elements.getD i null) v).map fun x => array ((fillTo elements (i + 1)).set i x)
  | _, _, _ => none

/-- Several fields of the value at a path, one after the other. -/
def assignFields (path : List PathStep) (fields : List (String × Json)) (j : Json) : Option Json :=
  fields.foldlM (fun j field => j.assign (path ++ [.key field.1]) field.2) j

/-- The value behind a chain of member names. -/
def follow : List String → Json → Option Json
  | [], j => some j
  | name :: names, j => (j.member name).bind (follow names)

/-- The elements of the array behind a chain of member names; none when there is no array. -/
def entries (names : List String) (j : Json) : List Json :=
  match j.follow names with
  | some (array elements) => elements
  | _ => []

def isNull : Json → Bool
  | null => true
  | _ => false

/-- Which elements of the array are there. -/
def filled (names : List String) (j : Json) : List Bool := (j.entries names).map fun e => !e.isNull

end ADTimePix3.Stream.Json
