import ADTimePix3.Serval.JsonPath

/-!
# Agreement of JSON documents

When one document has all that another has, path by path, and when it has all but what lies behind one path. Two
numbers agree when they have one value, whatever their types; two arrays when they have one length.
-/

namespace ADTimePix3.Stream.Json

/-- The value at a path. -/
def valueAt : List PathStep → Json → Option Json
  | [], j => some j
  | .key name :: path, object members => (members.lookup name).bind (valueAt path)
  | .index i :: path, array elements => elements[i]?.bind (valueAt path)
  | _ :: _, _ => none

/-- The value of a number. -/
def numeric : Json → Option ℚ
  | number_integer z => some z
  | number_float q => some q
  | _ => none

/-- The two values agree as far as their own node is concerned. -/
def SameNode : Json → Json → Prop
  | null, null => True
  | boolean b, boolean c => b = c
  | string s, string t => s = t
  | array es, array fs => es.length = fs.length
  | object _, object _ => True
  | j, k => ∃ q, j.numeric = some q ∧ k.numeric = some q

/-- Whatever there is in `j`, at paths that `E` does not exclude, `k` has, too. -/
def AgreesOn (E : List PathStep → Prop) (j k : Json) : Prop :=
  ∀ path u, E path → j.valueAt path = some u → ∃ u', k.valueAt path = some u' ∧ SameNode u u'

/-- The second document has all that the first one has. -/
def Agrees (j k : Json) : Prop := AgreesOn (fun _ => True) j k

/-- The second document has all that the first one has, up to the value at a path. -/
def AgreesExcept (field : List PathStep) (j k : Json) : Prop := AgreesOn (fun path => ¬ field <+: path) j k

/-- The value at a path has members, if it is there at all. -/
def ObjectAt (path : List PathStep) (j : Json) : Prop :=
  ∀ u, j.valueAt path = some u → ∃ members, u = object members

/-- The path behind member names. -/
def keyPath (names : List String) : List PathStep := names.map .key

/-- Assignments behind member names, one after the other. -/
def assignAll (fields : List (List String × Json)) (j : Json) : Option Json :=
  fields.foldlM (fun j field => j.assign (keyPath field.1) field.2) j

/-- No field is behind another one. -/
def Apart (fields : List (List String × Json)) : Prop :=
  fields.Pairwise fun f g => ¬f.1 <+: g.1 ∧ ¬g.1 <+: f.1

end ADTimePix3.Stream.Json
