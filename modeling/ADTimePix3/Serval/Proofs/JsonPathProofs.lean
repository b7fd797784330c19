import ADTimePix3.Serval.JsonPath

/-!
# Proofs: paths into JSON values

What an assignment does to the arrays of a document: the entry at its index is there afterwards, and the arrays
behind other member names are as before (`Configured`).
-/

namespace ADTimePix3.Stream.Json

variable {path : List PathStep} {name name' : String} {names names' : List String} {v x j j' : Json} {i : ℕ}
  {members : List (String × Json)}

/-! ## Members -/

theorem lookup_setMember_self : (setMember members name v).lookup name = some v := by
  simp [setMember]

theorem lookup_setMember_ne (h : name' ≠ name) : (setMember members name v).lookup name' = members.lookup name' := by
  have hbeq : (name' == name) = false := beq_false_of_ne h
  rw [setMember, List.lookup_cons, hbeq]
  show List.lookup name' (members.filter fun m => m.1 != name) = _
  induction members with
  | nil => rfl
  | cons m members ih =>
    obtain ⟨key, value⟩ := m
    by_cases hkey : key = name
    · subst hkey
      rw [List.filter_cons_of_neg (by simp), ih, List.lookup_cons, hbeq]
    · rw [List.filter_cons_of_pos (by simpa using hkey), List.lookup_cons, List.lookup_cons, ih]

/-- An assignment below a member sets that member and no other. -/
theorem assign_key (h : assign (.key name :: path) j v = some j') :
    ∃ x, assign path ((j.member name).getD null) v = some x ∧ j'.member name = some x ∧
      ∀ name' ≠ name, j'.member name' = j.member name' := by
  cases j with
  | null =>
    obtain ⟨x, hx, rfl⟩ := Option.map_eq_some_iff.mp h
    refine ⟨x, hx, by simp [member], fun name' hne => ?_⟩
    have hbeq : (name' == name) = false := beq_false_of_ne hne
    simp [member, List.lookup_cons, hbeq]
  | object members =>
    obtain ⟨x, hx, rfl⟩ := Option.map_eq_some_iff.mp h
    exact ⟨x, hx, lookup_setMember_self, fun name' hne => lookup_setMember_ne hne⟩
  | boolean b => cases h
  | number_integer z => cases h
  | number_float q => cases h
  | string s => cases h
  | array elements => cases h

theorem not_isNull_of_assign_key (h : assign (.key name :: path) j v = some j') : j'.isNull = false := by
  obtain ⟨x, -, hmember, -⟩ := assign_key h
  cases j' with
  | null => cases hmember
  | _ => rfl

theorem contains_assign (h : assign (.key name :: path) j v = some j') (name' : String) :
    j'.contains name' = (j.contains name' || name == name') := by
  obtain ⟨x, -, hmember, hother⟩ := assign_key h
  unfold contains
  by_cases hname : name' = name
  · subst hname
    simp [hmember]
  · have hbeq : (name == name') = false := beq_false_of_ne (Ne.symm hname)
    rw [hother name' hname, hbeq, Bool.or_false]

/-! ## Arrays -/

theorem follow_null : entries names null = [] := by
  cases names <;> rfl

theorem entries_cons (name : String) (names : List String) (j : Json) :
    entries (name :: names) j = entries names ((j.member name).getD null) := by
  unfold entries
  rw [follow]
  cases j.member name with
  | none =>
    show [] = entries names null
    rw [follow_null]
  | some x => rfl

theorem filled_cons (name : String) (names : List String) (j : Json) :
    filled (name :: names) j = filled names ((j.member name).getD null) := by
  rw [filled, entries_cons, filled]

/-- The array with the entry at `i` there. -/
def fillAt (i : ℕ) (entries : List Bool) : List Bool :=
  (entries ++ List.replicate (i + 1 - entries.length) false).set i true

theorem map_fillTo (elements : List Json) (i : ℕ) (hx : x.isNull = false) :
    ((fillTo elements (i + 1)).set i x).map (fun e => !e.isNull) =
      fillAt i (elements.map fun e => !e.isNull) := by
  rw [List.map_set, hx, fillTo, List.map_append, List.map_replicate, fillAt, List.length_map]
  rfl

theorem fillAt_fillAt (i : ℕ) (entries : List Bool) : fillAt i (fillAt i entries) = fillAt i entries := by
  have hlength : i + 1 - (fillAt i entries).length = 0 := by
    simp [fillAt]
    omega
  conv_lhs => rw [fillAt, hlength]
  simp [fillAt]

/-- An assignment below an array's entry makes it an object. -/
theorem filled_assign
    (h : assign (names.map .key ++ .index i :: .key name :: path) j v = some j') :
    filled names j' = fillAt i (filled names j) := by
  induction names generalizing j j' with
  | nil =>
    cases j with
    | null =>
      obtain ⟨x, hx, rfl⟩ := Option.map_eq_some_iff.mp h
      exact map_fillTo [] i (not_isNull_of_assign_key hx)
    | array elements =>
      obtain ⟨x, hx, rfl⟩ := Option.map_eq_some_iff.mp h
      exact map_fillTo elements i (not_isNull_of_assign_key hx)
    | boolean b => cases h
    | number_integer z => cases h
    | number_float q => cases h
    | string s => cases h
    | object members => cases h
  | cons name' names ih =>
    obtain ⟨x, hx, hmember, -⟩ := assign_key h
    rw [filled_cons, filled_cons, hmember, Option.getD_some]
    exact ih hx

/-- The path leads elsewhere than the names. -/
def diverges : List PathStep → List String → Bool
  | .key name :: path, name' :: names => name != name' || diverges path names
  | _, _ => false

theorem diverges_append (h : diverges path names = true) (path' : List PathStep) :
    diverges (path ++ path') names = true := by
  induction path generalizing names with
  | nil => cases h
  | cons step path ih =>
    cases step with
    | index i => cases h
    | key name =>
      cases names with
      | nil => cases h
      | cons name' names =>
        rw [diverges, Bool.or_eq_true] at h
        rw [List.cons_append, diverges, Bool.or_eq_true]
        exact h.imp_right ih

theorem filled_assign_of_diverges (hpath : diverges path names = true) (h : assign path j v = some j') :
    filled names j' = filled names j := by
  induction path generalizing names j j' with
  | nil => cases hpath
  | cons step path ih =>
    cases step with
    | index i => cases hpath
    | key name =>
      cases names with
      | nil => cases hpath
      | cons name' names =>
        obtain ⟨x, hx, hmember, hother⟩ := assign_key h
        rw [filled_cons, filled_cons]
        by_cases hname : name' = name
        · subst hname
          rw [hmember, Option.getD_some]
          rw [diverges, bne_self_eq_false, Bool.false_or] at hpath
          exact ih hpath hx
        · rw [hother name' hname]

/-! ## Fields -/

/-- What it does to a document to give the entry `i` of an array fields, if it is enabled. -/
structure Configured (names : List String) (i : ℕ) (enabled : Bool) (j j' : Json) : Prop where
  filled : j'.filled names = if enabled then fillAt i (j.filled names) else j.filled names
  others : ∀ names', diverges (names.map .key) names' = true → j'.filled names' = j.filled names'
  contains : ∀ name', j'.contains name' = (j.contains name' || (enabled && names.head? == some name'))

theorem configured_disabled (names : List String) (i : ℕ) (j : Json) : Configured names i false j j where
  filled := rfl
  others _ _ := rfl
  contains _ := by simp

theorem configured_assign (h : assign ((name :: names).map .key ++ [.index i, .key name']) j v = some j') :
    Configured (name :: names) i true j j' where
  filled := filled_assign h
  others names' hdiverges := filled_assign_of_diverges (diverges_append hdiverges _) h
  contains name' := by
    rw [contains_assign h name']
    simp

theorem Configured.trans {j₁ j₂ j₃ : Json} (h₁ : Configured names i true j₁ j₂)
    (h₂ : Configured names i true j₂ j₃) : Configured names i true j₁ j₃ where
  filled := by
    have hfilled₁ := h₁.filled
    have hfilled₂ := h₂.filled
    rw [if_pos rfl] at hfilled₁ hfilled₂ ⊢
    rw [hfilled₂, hfilled₁, fillAt_fillAt]
  others names' hdiverges := (h₂.others names' hdiverges).trans (h₁.others names' hdiverges)
  contains name' := by
    rw [h₂.contains, h₁.contains, Bool.or_assoc, Bool.or_self]

theorem configured_assignFields {fields : List (String × Json)} (hne : fields ≠ [])
    (h : assignFields ((name :: names).map .key ++ [.index i]) fields j = some j') :
    Configured (name :: names) i true j j' := by
  induction fields generalizing j with
  | nil => exact absurd rfl hne
  | cons field fields ih =>
    obtain ⟨j₁, hfirst, hrest⟩ := Option.bind_eq_some_iff.mp h
    change assign ((name :: names).map .key ++ [.index i] ++ [.key field.1]) j field.2 = some j₁ at hfirst
    rw [List.append_assoc] at hfirst
    have hconfigured := configured_assign hfirst
    cases fields with
    | nil =>
      obtain rfl := Option.some.inj hrest
      exact hconfigured
    | cons field' fields => exact hconfigured.trans (ih (List.cons_ne_nil _ _) hrest)

end ADTimePix3.Stream.Json
