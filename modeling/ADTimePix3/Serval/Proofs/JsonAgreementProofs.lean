import ADTimePix3.Serval.JsonAgreement
import ADTimePix3.Serval.Proofs.JsonPathProofs
import Mathlib.Data.List.Pairwise

/-!
# Agreement of JSON documents: proofs

An assignment behind member names changes what is at its path and, above it, makes objects of what was null or not
there. So a document in which several fields are set agrees with what it was made from if the values above the
fields are objects and the fields are set to what they were (`agreesExcept_assignAll_iff`).
-/

namespace ADTimePix3.Stream.Json

variable {path path' field rest : List PathStep} {names names' : List String} {name : String}
  {j j' k u v w x : Json} {elements : List Json}

/-! ## Values at paths -/

theorem valueAt_nil (j : Json) : j.valueAt [] = some j := by
  cases j <;> rfl

theorem valueAt_key (name : String) (path : List PathStep) (j : Json) :
    j.valueAt (.key name :: path) = (j.member name).bind (valueAt path) := by
  cases j <;> rfl

theorem valueAt_append (path path' : List PathStep) (j : Json) :
    j.valueAt (path ++ path') = (j.valueAt path).bind (valueAt path') := by
  induction path generalizing j with
  | nil => rw [List.nil_append, valueAt_nil, Option.bind_some]
  | cons step path ih =>
    cases step with
    | key name =>
      rw [List.cons_append, valueAt_key, valueAt_key, Option.bind_assoc]
      exact Option.bind_congr fun x _ => ih x
    | index i =>
      cases j with
      | array elements =>
        simp only [List.cons_append, valueAt]
        rw [Option.bind_assoc]
        exact Option.bind_congr fun x _ => ih x
      | null => rfl
      | boolean b => rfl
      | number_integer z => rfl
      | number_float q => rfl
      | string s => rfl
      | object members => rfl

/-- Above a value that is there, behind a member name, there is an object. -/
theorem objectAt_of_valueAt (h : j.valueAt (path ++ .key name :: path') = some u) :
    ∃ members, j.valueAt path = some (object members) := by
  rw [valueAt_append] at h
  obtain ⟨x, hx, hu⟩ := Option.bind_eq_some_iff.mp h
  cases x with
  | object members => exact ⟨members, hx⟩
  | null => cases hu
  | boolean b => cases hu
  | number_integer z => cases hu
  | number_float q => cases hu
  | string s => cases hu
  | array elements => cases hu

/-! ## Agreement -/

theorem SameNode.refl (j : Json) : SameNode j j := by
  cases j with
  | null => trivial
  | boolean b => exact rfl
  | number_integer z => exact ⟨z, rfl, rfl⟩
  | number_float q => exact ⟨q, rfl, rfl⟩
  | string s => exact rfl
  | array elements => exact rfl
  | object members => trivial

theorem sameNode_object {members : List (String × Json)} (h : SameNode u (object members)) :
    ∃ members', u = object members' := by
  cases u with
  | object members' => exact ⟨members', rfl⟩
  | null => obtain ⟨q, hq, -⟩ := h; cases hq
  | boolean b => obtain ⟨q, hq, -⟩ := h; cases hq
  | number_integer z => obtain ⟨q, -, hq⟩ := h; cases hq
  | number_float q => obtain ⟨q, -, hq⟩ := h; cases hq
  | string s => obtain ⟨q, hq, -⟩ := h; cases hq
  | array elements => obtain ⟨q, hq, -⟩ := h; cases hq

theorem Agrees.refl (j : Json) : Agrees j j := fun _ u _ hu => ⟨u, hu, SameNode.refl u⟩

theorem AgreesOn.sameNode {E : List PathStep → Prop} (h : AgreesOn E j k) (hE : E []) : SameNode j k := by
  obtain ⟨u', hu', hsame⟩ := h [] j hE (valueAt_nil j)
  rw [valueAt_nil] at hu'
  exact Option.some.inj hu' ▸ hsame


/-! ## One assignment -/

theorem valueAt_keyPath_cons (name : String) (names : List String) (j : Json) :
    j.valueAt (keyPath (name :: names)) = (j.member name).bind (valueAt (keyPath names)) :=
  valueAt_key name (keyPath names) j

theorem exists_assign_null (names : List String) (v : Json) : ∃ k, assign (keyPath names) null v = some k := by
  induction names with
  | nil => exact ⟨v, rfl⟩
  | cons name names ih =>
    obtain ⟨x, hx⟩ := ih
    exact ⟨object [(name, x)], Option.map_eq_some_iff.mpr ⟨x, hx, rfl⟩⟩

/-- Where the values above it are objects, a value can be assigned. -/
theorem exists_assign (h : ∀ above, above <+: names → above ≠ names → ObjectAt (keyPath above) j) :
    ∃ k, assign (keyPath names) j v = some k := by
  induction names generalizing j with
  | nil => exact ⟨v, rfl⟩
  | cons name names ih =>
    obtain ⟨members, rfl⟩ := h [] List.nil_prefix (List.cons_ne_nil _ _).symm j (valueAt_nil j)
    obtain ⟨x, hx⟩ : ∃ x, assign (keyPath names) ((members.lookup name).getD null) v = some x := by
      cases hlookup : members.lookup name with
      | none => exact exists_assign_null names v
      | some y =>
        refine ih fun above habove hne u hu => ?_
        refine h (name :: above) ((List.prefix_cons_inj name).mpr habove) (by simpa using hne) u ?_
        rw [valueAt_keyPath_cons]
        exact Option.bind_eq_some_iff.mpr ⟨y, hlookup, hu⟩
    exact ⟨object (setMember members name x), Option.map_eq_some_iff.mpr ⟨x, hx, rfl⟩⟩

theorem valueAt_assign_self (h : assign (keyPath names) j v = some k) : k.valueAt (keyPath names) = some v := by
  induction names generalizing j k with
  | nil =>
    obtain rfl := Option.some.inj h
    exact valueAt_nil v
  | cons name names ih =>
    obtain ⟨x, hx, hmember, -⟩ := assign_key h
    rw [valueAt_keyPath_cons, hmember]
    exact ih hx

/-- An assignment leaves alone what is neither above it nor behind it. -/
theorem valueAt_assign_of_apart (h : assign (keyPath names) j v = some k) (hbehind : ¬keyPath names <+: path)
    (habove : ¬path <+: keyPath names) : k.valueAt path = j.valueAt path := by
  induction names generalizing j k path with
  | nil => exact absurd List.nil_prefix hbehind
  | cons name names ih =>
    obtain ⟨x, hx, hmember, hother⟩ := assign_key h
    cases path with
    | nil => exact absurd List.nil_prefix habove
    | cons step path =>
      cases step with
      | index i =>
        -- neither document is an array
        cases j <;> cases k <;> first | rfl | cases h | cases hmember
      | key name' =>
        rw [valueAt_key, valueAt_key]
        by_cases hname : name' = name
        · subst hname
          have hbehind' : ¬keyPath names <+: path := fun hp => hbehind ((List.prefix_cons_inj _).mpr hp)
          have habove' : ¬path <+: keyPath names := fun hp => habove ((List.prefix_cons_inj _).mpr hp)
          rw [hmember, Option.bind_some, ih hx hbehind' habove']
          cases hj : j.member name' with
          | some y => rfl
          | none =>
            cases path with
            | nil => exact absurd List.nil_prefix habove'
            | cons step path => cases step <;> rfl
        · rw [hother name' hname]

/-! ## Several assignments -/

variable {fields : List (List String × Json)} {f g : List String × Json}

theorem keyPath_prefix_iff : keyPath names <+: keyPath names' ↔ names <+: names' :=
  List.prefix_map_iff_of_injective fun _ _ h => PathStep.key.inj h

theorem Apart.eq_of_prefix (h : Apart fields) (hf : f ∈ fields) (hg : g ∈ fields) (hp : f.1 <+: g.1) : f = g := by
  by_contra hne
  have hsymm : Std.Symm fun f g : List String × Json => ¬f.1 <+: g.1 ∧ ¬g.1 <+: f.1 := ⟨fun f g h => h.symm⟩
  exact (List.Pairwise.forall h hf hg hne).1 hp

/-- A field that is apart from another one keeps what is above it as it was, or makes an object of it. -/
theorem ObjectAt.assign (h : ObjectAt (keyPath names') j) (hapart : ¬names <+: names')
    (hassign : assign (keyPath names) j v = some k) : ObjectAt (keyPath names') k := by
  intro u hu
  by_cases hp : keyPath names' <+: keyPath names
  · obtain ⟨rest, hrest⟩ := hp
    have hself := valueAt_assign_self hassign
    cases rest with
    | nil =>
      rw [List.append_nil] at hrest
      exact absurd (keyPath_prefix_iff.mp (hrest ▸ List.prefix_rfl)) hapart
    | cons step rest =>
      obtain ⟨name, rfl⟩ : ∃ name, step = .key name := by
        have hmem : step ∈ keyPath names := hrest ▸ List.mem_append_right _ List.mem_cons_self
        obtain ⟨name, -, hname⟩ := List.mem_map.mp hmem
        exact ⟨name, hname.symm⟩
      rw [← hrest] at hself
      obtain ⟨members, hmembers⟩ := objectAt_of_valueAt hself
      exact ⟨members, Option.some.inj (hu.symm.trans hmembers)⟩
  · rw [valueAt_assign_of_apart hassign (fun hq => hapart (keyPath_prefix_iff.mp hq)) hp] at hu
    exact h u hu

theorem exists_assignAll (hapart : Apart fields)
    (h : ∀ f ∈ fields, ∀ above, above <+: f.1 → above ≠ f.1 → ObjectAt (keyPath above) j) :
    ∃ k, assignAll fields j = some k := by
  induction fields generalizing j with
  | nil => exact ⟨j, rfl⟩
  | cons f fields ih =>
    obtain ⟨hf, hfields⟩ := List.pairwise_cons.mp hapart
    obtain ⟨j₁, hj₁⟩ := exists_assign (v := f.2) (h f List.mem_cons_self)
    have habove : ∀ g ∈ fields, ∀ above, above <+: g.1 → above ≠ g.1 → ObjectAt (keyPath above) j₁ := by
      intro g hg above hp hne
      refine (h g (List.mem_cons_of_mem _ hg) above hp hne).assign (fun hq => (hf g hg).1 (hq.trans hp)) hj₁
    obtain ⟨k, hk⟩ := ih hfields habove
    exact ⟨k, Option.bind_eq_some_iff.mpr ⟨j₁, hj₁, hk⟩⟩

theorem valueAt_assignAll_of_apart (h : assignAll fields j = some k)
    (hapart : ∀ f ∈ fields, ¬keyPath f.1 <+: path ∧ ¬path <+: keyPath f.1) : k.valueAt path = j.valueAt path := by
  induction fields generalizing j with
  | nil =>
    obtain rfl := Option.some.inj h
    rfl
  | cons f fields ih =>
    obtain ⟨j₁, hj₁, hk⟩ := Option.bind_eq_some_iff.mp h
    obtain ⟨hbehind, habove⟩ := hapart f List.mem_cons_self
    rw [ih hk fun g hg => hapart g (List.mem_cons_of_mem _ hg), valueAt_assign_of_apart hj₁ hbehind habove]

theorem valueAt_assignAll_self (hapart : Apart fields) (h : assignAll fields j = some k) (hf : f ∈ fields) :
    k.valueAt (keyPath f.1) = some f.2 := by
  induction fields generalizing j with
  | nil => cases hf
  | cons g fields ih =>
    obtain ⟨hg, hfields⟩ := List.pairwise_cons.mp hapart
    obtain ⟨j₁, hj₁, hk⟩ := Option.bind_eq_some_iff.mp h
    rcases List.mem_cons.mp hf with rfl | hf
    · have hothers : ∀ g ∈ fields, ¬keyPath g.1 <+: keyPath f.1 ∧ ¬keyPath f.1 <+: keyPath g.1 := fun g' hg' =>
        ⟨fun hp => (hg g' hg').2 (keyPath_prefix_iff.mp hp), fun hp => (hg g' hg').1 (keyPath_prefix_iff.mp hp)⟩
      rw [valueAt_assignAll_of_apart hk hothers]
      exact valueAt_assign_self hj₁
    · exact ih hfields hk hf

/-- What is above a field is an object when all are set. -/
theorem object_above_of_assignAll {above : List String} (hapart : Apart fields) (h : assignAll fields j = some k)
    (hf : f ∈ fields) (hp : above <+: f.1) (hne : above ≠ f.1) :
    ∃ members, k.valueAt (keyPath above) = some (object members) := by
  have hself := valueAt_assignAll_self hapart h hf
  obtain ⟨rest, hrest⟩ := hp
  cases rest with
  | nil => exact absurd (List.append_nil above ▸ hrest) hne
  | cons name rest =>
    rw [← hrest, keyPath, List.map_append, List.map_cons] at hself
    exact objectAt_of_valueAt hself

/-- What is behind a field is what its value has. -/
theorem valueAt_behind_of_assignAll (hapart : Apart fields) (h : assignAll fields j = some k) (hf : f ∈ fields)
    (path : List PathStep) : k.valueAt (keyPath f.1 ++ path) = f.2.valueAt path := by
  rw [valueAt_append, valueAt_assignAll_self hapart h hf, Option.bind_some]

/-- A document in which fields are set agrees with what it was made from, up to one of the fields, when the values
above the fields are objects and each other field that is there is set to what it was. -/
theorem agreesExcept_assignAll_iff (hapart : Apart fields) (hg : g ∈ fields) :
    (∃ k, assignAll fields j = some k ∧ AgreesExcept (keyPath g.1) j k) ↔
      (∀ f ∈ fields, ∀ above, above <+: f.1 → above ≠ f.1 → ObjectAt (keyPath above) j) ∧
        ∀ f ∈ fields, f.1 ≠ g.1 → ∀ u, j.valueAt (keyPath f.1) = some u → Agrees u f.2 := by
  constructor
  · rintro ⟨k, hk, hagrees⟩
    constructor
    · intro f hf above hp hne u hu
      have hchanged : ¬keyPath g.1 <+: keyPath above := fun hq => by
        obtain rfl := hapart.eq_of_prefix hg hf ((keyPath_prefix_iff.mp hq).trans hp)
        exact hne (List.IsPrefix.eq_of_length_le hp (keyPath_prefix_iff.mp hq).length_le)
      obtain ⟨members, hmembers⟩ := object_above_of_assignAll hapart hk hf hp hne
      obtain ⟨u', hu', hsame⟩ := hagrees _ u hchanged hu
      obtain rfl := Option.some.inj (hmembers.symm.trans hu')
      exact sameNode_object hsame
    · intro f hf hne u hu path x _ hx
      have hchanged : ¬keyPath g.1 <+: keyPath f.1 ++ path := fun hq => by
        rcases List.prefix_or_prefix_of_prefix hq (List.prefix_append (keyPath f.1) path) with hp | hp
        · exact hne (congrArg Prod.fst (hapart.eq_of_prefix hg hf (keyPath_prefix_iff.mp hp)).symm)
        · exact hne (congrArg Prod.fst (hapart.eq_of_prefix hf hg (keyPath_prefix_iff.mp hp)))
      have hvalue : j.valueAt (keyPath f.1 ++ path) = some x := by
        rw [valueAt_append, hu, Option.bind_some, hx]
      obtain ⟨x', hx', hsame⟩ := hagrees _ x hchanged hvalue
      rw [valueAt_behind_of_assignAll hapart hk hf] at hx'
      exact ⟨x', hx', hsame⟩
  · rintro ⟨habove, hkept⟩
    obtain ⟨k, hk⟩ := exists_assignAll hapart habove
    refine ⟨k, hk, fun path u hchanged hu => ?_⟩
    by_cases hbehind : ∃ f ∈ fields, keyPath f.1 <+: path
    · obtain ⟨f, hf, rest, rfl⟩ := hbehind
      have hne : f.1 ≠ g.1 := fun heq => hchanged (heq ▸ List.prefix_append _ _)
      rw [valueAt_append] at hu
      obtain ⟨x, hx, hu⟩ := Option.bind_eq_some_iff.mp hu
      rw [valueAt_behind_of_assignAll hapart hk hf]
      exact hkept f hf hne x hx rest u trivial hu
    · by_cases hover : ∃ f ∈ fields, path <+: keyPath f.1
      · obtain ⟨f, hf, hp⟩ := hover
        obtain ⟨above, hprefix, rfl⟩ := List.prefix_map_iff.mp hp
        have hne : above ≠ f.1 := fun heq => hbehind ⟨f, hf, heq ▸ List.prefix_rfl⟩
        obtain ⟨members, hmembers⟩ := object_above_of_assignAll hapart hk hf hprefix hne
        obtain ⟨members', rfl⟩ := habove f hf above hprefix hne u hu
        exact ⟨object members, hmembers, trivial⟩
      · refine ⟨u, ?_, SameNode.refl u⟩
        rw [valueAt_assignAll_of_apart hk fun f hf =>
          ⟨fun hp => hbehind ⟨f, hf, hp⟩, fun hp => hover ⟨f, hf, hp⟩⟩, hu]


/-! ## Values without members -/

theorem valueAt_of_numeric {q : ℚ} (hj : j.numeric = some q) (hu : j.valueAt path = some u) : path = [] := by
  cases path with
  | nil => rfl
  | cons step path => cases j <;> cases step <;> first | cases hu | cases hj

theorem agrees_number_iff {q : ℚ} (hk : k.numeric = some q) : Agrees j k ↔ j.numeric = some q := by
  constructor
  · intro h
    have hsame : SameNode j k := h.sameNode trivial
    cases k with
    | number_integer z => cases j <;> first | exact absurd hsame id | (obtain ⟨p, hp, hq⟩ := hsame; rwa [hp, ← hq])
    | number_float r => cases j <;> first | exact absurd hsame id | (obtain ⟨p, hp, hq⟩ := hsame; rwa [hp, ← hq])
    | _ => cases hk
  · intro hj path u _ hu
    obtain rfl := valueAt_of_numeric hj hu
    obtain rfl := Option.some.inj ((valueAt_nil j).symm.trans hu)
    refine ⟨k, valueAt_nil k, ?_⟩
    cases j <;> first | exact ⟨q, hj, hk⟩ | cases hj

theorem sameNode_array (h : SameNode u (array elements)) : ∃ elements', u = array elements' := by
  cases u with
  | array elements' => exact ⟨elements', rfl⟩
  | _ => obtain ⟨q, -, hq⟩ := h; cases hq

theorem eq_of_sameNode_string {s : String} (h : SameNode u (string s)) : u = string s := by
  cases u with
  | string t => exact congrArg string h
  | _ => obtain ⟨q, -, hq⟩ := h; cases hq

/-- An array of strings agrees with none but itself. -/
theorem agrees_strings_iff {texts : List String} :
    Agrees j (array (texts.map string)) ↔ j = array (texts.map string) := by
  constructor
  · intro h
    obtain ⟨elements, rfl⟩ := sameNode_array (h.sameNode trivial)
    have hlength : elements.length = (texts.map string).length := h.sameNode trivial
    refine congrArg array (List.ext_getElem hlength fun i hi hi' => ?_)
    have hvalue : valueAt [.index i] (array elements) = some elements[i] := by
      show elements[i]?.bind (valueAt []) = _
      rw [List.getElem?_eq_getElem hi, Option.bind_some, valueAt_nil]
    obtain ⟨u, hu, hsame⟩ := h [.index i] _ trivial hvalue
    change ((texts.map string)[i]?).bind (valueAt []) = some u at hu
    rw [List.getElem?_eq_getElem hi', Option.bind_some, valueAt_nil] at hu
    obtain rfl := Option.some.inj hu
    rw [List.getElem_map] at hsame ⊢
    exact eq_of_sameNode_string hsame
  · rintro rfl
    exact Agrees.refl _

end ADTimePix3.Stream.Json
