import ADTimePix3.Serval.MeasurementConfig
import ADTimePix3.Serval.Proofs.JsonAgreementProofs
import ADTimePix3.Serval.Proofs.RepliesProofs

/-!
# Proofs: the configuration of a measurement

The document that is sent is the one that was read with eight fields set (`merge_eq_assignAll`). The two agree if
each field comes back from the parameter that it was read into (`agrees_integer_iff`, `agrees_double_iff`,
`agrees_references_iff`); and besides Stem and the time of flight, the document that is sent has what the answer to
the GET had, which is nothing if that failed (`valueAt_of_sent`).
-/

namespace ADTimePix3.Serval.MeasurementConfig

open Replies (AsynStatus MeasurementParams isObject settable)
open Acquire (Response)
open Img (toInt32)
open MachineInt (Fits)
open Texts (utf8 decode cStr)
open ADTimePix3.Stream (Json)
open ADTimePix3.Stream.Json (PathStep keyPath ObjectAt Agrees AgreesExcept Apart assignAll valueAt_nil
  valueAt_keyPath_cons)

variable {D E u v : Json} {p old : Params} {change : Change} {text : String} {get put : Response}
  {names : List String} {value : List UInt8}

/-! ## Reading -/

theorem member_of_not_isObject {key : String} (h : isObject v = false) : v.member key = none := by
  cases v with
  | object members => cases h
  | _ => rfl

/-- The test for an object is not needed when nothing else has anything to read. -/
theorem whenObject_eq {key : String} {read : Json → Params → Params} (h : ∀ v, isObject v = false → read v p = p) :
    whenObject key D read p = read ((D.member key).getD .null) p := by
  unfold whenObject
  cases D.member key with
  | none => exact (h .null rfl).symm
  | some v =>
    show (if isObject v then read v p else p) = read v p
    cases hv : isObject v with
    | true => rfl
    | false => exact (h v hv).symm

theorem readScan_of_not_isObject (h : isObject v = false) : readScan v p = p := by
  simp only [readScan, member_of_not_isObject h, setInteger, setDouble]

theorem readVirtualDetector_of_not_isObject (h : isObject v = false) : readVirtualDetector v p = p := by
  simp only [readVirtualDetector, member_of_not_isObject h, setInteger]

theorem readStem_eq (Stem : Json) (p : Params) : readStem Stem p =
    readVirtualDetector ((Stem.member "VirtualDetector").getD .null)
      (readScan ((Stem.member "Scan").getD .null) p) := by
  rw [readStem, whenObject_eq fun v => readVirtualDetector_of_not_isObject,
    whenObject_eq fun v => readScan_of_not_isObject]

theorem readStem_of_not_isObject (h : isObject v = false) : readStem v p = p := by
  rw [readStem_eq, member_of_not_isObject h, member_of_not_isObject h]
  rfl

theorem readTimeOfFlight_of_not_isObject (h : isObject v = false) : readTimeOfFlight v p = p := by
  simp only [readTimeOfFlight, member_of_not_isObject h, setReference, setDouble]

theorem valueAt_pair (a b : String) (D : Json) :
    D.valueAt (keyPath [a, b]) = ((D.member a).getD .null).member b := by
  rw [valueAt_keyPath_cons]
  cases D.member a with
  | none => rfl
  | some v =>
    rw [Option.bind_some, valueAt_keyPath_cons]
    show (v.member b).bind (Json.valueAt []) = v.member b
    cases v.member b with
    | none => rfl
    | some w => exact valueAt_nil w

theorem valueAt_triple (a b c : String) (D : Json) :
    D.valueAt (keyPath [a, b, c]) = ((((D.member a).getD .null).member b).getD .null).member c := by
  rw [valueAt_keyPath_cons]
  cases D.member a with
  | none => rfl
  | some v => exact valueAt_pair b c v

/-- Every parameter is read from its own field, if that is there with the right type. -/
theorem getMeasurementConfig_answer (text : String) (D : Json) (old : Params) :
    (getMeasurementConfig (answer text D) old).2 =
      { stemScanWidth := setInteger (D.valueAt (keyPath ["Stem", "Scan", "Width"])) old.stemScanWidth
        stemScanHeight := setInteger (D.valueAt (keyPath ["Stem", "Scan", "Height"])) old.stemScanHeight
        stemDwellTime := setDouble (D.valueAt (keyPath ["Stem", "Scan", "DwellTime"])) old.stemDwellTime
        stemRadiusOuter :=
          setInteger (D.valueAt (keyPath ["Stem", "VirtualDetector", "RadiusOuter"])) old.stemRadiusOuter
        stemRadiusInner :=
          setInteger (D.valueAt (keyPath ["Stem", "VirtualDetector", "RadiusInner"])) old.stemRadiusInner
        tofTdcReference :=
          setReference (D.valueAt (keyPath ["TimeOfFlight", "TdcReference"])) old.tofTdcReference
        tofMin := setDouble (D.valueAt (keyPath ["TimeOfFlight", "Min"])) old.tofMin
        tofMax := setDouble (D.valueAt (keyPath ["TimeOfFlight", "Max"])) old.tofMax } := by
  show whenObject "TimeOfFlight" D readTimeOfFlight (whenObject "Stem" D readStem old) = _
  rw [whenObject_eq fun v => readTimeOfFlight_of_not_isObject, whenObject_eq fun v => readStem_of_not_isObject,
    readStem_eq]
  simp only [valueAt_triple, valueAt_pair]
  rfl

/-! ## Sending -/

/-- The fields that are set, in their order. -/
def Params.fields (p : Params) : List (List String × Json) :=
  [(["Stem", "Scan", "Width"], .number_integer p.stemScanWidth),
    (["Stem", "Scan", "Height"], .number_integer p.stemScanHeight),
    (["Stem", "Scan", "DwellTime"], .number_float p.stemDwellTime),
    (["Stem", "VirtualDetector", "RadiusOuter"], .number_integer p.stemRadiusOuter),
    (["Stem", "VirtualDetector", "RadiusInner"], .number_integer p.stemRadiusInner),
    (["TimeOfFlight", "TdcReference"], p.toSend.refArr), (["TimeOfFlight", "Min"], .number_float p.tofMin),
    (["TimeOfFlight", "Max"], .number_float p.tofMax)]

theorem merge_eq_assignAll (p : Params) (D : Json) : p.toSend.merge D = assignAll p.fields D := by
  unfold MeasurementParams.merge assignAll MeasurementParams.groups Params.fields Json.assignFields
  simp only [List.foldlM_cons, List.foldlM_nil, bind_assoc, bind_pure]
  rfl

theorem apart_fields (p : Params) : Apart p.fields := by
  simp [Apart, Params.fields, List.cons_prefix_cons]

theorem sent_eq_some_iff : sent get p = some E ↔
    Sendable p.tofTdcReference ∧ assignAll p.fields (source get) = some E := by
  unfold sent Sendable
  rw [merge_eq_assignAll, Option.bind_eq_some_iff]
  show (∃ j, _ ∧ (decode (getStringParam 256 p.tofTdcReference)).map _ = some E) ↔ _
  cases decode (getStringParam 256 p.tofTdcReference) with
  | none => simp
  | some s => simp

theorem isSome_sent_iff : (sent get p).isSome ↔ Sendable p.tofTdcReference ∧
    settable ["Stem", "Scan"] (source get) ∧ settable ["Stem", "VirtualDetector"] (source get) ∧
      settable ["TimeOfFlight"] (source get) := by
  have hmerge := Replies.isSome_merge_groups (p := p.toSend) (j := source get)
  rw [merge_eq_assignAll] at hmerge
  simp only [Option.isSome_iff_exists, sent_eq_some_iff, exists_and_left]
  rw [← Option.isSome_iff_exists, hmerge]
  simp only [Bool.and_eq_true, and_assoc]

/-- A document is sent when the function, with its answers, returns. -/
theorem isSome_sent_iff_returns {s : Replies.Driver} :
    (sent get p).isSome ↔ Faults.Returns (Replies.sendMeasurementConfig p.toSend get put) s := by
  rw [isSome_sent_iff, Replies.sendMeasurementConfig_returns_iff]
  refine and_congr_right fun _ => ?_
  unfold source
  split
  · rename_i h200
    cases get.json with
    | none => simp [settable, Replies.indexable, Json.member]
    | some config_j => simp [h200]
  · rename_i h200
    simp [h200, settable, Replies.indexable, Json.member]

/-! ## What comes back -/

theorem toInt32_eq_self_iff {z : ℤ} : toInt32 z = z ↔ Fits z := by
  unfold toInt32 Fits
  omega

theorem agrees_integer_iff {i : ℤ} : Agrees v (.number_integer (setInteger (some v) i)) ↔ KeptInteger i v := by
  rw [Json.agrees_number_iff (q := (setInteger (some v) i : ℚ)) rfl]
  cases v with
  | number_integer z =>
    show some (z : ℚ) = some (toInt32 z : ℚ) ↔ Fits z
    rw [Option.some_inj, Rat.intCast_inj, eq_comm, toInt32_eq_self_iff]
  | number_float q => exact Option.some_inj
  | _ => simp [Json.numeric, KeptInteger]

theorem agrees_double_iff {q : ℚ} : Agrees v (.number_float (setDouble (some v) q)) ↔ KeptDouble v := by
  rw [Json.agrees_number_iff (q := setDouble (some v) q) rfl]
  cases v with
  | number_integer z =>
    show some (z : ℚ) = some (Doubles.ofInt z : ℚ) ↔ Doubles.Exact z
    rw [Option.some_inj, Rat.intCast_inj, eq_comm, Doubles.ofInt_eq_self_iff]
  | number_float q => simp [Json.numeric, setDouble, KeptDouble]
  | _ => simp [Json.numeric, KeptDouble]

/-- The references, or what stands for none. -/
def references (s : String) : List String := if Texts.parts s = [] then ["PN0123"] else Texts.parts s

theorem refArr_eq (p : Params) : p.toSend.refArr =
    .array ((references ((decode (getStringParam 256 p.tofTdcReference)).getD "")).map .string) := by
  show Json.array
    (if (Texts.parts ((decode (getStringParam 256 p.tofTdcReference)).getD "")).map Json.string = [] then _
    else (Texts.parts ((decode (getStringParam 256 p.tofTdcReference)).getD "")).map Json.string) = _
  unfold references
  cases Texts.parts ((decode (getStringParam 256 p.tofTdcReference)).getD "") with
  | nil => rfl
  | cons ref refs => rfl

/-- The parts of a short text without NUL come back. -/
theorem keptReferences_references {s : String} (hzero : (0 : UInt8) ∉ utf8 s) (hlength : (utf8 s).length ≤ 255) :
    KeptReferences (references s) := by
  unfold references
  split
  · refine ⟨List.cons_ne_nil _ _, ?_, ?_⟩
    · decide
    · decide
  · rename_i hne
    refine ⟨hne, fun ref href => ?_, ?_⟩
    · obtain ⟨hempty, hchars⟩ := Texts.mem_parts href
      refine ⟨hempty, fun hcomma => (hchars ',' hcomma).1 rfl, fun hnul => ?_⟩
      exact hzero (Texts.zero_mem_encode.mpr (hchars _ hnul).2)
    · exact (Texts.size_parts_le s).trans (by omega)

theorem getStringParam_zero_not_mem (value : List UInt8) : (0 : UInt8) ∉ getStringParam 256 value := fun h =>
  Texts.zero_not_mem_cStr value (List.mem_of_mem_take h)

theorem joinRefs_strings (refs : List String) :
    joinRefs (refs.map .string) = utf8 (String.ofList ([','].intercalate (refs.map String.toList))) := by
  unfold joinRefs utf8
  rw [String.toList_ofList, Texts.encode_intercalate, List.map_map, List.map_map]
  rfl

/-- References that come back go to the parameter as they are, and their text is what is sent. -/
theorem decode_joinRefs {refs : List String} (h : KeptReferences refs) :
    decode (getStringParam 256 (cStr (joinRefs (refs.map .string)))) =
      some (String.ofList ([','].intercalate (refs.map String.toList))) := by
  obtain ⟨hne, hrefs, hsize⟩ := h
  have hne' : refs.map String.toList ≠ [] := by simpa using hne
  have hlength : (joinRefs (refs.map .string)).length ≤ 255 := by
    have hencode := Texts.length_encode_intercalate hne'
    rw [List.map_map] at hencode
    rw [joinRefs_strings, utf8, String.toList_ofList]
    change (refs.map fun ref => (Texts.encode ref.toList).length + 1).sum ≤ 256 at hsize
    change _ = (refs.map fun ref => (Texts.encode ref.toList).length + 1).sum at hencode
    omega
  have hzero : (0 : UInt8) ∉ joinRefs (refs.map .string) := by
    rw [joinRefs_strings, utf8, String.toList_ofList, Texts.zero_mem_encode]
    intro hnul
    rcases Texts.mem_intercalate hnul with hnul | ⟨text, htext, hnul⟩
    · exact absurd hnul (by decide)
    · obtain ⟨ref, href, rfl⟩ := List.mem_map.mp htext
      exact (hrefs ref href).2.2 hnul
  rw [getStringParam, Texts.cStr_eq_self hzero, Texts.cStr_eq_self hzero, List.take_of_length_le hlength,
    joinRefs_strings, Texts.decode_utf8]

theorem references_intercalate {refs : List String} (h : KeptReferences refs) :
    references (String.ofList ([','].intercalate (refs.map String.toList))) = refs := by
  have hparts := Texts.parts_intercalate h.1 fun ref href => ⟨(h.2.1 ref href).1, (h.2.1 ref href).2.1⟩
  rw [references, hparts, if_neg h.1]

/-- The array that is sent is the one that was read when its references come back. -/
theorem agrees_references_iff (hread : p.tofTdcReference = setReference (some v) value) :
    Agrees v p.toSend.refArr ↔ ∃ refs : List String, v = .array (refs.map .string) ∧ KeptReferences refs := by
  rw [refArr_eq, Json.agrees_strings_iff]
  constructor
  · intro hv
    refine ⟨_, hv, keptReferences_references ?_ ?_⟩
    · cases hdecode : decode (getStringParam 256 p.tofTdcReference) with
      | none => exact List.not_mem_nil
      | some s =>
        rw [Option.getD_some, ← Texts.decode_eq_some_iff.mp hdecode]
        exact getStringParam_zero_not_mem _
    · cases hdecode : decode (getStringParam 256 p.tofTdcReference) with
      | none => exact Nat.zero_le _
      | some s =>
        rw [Option.getD_some, ← Texts.decode_eq_some_iff.mp hdecode]
        exact List.length_take_le 255 _
  · rintro ⟨refs, rfl, hkept⟩
    have hreference : p.tofTdcReference = cStr (joinRefs (refs.map .string)) := hread
    rw [hreference, decode_joinRefs hkept, Option.getD_some, references_intercalate hkept]

/-! ## Preservation -/

theorem mem_fields_iff {f : List String × Json} : f ∈ p.fields ↔
    (∃ g ∈ p.integers, f = (g.1, .number_integer g.2)) ∨ (∃ g ∈ p.doubles, f = (g.1, .number_float g.2)) ∨
      f = (["TimeOfFlight", "TdcReference"], p.toSend.refArr) := by
  simp only [Params.fields, Params.integers, Params.doubles, List.mem_cons, List.not_mem_nil, or_false,
    exists_eq_or_imp, exists_eq_left]
  tauto

theorem change_mem_fields (p : Params) (change : Change) : ∃ g ∈ p.fields, g.1 = change.field := by
  cases change <;> simp [Params.fields, Change.field]

theorem prefix_dropLast {above : List String} (hp : above <+: names) (hne : above ≠ names) :
    above <+: names.dropLast := by
  rcases List.eq_nil_or_concat names with rfl | ⟨names, name, rfl⟩
  · exact absurd (List.prefix_nil.mp hp) hne
  · rw [List.concat_eq_append] at hp hne ⊢
    rw [List.dropLast_concat]
    exact (List.prefix_concat_iff.mp hp).resolve_left hne

theorem dropLast_of_mem_fields {f : List String × Json} (hf : f ∈ p.fields) :
    f.1.dropLast ∈ [["Stem", "Scan"], ["Stem", "VirtualDetector"], ["TimeOfFlight"]] := by
  revert f
  simp [Params.fields]

/-- What is above a field. -/
theorem objects_above_iff (p : Params) (D : Json) :
    (∀ f ∈ p.fields, ∀ above, above <+: f.1 → above ≠ f.1 → ObjectAt (keyPath above) D) ↔
      ∀ names ∈ [[], ["Stem"], ["Stem", "Scan"], ["Stem", "VirtualDetector"], ["TimeOfFlight"]],
        ObjectAt (keyPath names) D := by
  constructor
  · intro h names hnames
    have hScan := h (["Stem", "Scan", "Width"], .number_integer p.stemScanWidth) (by simp [Params.fields])
    have hDetector := h (["Stem", "VirtualDetector", "RadiusOuter"], .number_integer p.stemRadiusOuter)
      (by simp [Params.fields])
    have hFlight := h (["TimeOfFlight", "Min"], .number_float p.tofMin) (by simp [Params.fields])
    simp only [List.mem_cons, List.not_mem_nil, or_false] at hnames
    rcases hnames with rfl | rfl | rfl | rfl | rfl
    · exact hScan [] (by simp) (by simp)
    · exact hScan ["Stem"] (by simp) (by simp)
    · exact hScan ["Stem", "Scan"] (by simp) (by simp)
    · exact hDetector ["Stem", "VirtualDetector"] (by simp) (by simp)
    · exact hFlight ["TimeOfFlight"] (by simp) (by simp)
  · intro h f hf above hp hne
    have hgroups : ∀ group ∈ [["Stem", "Scan"], ["Stem", "VirtualDetector"], ["TimeOfFlight"]],
        ∀ above ∈ group.inits,
          above ∈ [[], ["Stem"], ["Stem", "Scan"], ["Stem", "VirtualDetector"], ["TimeOfFlight"]] := by decide
    exact h above (hgroups _ (dropLast_of_mem_fields hf) above ((List.mem_inits _ _).mpr (prefix_dropLast hp hne)))

/-- A parameter that is not written keeps its value. -/
theorem mem_integers_apply {i : ℤ} (h : names ≠ change.field) :
    (names, i) ∈ (change.apply p).integers ↔ (names, i) ∈ p.integers := by
  cases change <;> simp only [Change.field, Change.apply, Params.integers, List.mem_cons, Prod.mk.injEq] at h ⊢ <;>
    simp [h]

theorem mem_doubles_apply {q : ℚ} (h : names ≠ change.field) :
    (names, q) ∈ (change.apply p).doubles ↔ (names, q) ∈ p.doubles := by
  cases change <;> simp only [Change.field, Change.apply, Params.doubles, List.mem_cons, Prod.mk.injEq] at h ⊢ <;>
    simp [h]

theorem tofTdcReference_apply (h : ["TimeOfFlight", "TdcReference"] ≠ change.field) :
    (change.apply p).tofTdcReference = p.tofTdcReference := by
  cases change with
  | tofTdcReference value => exact absurd rfl h
  | _ => rfl

theorem mem_integers_read {g : List String × ℤ} (text : String) (D : Json) (old : Params) :
    g ∈ (getMeasurementConfig (answer text D) old).2.integers ↔
      ∃ f ∈ old.integers, g = (f.1, setInteger (D.valueAt (keyPath f.1)) f.2) := by
  rw [getMeasurementConfig_answer]
  simp only [Params.integers, List.mem_cons, List.not_mem_nil, or_false, exists_eq_or_imp, exists_eq_left]

theorem mem_doubles_read {g : List String × ℚ} (text : String) (D : Json) (old : Params) :
    g ∈ (getMeasurementConfig (answer text D) old).2.doubles ↔
      ∃ f ∈ old.doubles, g = (f.1, setDouble (D.valueAt (keyPath f.1)) f.2) := by
  rw [getMeasurementConfig_answer]
  simp only [Params.doubles, List.mem_cons, List.not_mem_nil, or_false, exists_eq_or_imp, exists_eq_left]

/-- Parameters of one type come back if each of them does: `fields` are those before the read, `fields'` those that
are sent. -/
theorem kept_iff {α : Type} {set : Option Json → α → α} {toJson : α → Json} {Kept : α → Json → Prop}
    {fields fields' : List (List String × α)}
    (hmem : ∀ names a, names ≠ change.field →
      ((names, a) ∈ fields' ↔ ∃ f ∈ fields, (names, a) = (f.1, set (D.valueAt (keyPath f.1)) f.2)))
    (hagrees : ∀ v a, Agrees v (toJson (set (some v) a)) ↔ Kept a v) :
    (∀ g ∈ fields', g.1 ≠ change.field → ∀ v, D.valueAt (keyPath g.1) = some v → Agrees v (toJson g.2)) ↔
      ∀ f ∈ fields, f.1 ≠ change.field → ∀ v, D.valueAt (keyPath f.1) = some v → Kept f.2 v := by
  constructor
  · intro h f hf hne v hv
    have hsent := h _ ((hmem f.1 _ hne).mpr ⟨f, hf, rfl⟩) hne v hv
    rw [hv] at hsent
    exact (hagrees v f.2).mp hsent
  · rintro h ⟨names, a⟩ hg hne v hv
    obtain ⟨f, hf, hread⟩ := (hmem names a hne).mp hg
    obtain ⟨rfl, rfl⟩ := Prod.mk.inj hread
    show Agrees v (toJson (set (D.valueAt (keyPath f.1)) f.2))
    rw [hv]
    exact (hagrees v f.2).mpr (h f hf hne v hv)

theorem keptIntegers_iff (text : String) (D : Json) (old : Params) (change : Change) :
    (∀ g ∈ (change.apply (getMeasurementConfig (answer text D) old).2).integers, g.1 ≠ change.field →
        ∀ v, D.valueAt (keyPath g.1) = some v → Agrees v (.number_integer g.2)) ↔
      ∀ f ∈ old.integers, f.1 ≠ change.field → ∀ v, D.valueAt (keyPath f.1) = some v → KeptInteger f.2 v :=
  kept_iff (fun _ _ hne => (mem_integers_apply hne).trans (mem_integers_read text D old)) fun _ _ =>
    agrees_integer_iff

theorem keptDoubles_iff (text : String) (D : Json) (old : Params) (change : Change) :
    (∀ g ∈ (change.apply (getMeasurementConfig (answer text D) old).2).doubles, g.1 ≠ change.field →
        ∀ v, D.valueAt (keyPath g.1) = some v → Agrees v (.number_float g.2)) ↔
      ∀ f ∈ old.doubles, f.1 ≠ change.field → ∀ v, D.valueAt (keyPath f.1) = some v → KeptDouble v :=
  kept_iff (fun _ _ hne => (mem_doubles_apply hne).trans (mem_doubles_read text D old)) fun _ _ =>
    agrees_double_iff

/-- The fields of a kind, one kind after the other. -/
theorem forall_fields_iff {P : List String × Json → Prop} : (∀ f ∈ p.fields, P f) ↔
    (∀ g ∈ p.integers, P (g.1, .number_integer g.2)) ∧ (∀ g ∈ p.doubles, P (g.1, .number_float g.2)) ∧
      P (["TimeOfFlight", "TdcReference"], p.toSend.refArr) := by
  constructor
  · intro h
    exact ⟨fun g hg => h _ (mem_fields_iff.mpr (.inl ⟨g, hg, rfl⟩)),
      fun g hg => h _ (mem_fields_iff.mpr (.inr (.inl ⟨g, hg, rfl⟩))), h _ (mem_fields_iff.mpr (.inr (.inr rfl)))⟩
  · rintro ⟨hintegers, hdoubles, hreferences⟩ f hf
    rcases mem_fields_iff.mp hf with ⟨g, hg, rfl⟩ | ⟨g, hg, rfl⟩ | rfl
    · exact hintegers g hg
    · exact hdoubles g hg
    · exact hreferences

/-- The document is preserved if its text can be sent, its branches are objects, and every field but the changed
one comes back. -/
theorem preserved_iff_fields (text : String) (D : Json) (old : Params) (change : Change) :
    Preserved text D old change ↔
      Sendable (change.apply (getMeasurementConfig (answer text D) old).2).tofTdcReference ∧
        (∀ names ∈ [[], ["Stem"], ["Stem", "Scan"], ["Stem", "VirtualDetector"], ["TimeOfFlight"]],
          ObjectAt (keyPath names) D) ∧
        ∀ f ∈ (change.apply (getMeasurementConfig (answer text D) old).2).fields, f.1 ≠ change.field →
          ∀ v, D.valueAt (keyPath f.1) = some v → Agrees v f.2 := by
  obtain ⟨g, hg, hfield⟩ := change_mem_fields (change.apply (getMeasurementConfig (answer text D) old).2) change
  rw [← objects_above_iff (change.apply (getMeasurementConfig (answer text D) old).2), ← hfield,
    ← Json.agreesExcept_assignAll_iff (apart_fields _) hg, hfield]
  simp only [Preserved, sent_eq_some_iff, and_assoc, exists_and_left]
  rfl

theorem sendable_of_kept {refs : List String} (h : KeptReferences refs) :
    Sendable (cStr (joinRefs (refs.map .string))) :=
  Option.isSome_iff_exists.mpr ⟨_, decode_joinRefs h⟩

theorem exists_of_field_eq (hchange : ["TimeOfFlight", "TdcReference"] = change.field) :
    ∃ value, change = .tofTdcReference value := by
  cases change with
  | tofTdcReference value => exact ⟨value, rfl⟩
  | _ => simp [Change.field] at hchange

theorem tofTdcReference_read (text : String) (D : Json) (old : Params) :
    (getMeasurementConfig (answer text D) old).2.tofTdcReference =
      setReference (D.valueAt (keyPath ["TimeOfFlight", "TdcReference"])) old.tofTdcReference := by
  rw [getMeasurementConfig_answer]

/-- The reference comes back, and what is sent for it is text, in a document that has one or not. -/
theorem keptReference_iff (text : String) (D : Json) (old : Params) (change : Change) :
    (Sendable (change.apply (getMeasurementConfig (answer text D) old).2).tofTdcReference ∧
        (["TimeOfFlight", "TdcReference"] ≠ change.field →
          ∀ v, D.valueAt (keyPath ["TimeOfFlight", "TdcReference"]) = some v →
            Agrees v (change.apply (getMeasurementConfig (answer text D) old).2).toSend.refArr)) ↔
      (["TimeOfFlight", "TdcReference"] ≠ change.field →
          ∀ v, D.valueAt (keyPath ["TimeOfFlight", "TdcReference"]) = some v →
            ∃ refs : List String, v = .array (refs.map .string) ∧ KeptReferences refs) ∧
        ∀ value, (change = .tofTdcReference value ∨ (["TimeOfFlight", "TdcReference"] ≠ change.field ∧
          D.valueAt (keyPath ["TimeOfFlight", "TdcReference"]) = none ∧ value = old.tofTdcReference)) →
            Sendable value := by
  by_cases hchange : ["TimeOfFlight", "TdcReference"] = change.field
  · obtain ⟨value, rfl⟩ := exists_of_field_eq hchange
    simp [Change.field, Change.apply]
  · have hother : ∀ value, change ≠ .tofTdcReference value := by
      rintro value rfl
      exact hchange rfl
    have hread := tofTdcReference_read text D old
    rw [← tofTdcReference_apply hchange] at hread
    cases hv : D.valueAt (keyPath ["TimeOfFlight", "TdcReference"]) with
    | none =>
      rw [hv] at hread
      rw [hread]
      simp [hchange, hother, setReference]
    | some v =>
      rw [hv] at hread
      simp only [ne_eq, hchange, not_false_eq_true, forall_const, Option.some.injEq, forall_eq', hother,
        reduceCtorEq, false_and, and_false, or_self, false_implies, and_true, agrees_references_iff hread]
      refine and_iff_right_of_imp ?_
      rintro ⟨refs, rfl, hkept⟩
      rw [hread]
      exact sendable_of_kept hkept

/-- What a document has to be like for the one that is sent to have all of it. -/
theorem preserved_iff (text : String) (D : Json) (old : Params) (change : Change) :
    Preserved text D old change ↔ Kept D old change := by
  rw [preserved_iff_fields, forall_fields_iff, keptIntegers_iff, keptDoubles_iff]
  have hreference := keptReference_iff text D old change
  constructor
  · rintro ⟨htext, hobjects, hintegers, hdoubles, hreferences⟩
    obtain ⟨hkept, hsendable⟩ := hreference.mp ⟨htext, hreferences⟩
    exact ⟨hobjects, hintegers, hdoubles, hkept, hsendable⟩
  · rintro ⟨hobjects, hintegers, hdoubles, hkept, hsendable⟩
    obtain ⟨htext, hreferences⟩ := hreference.mpr ⟨hkept, hsendable⟩
    exact ⟨htext, hobjects, hintegers, hdoubles, hreferences⟩

/-- A width of 10 ^ 10 pixels does not come back when a radius is changed. -/
theorem not_preserved :
    ¬Preserved "" (.object [("Stem", .object [("Scan", .object [("Width", .number_integer (10 ^ 10))])])])
      ⟨512, 512, 1, 100, 50, [], 0, 1⟩ (.stemRadiusOuter 200) := by
  rintro ⟨E, hsent, hagrees⟩
  obtain ⟨-, hE⟩ := sent_eq_some_iff.mp hsent
  have hwidth := Json.valueAt_assignAll_self (apart_fields _) hE List.mem_cons_self
  have hchanged : ¬keyPath ["Stem", "VirtualDetector", "RadiusOuter"] <+: keyPath ["Stem", "Scan", "Width"] := by
    rw [Json.keyPath_prefix_iff]
    decide
  obtain ⟨u, hu, q, hq, hq'⟩ := hagrees (keyPath ["Stem", "Scan", "Width"]) (.number_integer (10 ^ 10)) hchanged rfl
  obtain rfl := Option.some.inj (hwidth.symm.trans hu)
  have hsame := Rat.intCast_inj.mp (Option.some.inj (hq.trans hq'.symm))
  exact absurd hsame (by decide)

/-! ## Failures -/

theorem cons_of_mem_fields {f : List String × Json} (hf : f ∈ p.fields) :
    ∃ group name names, f.1 = group :: name :: names ∧ (group = "Stem" ∨ group = "TimeOfFlight") := by
  revert f
  simp [Params.fields]

/-- Besides Stem and the time of flight, the document that is sent has what was read. -/
theorem valueAt_of_sent {step : PathStep} (hsent : sent get p = some E) (hStem : step ≠ .key "Stem")
    (hFlight : step ≠ .key "TimeOfFlight") : E.valueAt [step] = (source get).valueAt [step] := by
  refine Json.valueAt_assignAll_of_apart (sent_eq_some_iff.mp hsent).2 fun f hf => ?_
  obtain ⟨group, name, names, hnames, hgroup⟩ := cons_of_mem_fields hf
  have hstep : .key group ≠ step := by
    rcases hgroup with rfl | rfl
    · exact hStem.symm
    · exact hFlight.symm
  rw [hnames]
  exact ⟨fun hp => hstep (List.cons_prefix_cons.mp hp).1, fun hp => hstep (List.cons_prefix_cons.mp hp).1.symm⟩

/-- The other branches are kept when nothing is sent, or when the answer to the GET has them as they are stored. -/
theorem othersKept_stored_iff (D : Json) (get : Response) (p : Params) :
    OthersKept D (stored D get p) ↔
      ¬(Sendable p.tofTdcReference ∧ settable ["Stem", "Scan"] (source get) ∧
          settable ["Stem", "VirtualDetector"] (source get) ∧ settable ["TimeOfFlight"] (source get)) ∨
        OthersKept D (source get) := by
  rw [← isSome_sent_iff]
  unfold stored
  cases hsent : sent get p with
  | none => simp [OthersKept]
  | some E =>
    simp only [Option.isSome_some, not_true, false_or, Option.getD_some]
    exact forall_congr' fun step => forall₂_congr fun hStem hFlight => by rw [valueAt_of_sent hsent hStem hFlight]

/-- A GET that fails loses the corrections. -/
theorem not_othersKept_stored :
    ¬OthersKept (.object [("Corrections", .object [])])
      (stored (.object [("Corrections", .object [])]) ⟨0, "", none⟩ ⟨512, 512, 1, 100, 50, [], 0, 1⟩) := by
  intro h
  have hsendable : Sendable [] := Option.isSome_iff_exists.mpr ⟨"", Texts.decode_utf8 ""⟩
  have hsent : (sent ⟨0, "", none⟩ ⟨512, 512, 1, 100, 50, [], 0, 1⟩).isSome :=
    isSome_sent_iff.mpr ⟨hsendable, rfl, rfl, rfl⟩
  obtain ⟨E, hE⟩ := Option.isSome_iff_exists.mp hsent
  have hlost := h (.key "Corrections") (by simp) (by simp)
  rw [stored, hE, Option.getD_some, valueAt_of_sent hE (by simp) (by simp)] at hlost
  cases hlost

end ADTimePix3.Serval.MeasurementConfig
