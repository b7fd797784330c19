import ADTimePix3.Serval.Proofs.JsonPathProofs
import ADTimePix3.Serval.AnsweredCalls

/-!
# Proofs: faults from the replies of Serval

An access that is asked for with `contains` or `is_…` before settles. What is left are the parses, and the accesses
that nothing is asked for before.
-/

namespace ADTimePix3.Serval.Replies

open Faults
open Acquire (Response)
open Connection (memberOrNull)
open ADTimePix3.Stream (Json)
open ADTimePix3.Stream.Json (PathStep)

variable {inv : Driver → Prop} {allowed : Fault → Prop} {s : Driver} {key : String} {keys keys' : List String}
  {j v : Json} {i : ℕ} {body : Json → Action Unit}

/-! ## Accesses -/

/-- It finds a member that is there. -/
def Finds (get : String → Json → Action Json) : Prop :=
  ∀ {key : String} {j v : Json}, j.member key = some v → get key j = pure v

theorem finds_index : Finds index := by
  intro key j v h
  cases j with
  | object members =>
    have hlookup : members.lookup key = some v := h
    simp [index, memberOrNull, hlookup, orFault]
  | null => cases h
  | boolean b => cases h
  | number_integer z => cases h
  | number_float q => cases h
  | string t => cases h
  | array es => cases h

theorem finds_constIndex : Finds constIndex := by
  intro key j v h
  cases j with
  | object members =>
    have hlookup : members.lookup key = some v := h
    simp [constIndex, hlookup, orFault]
  | null => cases h
  | boolean b => cases h
  | number_integer z => cases h
  | number_float q => cases h
  | string t => cases h
  | array es => cases h

theorem finds_atMember : Finds atMember := by
  intro key j v h
  simp [atMember, h, orFault]

theorem exists_member (h : j.contains key = true) : ∃ v, j.member key = some v :=
  Option.isSome_iff_exists.mp h

theorem settles_whenContains {get : String → Json → Action Json} (hget : Finds get)
    (hbody : ∀ v, j.member key = some v → Settles inv (body v)) : Settles inv (whenContains get key j body) := by
  unfold whenContains
  refine Settles.ite (fun h => ?_) fun _ => settles_pure ()
  obtain ⟨v, hv⟩ := exists_member h
  rw [hget hv, pure_bind]
  exact hbody v hv

theorem settles_copyMembers : Settles inv (copyMembers keys j) :=
  settles_forM fun _ _ => settles_whenContains finds_constIndex fun _ _ => settles_pure ()

theorem settles_whenNumber_getInt : Settles inv (whenNumber getInt v) := by
  cases v <;> exact (settles_pure _)

theorem settles_whenNumber_getDouble : Settles inv (whenNumber getDouble v) := by
  cases v <;> exact (settles_pure _)

theorem settles_whenInteger : Settles inv (whenInteger v) := by
  cases v <;> exact (settles_pure _)

theorem settles_whenString : Settles inv (if isString v then discard (getString v) else pure ()) := by
  cases v <;> exact (settles_pure _)

theorem settles_whenObject (hbody : ∀ v, Settles inv (body v)) : Settles inv (whenObject key j body) :=
  settles_whenContains finds_index fun v _ => Settles.ite (fun _ => hbody v) fun _ => settles_pure ()

/-! ## Stopping a measurement -/

theorem settles_updateMeasurementStatusFromJson : Settles inv (updateMeasurementStatusFromJson v) :=
  settles_whenString

theorem settles_updateTdcRatesFromMeasurementInfo : Settles inv (updateTdcRatesFromMeasurementInfo v) := by
  unfold updateTdcRatesFromMeasurementInfo
  refine Settles.ite (fun _ => ?_) fun _ => settles_pure ()
  refine (settles_whenContains finds_constIndex fun _ _ => settles_whenNumber_getInt).bind fun _ => ?_
  refine (settles_whenContains finds_constIndex fun _ _ => settles_whenNumber_getInt).bind fun _ => ?_
  exact settles_whenContains finds_constIndex fun _ _ =>
    Settles.ite (fun _ => settles_pure ()) fun _ => settles_whenNumber_getInt

theorem settles_updateFromInfo : Settles inv (updateFromInfo v) := by
  unfold updateFromInfo
  refine (settles_whenContains finds_index fun _ _ => settles_whenNumber_getInt).bind fun _ => ?_
  refine settles_updateTdcRatesFromMeasurementInfo.bind fun _ => ?_
  refine (settles_whenContains finds_index fun _ _ => settles_whenNumber_getInt).bind fun _ => ?_
  refine (settles_whenContains finds_index fun _ _ => settles_whenNumber_getDouble).bind fun _ => ?_
  refine (settles_whenContains finds_index fun _ _ => settles_whenNumber_getDouble).bind fun _ => ?_
  refine (settles_whenContains finds_index fun _ _ => settles_whenNumber_getInt).bind fun _ => ?_
  refine (settles_whenContains finds_index fun _ _ => settles_whenNumber_getInt).bind fun _ => ?_
  exact settles_whenContains finds_index fun _ _ => settles_updateMeasurementStatusFromJson

theorem settles_updateFromMeasurement : Settles inv (updateFromMeasurement j) := by
  have hof : Settles inv (if j.contains "Status" then index "Status" j >>= updateMeasurementStatusFromJson
      else updateMeasurementStatusFromJson (.string "DA_IDLE")) := by
    refine Settles.ite (fun h => ?_) fun _ => settles_updateMeasurementStatusFromJson
    obtain ⟨v, hv⟩ := exists_member h
    rw [finds_index hv, pure_bind]
    exact settles_updateMeasurementStatusFromJson
  refine Settles.ite (fun h => ?_) fun _ => hof
  obtain ⟨v, hv⟩ := exists_member h
  rw [finds_index hv, pure_bind]
  exact Settles.ite (fun _ => settles_updateFromInfo) fun _ => hof

/-- What is not a JSON text is thrown out of the callback thread. -/
theorem acquireStop_returns_iff {stop measurement : Response} :
    Returns (acquireStop stop measurement) s ↔
      (stop.status_code = 200 → measurement.status_code = 200 → measurement.json.isSome) := by
  rw [returns_iff_within]
  unfold acquireStop
  simp only [within_ite, within_pure, parse, within_orFault_bind, ne_eq, not_not, imp_true_iff, true_and]
  refine imp_congr_right fun _ => imp_congr_right fun _ => ?_
  rw [Option.isSome_iff_ne_none]
  refine ⟨fun h => h.1, fun h => ⟨h, fun j _ => ?_⟩⟩
  have hset : Settles (fun _ => True) (updateFromMeasurement j >>= fun _ => pure AsynStatus.asynSuccess) :=
    settles_updateFromMeasurement.bind fun _ => settles_pure _
  exact hset.within trivial

/-! ## Health and DACs -/

@[simp]
theorem memberOrNull_eq_none_iff : memberOrNull key j = none ↔ indexable j = false := by
  cases j <;> simp [memberOrNull, indexable]

theorem getHealth_returns_iff {r : Response} :
    Returns (getHealth r) s ↔ (r.status_code = 200 → ∀ health_j ∈ r.json, indexable health_j) := by
  rw [returns_iff_within]
  unfold getHealth
  cases hjson : r.json with
  | none => simp
  | some health_j => simp [within_ite]

theorem assign_key_eq_none_iff : j.assign [.key key] v = none ↔ indexable j = false := by
  cases j <;> simp [Json.assign, indexable]

theorem writeDac_returns_iff {dac : String} {value : ℤ} {get put : Response} :
    Returns (writeDac dac value get put) s ↔
      (get.status_code = 200 → ∀ dacsRead_j ∈ get.json, indexable dacsRead_j) := by
  rw [returns_iff_within]
  unfold writeDac
  cases hjson : get.json with
  | none => simp
  | some dacsRead_j => simp [within_ite, assign_key_eq_none_iff]

/-! ## The dashboard -/

theorem settles_updateServalVersionFromDashboard : Settles inv (updateServalVersionFromDashboard j) :=
  settles_whenContains finds_constIndex fun _ _ =>
    Settles.ite (fun _ => settles_copyMembers) fun _ => settles_pure ()

theorem settles_updateFromMeasurementStatus : Settles inv (updateFromMeasurementStatus j) := by
  have hof : Settles inv (whenContains constIndex "Status" j updateMeasurementStatusFromJson) :=
    settles_whenContains finds_constIndex fun _ _ => settles_updateMeasurementStatusFromJson
  refine Settles.ite (fun h => ?_) fun _ => hof
  obtain ⟨Info, hInfo⟩ := exists_member h
  rw [finds_constIndex hInfo, pure_bind]
  refine Settles.ite (fun h => ?_) fun _ => hof
  obtain ⟨status, hstatus⟩ := exists_member (Bool.and_eq_true_iff.mp h).2
  rw [finds_constIndex hstatus, pure_bind]
  exact settles_updateMeasurementStatusFromJson

theorem settles_updateMeasurementFromDashboard : Settles inv (updateMeasurementFromDashboard j) :=
  Settles.ite
    (fun _ => settles_whenContains finds_constIndex fun _ _ =>
      Settles.ite (fun _ => settles_pure ()) fun _ => settles_updateFromMeasurementStatus)
    fun _ => settles_pure ()

/-- A computation that settles faults with nothing. -/
theorem within_of_settles {α : Type} {x : Action α} (h : Settles (fun _ => True) x) (s : Driver) :
    Within allowed x s :=
  h.within trivial

theorem checkConnection_returns {r : Response} : Returns (checkConnection r) s := by
  have hhandler : Settles (fun _ => True) (updateMeasurementStatusFromJson .null) :=
    settles_updateMeasurementStatusFromJson
  have hreads : ∀ s, Within (fun e => caught e = true ∨ False) (checkConnectionReads r) s := by
    intro s
    refine Within.bind (by simp [parse, caught]) fun dashboard_j s => ?_
    refine Within.bind (within_of_settles settles_updateServalVersionFromDashboard s) fun _ s => ?_
    refine Within.bind ?_ fun _ s => within_of_settles settles_updateMeasurementFromDashboard s
    unfold detectorOfDashboard index
    rw [within_orFault_bind]
    refine ⟨by simp [caught], fun Detector _ => ?_⟩
    split
    · exact within_pure.mpr trivial
    · exact Within.bind (by simp [caught]) fun _ _ => within_pure.mpr trivial
  rw [returns_iff_within]
  refine Within.bind ?_ fun _ _ => within_pure.mpr trivial
  split
  · exact (within_attempt fun s => within_of_settles hhandler s).mpr (hreads s)
  · exact within_of_settles hhandler s

/-! ## The destination -/

theorem settles_destinationBody : Settles inv (destinationBody j) := by
  refine Settles.ite (fun h => ?_) fun _ => settles_pure _
  obtain ⟨Destination, hDestination⟩ := exists_member h
  rw [finds_constIndex hDestination, pure_bind]
  exact settles_pure _

theorem settles_previewChannelCount : Settles inv (previewChannelCount key j) :=
  settles_whenContains finds_atMember fun _ _ =>
    Settles.ite (fun _ => settles_whenContains finds_atMember fun _ _ => settles_pure ()) fun _ => settles_pure ()

/-- A parse inside of a `try`, and what settles after it. -/
theorem returns_attempt_parse {α : Type} {r : Response} {f : Json → Action α} {a : α}
    (hf : ∀ j, Settles (fun _ => True) (f j)) : Returns (attempt caught (parse r >>= f) (pure a)) s := by
  rw [returns_iff_within, within_attempt fun s => within_pure.mpr trivial]
  exact Within.bind (by simp [parse, caught]) fun j s => within_of_settles (hf j) s

theorem returns_pure {α : Type} (a : α) : Returns (pure a : Action α) s := ⟨a, rfl⟩

theorem getServer_returns {r : Response} : Returns (getServer r) s := by
  unfold getServer
  split
  · exact returns_pure _
  · refine returns_attempt_parse fun j => ?_
    refine settles_destinationBody.bind fun server_j => ?_
    refine (settles_whenContains finds_atMember fun _ _ => settles_pure ()).bind fun _ => ?_
    refine (settles_whenContains finds_atMember fun _ _ => settles_pure ()).bind fun _ => ?_
    refine settles_previewChannelCount.bind fun _ => settles_previewChannelCount.bind fun _ => ?_
    exact settles_pure _

/-! ## The configuration of a measurement -/

theorem settles_readScan : Settles inv (readScan j) := by
  unfold readScan
  refine (settles_whenContains finds_index fun _ _ => settles_whenInteger).bind fun _ => ?_
  refine (settles_whenContains finds_index fun _ _ => settles_whenInteger).bind fun _ => ?_
  exact settles_whenContains finds_index fun _ _ => settles_whenNumber_getDouble

theorem settles_readVirtualDetector : Settles inv (readVirtualDetector j) := by
  unfold readVirtualDetector
  refine (settles_whenContains finds_index fun _ _ => settles_whenInteger).bind fun _ => ?_
  exact settles_whenContains finds_index fun _ _ => settles_whenInteger

theorem settles_readStem : Settles inv (readStem j) :=
  (settles_whenObject fun _ => settles_readScan).bind fun _ => settles_whenObject fun _ => settles_readVirtualDetector

theorem settles_readTimeOfFlight : Settles inv (readTimeOfFlight j) := by
  unfold readTimeOfFlight
  refine (settles_whenContains finds_index fun _ _ => settles_forM fun _ _ => settles_whenString).bind fun _ => ?_
  refine (settles_whenContains finds_index fun _ _ => settles_whenNumber_getDouble).bind fun _ => ?_
  exact settles_whenContains finds_index fun _ _ => settles_whenNumber_getDouble

theorem getMeasurementConfig_returns {r : Response} : Returns (getMeasurementConfig r) s := by
  unfold getMeasurementConfig
  split
  · exact returns_pure _
  · refine returns_attempt_parse fun j => ?_
    refine (settles_whenObject fun _ => settles_readStem).bind fun _ => ?_
    refine (settles_whenObject fun _ => settles_readTimeOfFlight).bind fun _ => ?_
    exact settles_pure _

/-! ## Setting members -/

theorem indexable_of_assign {path : List PathStep} {j' : Json} (h : j.assign (.key key :: path) v = some j') :
    indexable j = true ∧ indexable j' = true := by
  cases j with
  | null =>
    obtain ⟨x, -, rfl⟩ := Option.map_eq_some_iff.mp h
    exact ⟨rfl, rfl⟩
  | object members =>
    obtain ⟨x, -, rfl⟩ := Option.map_eq_some_iff.mp h
    exact ⟨rfl, rfl⟩
  | boolean b => cases h
  | number_integer z => cases h
  | number_float q => cases h
  | string t => cases h
  | array es => cases h

theorem isSome_assign {name : String} :
    (j.assign (keys.map PathStep.key ++ [.key name]) v).isSome = settable keys j := by
  induction keys generalizing j with
  | nil => cases j <;> rfl
  | cons key keys ih =>
    cases j with
    | null => simpa [Json.assign, settable, indexable, Json.member] using @ih .null
    | object members =>
      simpa [Json.assign, settable, indexable, Json.member] using @ih ((members.lookup key).getD .null)
    | boolean b => rfl
    | number_integer z => rfl
    | number_float q => rfl
    | string t => rfl
    | array es => rfl

/-- A member that is set is in the way of no other chain of names. -/
theorem settable_of_assign {name : String} {j' : Json}
    (h : j.assign (keys.map PathStep.key ++ [.key name]) v = some j') (hapart : ¬keys ++ [name] <+: keys') :
    settable keys' j' = settable keys' j := by
  induction keys' generalizing keys j j' with
  | nil =>
    cases keys with
    | nil => exact (indexable_of_assign h).2.trans (indexable_of_assign h).1.symm
    | cons key keys => exact (indexable_of_assign h).2.trans (indexable_of_assign h).1.symm
  | cons key' keys' ih =>
    cases keys with
    | nil =>
      have hne : key' ≠ name := by
        rintro rfl
        exact hapart ⟨keys', rfl⟩
      obtain ⟨x, -, -, hother⟩ := Json.assign_key h
      rw [settable, settable, (indexable_of_assign h).1, (indexable_of_assign h).2, hother key' hne]
    | cons key keys =>
      obtain ⟨x, hx, hmember, hother⟩ := Json.assign_key h
      rw [settable, settable, (indexable_of_assign h).1, (indexable_of_assign h).2]
      by_cases hkey : key' = key
      · subst hkey
        have hrest : ¬keys ++ [name] <+: keys' := fun hp => hapart (List.cons_prefix_cons.mpr ⟨rfl, hp⟩)
        rw [hmember, Option.getD_some, ih hx hrest]
      · rw [hother key' hkey]

theorem settable_of_assignFields {fields : List (String × Json)} {j' : Json}
    (h : Json.assignFields (keys.map PathStep.key) fields j = some j')
    (hapart : ∀ field ∈ fields, ¬keys ++ [field.1] <+: keys') : settable keys' j' = settable keys' j := by
  induction fields generalizing j with
  | nil =>
    cases h
    rfl
  | cons field fields ih =>
    obtain ⟨j₁, hassign, hrest⟩ := Option.bind_eq_some_iff.mp h
    rw [ih hrest fun field' hfield' => hapart field' (List.mem_cons_of_mem _ hfield'),
      settable_of_assign hassign (hapart field List.mem_cons_self)]

theorem isSome_assignFields {fields : List (String × Json)} (hne : fields ≠ []) :
    (Json.assignFields (keys.map PathStep.key) fields j).isSome = settable keys j := by
  induction fields generalizing j with
  | nil => exact absurd rfl hne
  | cons field fields ih =>
    show (Option.bind (j.assign (keys.map PathStep.key ++ [.key field.1]) field.2)
      (Json.assignFields (keys.map PathStep.key) fields)).isSome = _
    have hfirst : (j.assign (keys.map PathStep.key ++ [.key field.1]) field.2).isSome = settable keys j :=
      isSome_assign
    rw [← hfirst]
    cases hassign : j.assign (keys.map PathStep.key ++ [.key field.1]) field.2 with
    | none => rfl
    | some j₁ =>
      cases fields with
      | nil => rfl
      | cons field' fields =>
        have hlong : ¬keys ++ [field.1] <+: keys := fun hp => by simpa using hp.length_le
        rw [Option.bind_some, ih (by simp), settable_of_assign hassign hlong, ← hfirst, hassign]

/-- Groups of members, none of which is in the way of another group. -/
theorem isSome_merge {groups : List (List String × List (String × Json))} (hne : ∀ g ∈ groups, g.2 ≠ [])
    (hapart : ∀ g ∈ groups, ∀ g' ∈ groups, ∀ field ∈ g.2, ¬g.1 ++ [field.1] <+: g'.1) :
    (groups.foldlM (fun j g => Json.assignFields (g.1.map PathStep.key) g.2 j) j).isSome =
      groups.all fun g => settable g.1 j := by
  induction groups generalizing j with
  | nil => rfl
  | cons g groups ih =>
    show (Option.bind (Json.assignFields (g.1.map PathStep.key) g.2 j) fun j =>
      groups.foldlM (fun j g => Json.assignFields (g.1.map PathStep.key) g.2 j) j).isSome = _
    have hfirst : (Json.assignFields (g.1.map PathStep.key) g.2 j).isSome = settable g.1 j :=
      isSome_assignFields (hne g List.mem_cons_self)
    rw [List.all_cons, ← hfirst]
    cases hassign : Json.assignFields (g.1.map PathStep.key) g.2 j with
    | none => rfl
    | some j₁ =>
      have hsame : ∀ g' ∈ groups, settable g'.1 j₁ = settable g'.1 j := fun g' hg' =>
        settable_of_assignFields hassign (hapart g List.mem_cons_self g' (List.mem_cons_of_mem _ hg'))
      rw [Option.bind_some, ih (fun g' hg' => hne g' (List.mem_cons_of_mem _ hg'))
        fun g₁ h₁ g₂ h₂ => hapart g₁ (List.mem_cons_of_mem _ h₁) g₂ (List.mem_cons_of_mem _ h₂)]
      rw [Option.isSome_some, Bool.true_and]
      rw [Bool.eq_iff_iff, List.all_eq_true, List.all_eq_true]
      exact forall₂_congr fun g' hg' => by rw [hsame g' hg']

theorem isSome_merge_groups {p : MeasurementParams} :
    (p.merge j).isSome = (settable ["Stem", "Scan"] j && settable ["Stem", "VirtualDetector"] j &&
      settable ["TimeOfFlight"] j) := by
  rw [MeasurementParams.merge, isSome_merge]
  · simp [MeasurementParams.groups, Bool.and_assoc]
  · simp [MeasurementParams.groups]
  · simp [MeasurementParams.groups, List.cons_prefix_cons]

theorem sendMeasurementConfig_returns_iff {p : MeasurementParams} {get put : Response} :
    Returns (sendMeasurementConfig p get put) s ↔
      p.tofTdcReference.isSome ∧ (get.status_code = 200 → ∀ config_j ∈ get.json,
        settable ["Stem", "Scan"] config_j ∧ settable ["Stem", "VirtualDetector"] config_j ∧
          settable ["TimeOfFlight"] config_j) := by
  have hempty : (p.merge (.object [])).isSome = true := by
    rw [isSome_merge_groups]
    rfl
  have hmerge : (p.merge (if get.status_code = 200 then get.json.getD (.object []) else .object [])).isSome ↔
      (get.status_code = 200 → ∀ config_j ∈ get.json, (p.merge config_j).isSome) := by
    split
    · cases get.json <;> simp_all
    · simp_all
  have hiff : Returns (sendMeasurementConfig p get put) s ↔ p.tofTdcReference.isSome ∧
      (p.merge (if get.status_code = 200 then get.json.getD (.object []) else .object [])).isSome := by
    rw [returns_iff_within]
    show Within _ (orFault Fault.exception (p.merge _) >>= fun _ =>
      orFault Fault.exception p.tofTdcReference >>= fun _ => pure _) s ↔ _
    generalize p.merge _ = merged
    cases p.tofTdcReference <;> cases merged <;> simp
  rw [hiff, hmerge]
  simp only [isSome_merge_groups, Bool.and_eq_true, and_assoc]

end ADTimePix3.Serval.Replies
