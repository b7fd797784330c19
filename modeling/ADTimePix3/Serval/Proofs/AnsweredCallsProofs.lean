import ADTimePix3.Serval.Proofs.DetectorRepliesProofs

/-!
# Proofs: when a call is answered

Main result: `answered_iff`.
-/

namespace ADTimePix3.Serval.Replies

open Faults
open Acquire (Response)
open Connection (memberOrNull)
open ADTimePix3.Stream (Json)
open ADTimePix3.Stream.Json (PathStep lookup_setMember_ne)

variable {dump : Json → String} {s : Driver} {members : List (String × Json)} {v : Json} {key : String} {β : Type}
  {f : Json → Action β} {values : String → Json}

/-! ## Writing a configuration -/

@[simp]
theorem setMember_object : setMember key v (.object members) = pure (.object (Json.setMember members key v)) := rfl

theorem within_label_bind {labels : List String} {i : ℤ} :
    Within (fun _ => False) (label labels i >>= f) s ↔
      0 ≤ i ∧ Within (fun _ => False) (f ((labels.map Json.string).getD i.toNat .null)) s := by
  unfold label
  split
  · subst i
    simp
  · split
    · simp only [within_throw_bind, false_iff, not_and]
      omega
    · rw [within_pure_bind]
      exact ⟨fun h => ⟨by omega, h⟩, fun h => h.2⟩

theorem within_commonMembers_bind (values : String → Json) (triggerModeIdx : ℤ)
    (members : List (String × Json)) (β : Type) :
    ∃ members', members'.lookup "Tdc" = members.lookup "Tdc" ∧ ∀ (f : Json → Action β) s₀,
      Within (fun _ => False) (commonMembers values triggerModeIdx s (.object members) >>= f) s₀ ↔
        (0 ≤ s.biasEnable ∧ 0 ≤ s.chainMode ∧ 0 ≤ s.polarity) ∧ Within (fun _ => False) (f (.object members')) s₀ := by
  unfold commonMembers setMembers
  simp only [setMember_object, pure_bind, List.map_cons, List.map_nil, List.foldlM_cons, List.foldlM_nil, bind_assoc,
    within_label_bind]
  refine ⟨?members, ?lookup, ?iff⟩
  case iff =>
    intro f s₀
    simp only [and_assoc]
    exact Iff.rfl
  case lookup =>
    simp [lookup_setMember_ne]

/-- `Tdc[i]` can be set where `Tdc` is an array, or null, and is an array then. -/
theorem assign_tdc {i : ℕ} (v : Json) (h : arrayLike (((Json.object members).member "Tdc").getD .null) = true) :
    ∃ members' es, (Json.object members).assign [.key "Tdc", .index i] v = some (.object members') ∧
      (Json.object members').member "Tdc" = some (.array es) := by
  have hlookup : ∀ es : List Json, (Json.object (Json.setMember members "Tdc" (.array es))).member "Tdc" =
      some (.array es) := fun es => by
    show (Json.setMember members "Tdc" (.array es)).lookup "Tdc" = _
    exact Json.lookup_setMember_self
  have hassign : (Json.object members).assign [.key "Tdc", .index i] v =
      (Json.assign [.index i] (((Json.object members).member "Tdc").getD .null) v).map
        fun x => .object (Json.setMember members "Tdc" x) := rfl
  rw [hassign]
  cases htdc : ((Json.object members).member "Tdc").getD .null with
  | null => exact ⟨_, _, rfl, hlookup _⟩
  | array es => exact ⟨_, _, rfl, hlookup _⟩
  | boolean b => rw [htdc] at h; cases h
  | number_integer z => rw [htdc] at h; cases h
  | number_float q => rw [htdc] at h; cases h
  | string t => rw [htdc] at h; cases h
  | object ms => rw [htdc] at h; cases h

theorem assign_tdc_eq_none {i : ℕ} (v : Json)
    (h : arrayLike (((Json.object members).member "Tdc").getD .null) = false) :
    (Json.object members).assign [.key "Tdc", .index i] v = none := by
  have hassign : (Json.object members).assign [.key "Tdc", .index i] v =
      (Json.assign [.index i] (((Json.object members).member "Tdc").getD .null) v).map
        fun x => .object (Json.setMember members "Tdc" x) := rfl
  rw [hassign]
  cases htdc : ((Json.object members).member "Tdc").getD .null with
  | null => rw [htdc] at h; cases h
  | array es => rw [htdc] at h; cases h
  | _ => rfl

theorem within_tpx3Members_bind {s₀ : Driver}
    (hf : ∀ members', Within (fun _ => False) (f (.object members')) s₀) :
    Within (fun _ => False) (tpx3Members values s (.object members) >>= f) s₀ ↔
      arrayLike (((Json.object members).member "Tdc").getD .null) ∧ 0 ≤ s.tdc0 ∧ 0 ≤ s.tdc1 ∧
        0 ≤ s.externalReferenceClock ∧ 0 ≤ s.periphClk80 := by
  unfold tpx3Members setMembers
  simp only [setMember_object, pure_bind, List.map_cons, List.map_nil, List.foldlM_cons, List.foldlM_nil, bind_assoc,
    within_label_bind]
  generalize hset : Json.setMember (Json.setMember members "TriggerDelay" (values "TriggerDelay"))
    "GlobalTimestampInterval" (values "GlobalTimestampInterval") = members₀
  have htdc : (Json.object members₀).member "Tdc" = (Json.object members).member "Tdc" := by
    subst hset
    simp [Json.member, lookup_setMember_ne]
  rw [← htdc]
  cases harray : arrayLike (((Json.object members₀).member "Tdc").getD .null) with
  | false =>
    rw [assign_tdc_eq_none _ harray]
    simp [orFault]
  | true =>
    obtain ⟨members₁, es₁, hfirst, htdc₁⟩ := assign_tdc
      (((tdcLabels.map Json.string).getD s.tdc0.toNat .null)) harray (i := 0)
    obtain ⟨members₂, es₂, hsecond, -⟩ := assign_tdc
      (((tdcLabels.map Json.string).getD s.tdc1.toNat .null)) (by rw [htdc₁]; rfl) (i := 1)
    simp only [hfirst, hsecond, orFault, pure_bind, within_label_bind, setMember_object]
    simp [hf]

theorem within_mpx3Members_bind {s₀ : Driver}
    (hf : ∀ members', Within (fun _ => False) (f (.object members')) s₀) :
    Within (fun _ => False) (mpx3Members values (.object members) >>= f) s₀ := by
  unfold mpx3Members stripTpx3DetectorConfigFields setMembers
  simp only [eraseMember, setMember_object, pure_bind, List.map_cons, List.map_nil, List.foldlM_cons,
    List.foldlM_nil]
  exact hf _

theorem within_putConfig {s₀ : Driver} {family : Guard.DetectorFamily} {r : ConfigReplies}
    (members : List (String × Json)) :
    Within (fun _ => False) (putConfig values r family (.object members)) s₀ := by
  have hresync : ∀ s, Within (fun _ => False) (attempt caught (resyncReads r.resync) (pure ())) s := by
    intro s
    refine (within_attempt fun s => within_pure.mpr trivial).mpr ?_
    exact Within.bind (by simp [parse, caught]) fun cfg s => within_of_settles settles_copyMembers s
  unfold putConfig
  rw [setMember_object, pure_bind]
  split
  · refine Within.bind ?_ fun _ s => within_pure.mpr trivial
    split
    · exact hresync s₀
    · exact within_pure.mpr trivial
  · exact within_pure.mpr trivial

theorem triggerModeIdx_idem : { s with triggerMode := s.triggerModeIdx }.triggerModeIdx = s.triggerModeIdx := by
  unfold Driver.triggerModeIdx
  cases h : Guard.triggerModeOutOfRange s.triggerMode with
  | true => simp [Guard.triggerModeOutOfRange, Guard.kTriggerModes]
  | false => simp [h]

theorem commonMembers_throws {triggerModeIdx : ℤ} {config_j : Json} (h : indexable config_j = false) :
    Blocked Fault.exception (commonMembers values triggerModeIdx s config_j) := by
  refine Blocked.bind fun s₀ => ?_
  unfold setMember
  rw [assign_key_eq_none_iff.mpr h]
  rfl

theorem within_writeConfig_object {r : ConfigReplies} {s₀ : Driver} (members : List (String × Json)) :
    Within (fun _ => False) (writeConfig values r s (.object members)) s₀ ↔
      ConfigWritable s (.object members) := by
  obtain ⟨members₁, htdc, hcommon⟩ := within_commonMembers_bind values s.triggerMode members AsynStatus
  have hmember : (Json.object members₁).member "Tdc" = (Json.object members).member "Tdc" := htdc
  unfold writeConfig ConfigWritable
  rw [hcommon, ← hmember]
  by_cases hfamily : s.detectorFamily_ = .MPX3
  · rw [if_neg (not_not.mpr hfamily)]
    refine (and_iff_left (within_mpx3Members_bind fun members₂ => within_putConfig members₂)).trans ?_
    simp [indexable, hfamily]
  · rw [if_pos hfamily, within_tpx3Members_bind fun members₂ => within_putConfig members₂]
    simp [indexable, hfamily, and_assoc]

theorem within_writeConfig_iff {r : ConfigReplies} {config_j : Json} {s₀ : Driver} :
    Within (fun _ => False) (writeConfig values r s config_j) s₀ ↔ ConfigWritable s config_j := by
  by_cases hindexable : indexable config_j = true
  · cases config_j with
    | null => exact within_writeConfig_object []
    | object members => exact within_writeConfig_object members
    | boolean b => cases hindexable
    | number_integer z => cases hindexable
    | number_float q => cases hindexable
    | string t => cases hindexable
    | array es => cases hindexable
  · refine iff_of_false (fun h => ?_) fun h => hindexable h.1
    exact (commonMembers_throws (by simpa using hindexable)).bind.not_within id s₀ h

theorem within_configure_iff {r : ConfigReplies} :
    Within (fun _ => False) (configure values r) s ↔
      ∃ config_j, r.config.json = some config_j ∧
        (s.mpx3BothCountersTriggerConflict ∨ ConfigWritable s config_j) := by
  unfold configure parse
  rw [within_orFault_bind]
  cases hjson : r.config.json with
  | none => simp
  | some config_j =>
    have hconflict : { s with triggerMode := s.triggerModeIdx }.mpx3BothCountersTriggerConflict =
        s.mpx3BothCountersTriggerConflict := by
      unfold Driver.mpx3BothCountersTriggerConflict
      rw [triggerModeIdx_idem]
    simp only [reduceCtorEq, false_imp_iff, true_and, Option.some.injEq, forall_eq', exists_eq_left',
      within_modify_bind, within_get_bind, hconflict]
    cases s.mpx3BothCountersTriggerConflict with
    | true => simp
    | false =>
      simp only [Bool.false_eq_true, if_false, false_or]
      exact within_writeConfig_iff

/-! ## All calls -/

/-- `getDetector` leaves the state that `familyDetected` describes. -/
theorem outcome_detectFamily {detector : Response}
    (h : s.detectorFamily_ = .Unknown → DetectorAnswered dump detector) :
    outcome (detectFamily dump detector) s = (.ok (), s.familyDetected dump detector) := by
  unfold detectFamily Driver.familyDetected
  rw [outcome_bind_of_ok (outcome_get s)]
  by_cases hunknown : s.detectorFamily_ = .Unknown
  · have hreturns : Returns (getDetector dump detector) s := getDetector_returns_iff.mpr (h hunknown)
    obtain ⟨status, hok⟩ := hreturns
    have hstate := @getDetector_state dump s detector (h hunknown)
    rcases hx : outcome (getDetector dump detector) s with ⟨result, s'⟩
    rw [hx] at hok hstate
    obtain rfl : result = .ok status := hok
    rw [if_pos hunknown]
    refine (outcome_bind_of_ok hx).trans (Prod.ext rfl (hstate.trans ?_))
    by_cases hstatus : detector.status_code = 200
    · rw [if_pos hstatus, if_pos ⟨hunknown, hstatus⟩]
    · rw [if_neg hstatus, if_neg fun h => hstatus h.2]
  · rw [if_neg hunknown, if_neg fun h => hunknown h.1]
    rfl

theorem initAcquisition_returns_iff {r : ConfigReplies} :
    Returns (initAcquisition dump values r) s ↔ ConfigAnswered dump r s := by
  unfold initAcquisition ConfigAnswered
  by_cases hstatus : r.config.status_code = 200
  swap
  · rw [if_pos hstatus]
    exact iff_of_true (returns_pure _) fun h => absurd h hstatus
  rw [if_neg (not_not.mpr hstatus), returns_iff_within]
  by_cases hdetector : s.detectorFamily_ = .Unknown → DetectorAnswered dump r.detector
  · rw [within_bind_of_ok (outcome_detectFamily hdetector), within_configure_iff]
    exact ⟨fun h _ => ⟨hdetector, h⟩, fun h => (h hstatus).2⟩
  · refine iff_of_false (fun h => hdetector fun hunknown => ?_) fun h => hdetector (h hstatus).1
    have hfamily : Within (fun _ => False) (detectFamily dump r.detector) s := (within_bind.mp h).1
    unfold detectFamily at hfamily
    rw [within_get_bind, if_pos hunknown] at hfamily
    exact getDetector_returns_iff.mp (returns_iff_within.mpr (within_bind.mp hfamily).1)

/-- A call returns exactly when its replies and the state are as `Answered` says. -/
theorem answered_iff (dump : Json → String) (c : Call) (s : Driver) :
    Returns (c.run dump) s ↔ c.Answered dump s := by
  cases c with
  | initAcquisition values r => exact initAcquisition_returns_iff
  | acquireStop stop measurement => exact acquireStop_returns_iff
  | getHealth r => exact getHealth_returns_iff
  | getDetector r => exact getDetector_returns_iff
  | getServer r => exact iff_of_true getServer_returns trivial
  | getMeasurementConfig r => exact iff_of_true getMeasurementConfig_returns trivial
  | sendMeasurementConfig p get put => exact sendMeasurementConfig_returns_iff
  | checkConnection r => exact iff_of_true checkConnection_returns trivial
  | writeDac dac value get put => exact writeDac_returns_iff

/-- The page of a proxy, where the measurement should be: `acquireStop` throws. -/
theorem not_returns_acquireStop :
    ¬∀ (dump : Json → String) (c : Call) (s : Driver), Returns (c.run dump) s := by
  intro h
  obtain ⟨status, hstatus⟩ := h (fun _ => "")
    (.acquireStop ⟨200, "{}", some (.object [])⟩ ⟨200, "<html></html>", none⟩)
    ⟨.TPX3, 0, 0, 0, 0, 0, 0, 0, 0, 0⟩
  cases hstatus

end ADTimePix3.Serval.Replies
