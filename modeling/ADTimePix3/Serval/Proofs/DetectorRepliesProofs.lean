import ADTimePix3.Serval.Proofs.RepliesProofs

/-!
# Proofs: faults from the description of the detector

The reads of `getDetector`, stage by stage: what each of them ends with, and in which state.

Main results: `within_getDetectorReads_iff`, `getDetectorReads_state`.
-/

namespace ADTimePix3.Serval.Replies

open Faults
open Acquire (Response)
open Connection (memberOrNull)
open Guard (jsonStringOr triggerModeIndexFromServal)
open ADTimePix3.Stream (Json)

variable {dump : Json → String} {inv : Driver → Prop} {allowed : Fault → Prop} {s : Driver} {key : String}
  {keys : List String} {j v Info cfg detector_j : Json} {i n chip : ℕ} {members : List (String × Json)}
  {body : Json → Action Unit}

/-! ## The health of the detector -/

theorem element_of_lt (h : i < (elements j).length) : element i j = pure (elements j)[i] := by
  cases j with
  | array es =>
    have hget : es[i]? = some es[i] := List.getElem?_eq_getElem h
    show orFault Fault.undefined es[i]? = _
    rw [hget]
    rfl
  | null => cases h
  | boolean b => cases h
  | number_integer z => cases h
  | number_float q => cases h
  | string t => cases h
  | object members => cases h

theorem settles_element (h : i < (elements j).length) : Settles inv (element i j) := by
  rw [element_of_lt h]
  exact settles_pure _

theorem settles_chipVoltages : Settles inv (chipVoltages j) :=
  settles_forM fun _ _ => settles_forM fun _ _ => settles_whenContains finds_constIndex fun _ _ =>
    Settles.ite (fun h => (settles_element h).bind fun _ => settles_whenNumber_getDouble) fun _ => settles_pure ()

theorem settles_readArrays : Settles inv (readArrays keys j) :=
  settles_forM fun _ _ => Settles.ite (fun _ => settles_copyMembers) fun _ => settles_pure ()

theorem settles_healthOfBoards : Settles inv (healthOfBoards j) := by
  refine Settles.ite (fun _ => settles_pure ()) fun hne => ?_
  refine (settles_element (List.length_pos_iff.mpr hne)).bind fun H0 => ?_
  refine Settles.ite (fun _ => ?_) fun _ => settles_pure ()
  refine settles_copyMembers.bind fun _ => settles_readArrays.bind fun _ => ?_
  refine (Settles.ite (fun _ => settles_copyMembers) fun _ => settles_pure ()).bind fun _ => ?_
  refine (Settles.ite (fun _ => settles_readArrays) fun _ => settles_copyMembers).bind fun _ => ?_
  refine settles_chipVoltages.bind fun _ => ?_
  refine Settles.ite (fun hlt => ?_) fun _ => settles_pure ()
  refine (settles_element hlt).bind fun H1 => ?_
  exact Settles.ite (fun _ => settles_chipVoltages) fun _ => settles_pure ()

theorem settles_updateDetectorHealthFromJson : Settles inv (updateDetectorHealthFromJson j) :=
  settles_whenContains finds_constIndex fun _ _ =>
    Settles.ite (fun _ => settles_healthOfBoards) fun _ =>
      Settles.ite (fun _ => settles_copyMembers.bind fun _ => settles_chipVoltages) fun _ => settles_pure ()

/-! ## Integers and members -/

theorem readInt_eq : readInt key j = orFault .exception (intOf key j) := by
  unfold readInt intOf index
  cases memberOrNull key j <;> rfl

theorem intOf_eq_none (h : indexable j = false) : intOf key j = none := by
  rw [intOf, memberOrNull_eq_none_iff.mpr h]
  rfl

theorem outcome_constMembers (hkeys : keys ≠ []) :
    outcome (constMembers keys j) s =
      if isObject j then if keys.all fun key => j.contains key then (.ok (), s) else (.error .undefined, s)
      else (.error .exception, s) := by
  obtain ⟨key, rest, rfl⟩ := List.exists_cons_of_ne_nil hkeys
  cases j with
  | object members =>
    exact outcome_forEach (e := Fault.undefined) (key :: rest) (fun key => members.lookup key) s
  | null => rfl
  | boolean b => rfl
  | number_integer z => rfl
  | number_float q => rfl
  | string t => rfl
  | array es => rfl

/-! ## The counts and the family -/

theorem outcome_readCounts :
    outcome (readCounts Info) s =
      if countsRead Info then
        if rowsDivide Info then (.ok ((intOf "NumberOfChips" Info).getD 0), s) else (.error .undefined, s)
      else (.error .exception, s) := by
  unfold readCounts
  rw [outcome_bind, outcome_forEach]
  cases hindexable : indexable Info with
  | false => simp [countsRead, intOf_eq_none hindexable, memberOrNull_eq_none_iff.mpr hindexable]
  | true =>
    have hsome : ∀ key, (memberOrNull key Info).isSome = true := fun key => by
      rw [Option.isSome_iff_ne_none, ne_eq, memberOrNull_eq_none_iff, hindexable]
      simp
    simp only [readInt_eq, hsome, List.all_cons, List.all_nil, Bool.and_self, if_true]
    rcases Option.eq_none_or_eq_some (intOf "PixCount" Info) with hpix | ⟨p, hpix⟩
    · simp [hpix, countsRead, orFault]
    rcases Option.eq_none_or_eq_some (intOf "RowLen" Info) with hrow | ⟨l, hrow⟩
    · simp [hpix, hrow, countsRead, orFault]
    rcases Option.eq_none_or_eq_some (intOf "NumberOfChips" Info) with hchips | ⟨n, hchips⟩
    · simp [hpix, hrow, hchips, countsRead, orFault]
    rcases Option.eq_none_or_eq_some (intOf "NumberOfRows" Info) with hrows | ⟨r, hrows⟩
    · simp [hpix, hrow, hchips, hrows, countsRead, orFault]
    have hcounts : countsRead Info = true := by simp [countsRead, hpix, hrow, hchips, hrows]
    have hrowsDivide : rowsDivide Info = true ↔ ¬(r = 0 ∨ p = -2 ^ 31 ∧ r = -1) := by
      simp [rowsDivide, hpix, hrows, imp_iff_not_or]
    have hdivide : outcome (divide p r) s =
        (if rowsDivide Info then .ok (p.tdiv r) else .error .undefined, s) := by
      unfold divide
      by_cases hfault : r = 0 ∨ p = -2 ^ 31 ∧ r = -1
      · rw [if_pos hfault, if_neg fun h => hrowsDivide.mp h hfault]
        rfl
      · rw [if_neg hfault, if_pos (hrowsDivide.mpr hfault)]
        rfl
    rw [hcounts, if_pos rfl, hpix, hrow, hchips, hrows]
    simp only [orFault, pure_bind, outcome_bind, hdivide]
    cases rowsDivide Info <;> rfl

theorem boardsOf_eq : boardsOf Info = pure (boardsIn Info) := by
  unfold boardsOf boardsIn Json.contains
  cases hmember : Info.member "Boards" with
  | none => rfl
  | some Boards =>
    rw [Option.isSome_some, if_pos rfl, finds_index hmember, pure_bind]
    rfl

theorem chipTypeOf_eq :
    chipTypeOf dump Info = pure (((Info.member "ChipType").map fun v => strip_quotes (dump v)).getD "") := by
  unfold chipTypeOf Json.contains
  cases hmember : Info.member "ChipType" with
  | none => rfl
  | some ChipType =>
    rw [Option.isSome_some, if_pos rfl, finds_index hmember, pure_bind]
    rfl

theorem chipboardIdOf_eq (Boards : List Json) :
    chipboardIdOf dump Boards =
      pure (((Boards.head?.bind fun B0 => B0.member "ChipboardId").map fun v => strip_quotes (dump v)).getD "") := by
  cases Boards with
  | nil => rfl
  | cons B0 Boards =>
    rw [List.head?_cons, Option.bind_some]
    unfold chipboardIdOf Json.contains
    cases hmember : B0.member "ChipboardId" with
    | none => simp [hmember]
    | some ChipboardId => simp [hmember, finds_index hmember]

theorem outcome_readFamily :
    outcome (readFamily dump Info) s =
      if (intOf "MpxType" Info).isSome then (.ok (), { s with detectorFamily_ := familyIn dump Info })
      else (.error .exception, s) := by
  unfold readFamily
  simp only [readInt_eq, chipTypeOf_eq, boardsOf_eq, chipboardIdOf_eq, pure_bind]
  rcases Option.eq_none_or_eq_some (intOf "MpxType" Info) with hmpx | ⟨m, hmpx⟩
  · simp [hmpx, orFault]
  · simp [hmpx, orFault, updateDetectorFamily, familyIn]

/-! ## Boards -/

theorem settles_chipBoardEntryLabel : Settles inv (chipBoardEntryLabel j) := by
  have hid : Settles inv (whenContains constIndex "Id" j fun v =>
      if isString v then discard (getString v) else whenInteger v) :=
    settles_whenContains finds_constIndex fun v _ => by
      cases v <;> exact settles_pure _
  refine Settles.ite (fun h => ?_) fun _ => Settles.ite (fun _ => hid) fun _ => settles_pure ()
  obtain ⟨Name, hName⟩ := exists_member (Bool.and_eq_true_iff.mp h).2
  rw [finds_constIndex hName, pure_bind]
  cases Name <;> first | exact hid | exact settles_pure _

theorem settles_boardChips : Settles inv (boardChips n j) :=
  settles_whenContains finds_constIndex fun _ _ =>
    Settles.ite (fun _ => settles_forM fun _ _ => settles_chipBoardEntryLabel) fun _ => settles_pure ()

theorem outcome_board :
    outcome (board n j) s =
      if isObject j then
        if j.contains "ChipboardId" && j.contains "IpAddress" then (.ok (), s) else (.error .undefined, s)
      else (.error .exception, s) := by
  have hchips : outcome (boardChips n j) s = (.ok (), s) := outcome_of_settles settles_boardChips
  unfold board
  rw [outcome_bind, outcome_constMembers (by simp)]
  simp only [List.all_cons, List.all_nil, Bool.and_true]
  cases isObject j with
  | false => rfl
  | true => cases j.contains "ChipboardId" && j.contains "IpAddress" <;> simp [hchips]

theorem outcome_boards_of_defined {Boards : List Json} (h : BoardsDefined Boards) :
    outcome (boards Boards) s = if boardsRead Boards then (.ok (), s) else (.error .exception, s) := by
  rcases Boards with _ | ⟨B0, _ | ⟨B1, Boards⟩⟩
  · rfl
  · have h0 : BoardDefined B0 := h
    cases hobj : isObject B0 with
    | false => simp [boards, outcome_board, boardsRead, hobj]
    | true => simp [boards, outcome_board, boardsRead, hobj, h0 hobj]
  · obtain ⟨h0, h1⟩ := h
    cases hobj : isObject B0 with
    | false => simp [boards, outcome_bind, outcome_board, boardsRead, hobj]
    | true =>
      cases hobj1 : isObject B1 with
      | false => simp [boards, outcome_bind, outcome_board, boardsRead, hobj, hobj1, h0 hobj]
      | true => simp [boards, outcome_bind, outcome_board, boardsRead, hobj, hobj1, h0 hobj, h1 hobj hobj1]

theorem outcome_board_of_not_defined (h : ¬BoardDefined j) : outcome (board n j) s = (.error .undefined, s) := by
  obtain ⟨hobj, hmissing⟩ := Classical.not_imp.mp h
  have hfalse : (j.contains "ChipboardId" && j.contains "IpAddress") = false := by simpa using hmissing
  rw [outcome_board, if_pos hobj, hfalse]
  rfl

theorem outcome_boards_of_not_defined {Boards : List Json} (h : ¬BoardsDefined Boards) :
    outcome (boards Boards) s = (.error .undefined, s) := by
  rcases Boards with _ | ⟨B0, _ | ⟨B1, Boards⟩⟩
  · exact absurd trivial h
  · exact outcome_board_of_not_defined h
  · by_cases h0 : BoardDefined B0
    · obtain ⟨hobj, h1⟩ := Classical.not_imp.mp fun h1 => h ⟨h0, h1⟩
      have hok : outcome (board 1 B0) s = (.ok (), s) := by
        rw [outcome_board, if_pos hobj]
        simp [h0 hobj]
      exact (outcome_bind_of_ok hok).trans (outcome_board_of_not_defined h1)
    · exact outcome_bind_of_error (outcome_board_of_not_defined h0)

/-! ## The configuration -/

theorem constMembers_object : constMembers keys (.object members) =
    forEach .undefined keys fun key => members.lookup key := rfl

theorem whenContains_modify {get : String → Json → Action Json} (hget : Finds get) (g : Json → Driver → Driver) :
    whenContains get key j (fun v => modify (g v)) =
      modify fun s => ((j.member key).map fun v => g v s).getD s := by
  unfold whenContains Json.contains
  cases hmember : j.member key with
  | none => rfl
  | some v =>
    rw [Option.isSome_some, if_pos rfl, hget hmember, pure_bind]
    rfl

theorem settles_delays {idelay : Json} :
    Settles inv ((List.range 4).forM fun i =>
      if i < (elements idelay).length then discard (element i idelay) else pure ()) :=
  settles_forM fun _ _ => Settles.ite (fun h => (settles_element h).discard) fun _ => settles_pure ()

/-- The members are there. -/
def ContainsAll (keys : List String) (members : List (String × Json)) : Prop :=
  ∀ key ∈ keys, (Json.object members).contains key

theorem outcome_constMembers_of_containsAll (h : ContainsAll keys members) :
    outcome (constMembers keys (.object members)) s = (.ok (), s) := by
  have hall : (keys.all fun key => (members.lookup key).isSome) = true := List.all_eq_true.mpr h
  rw [constMembers_object, outcome_forEach, if_pos hall]

theorem settles_constMembers (h : ContainsAll keys members) : Settles inv (constMembers keys (.object members)) :=
  fun s hs => ⟨(), s, outcome_constMembers_of_containsAll h, hs⟩

theorem blocked_constMembers (h : ¬ContainsAll keys members) :
    Blocked .undefined (constMembers keys (.object members)) := by
  intro s
  have hall : ¬(keys.all fun key => (members.lookup key).isSome) = true := fun hall => h (List.all_eq_true.mp hall)
  rw [constMembers_object, outcome_forEach, if_neg hall]

theorem settles_whenContains_modify {g : Json → Driver → Driver} :
    Settles (fun _ => True) (whenContains constIndex key j fun v => modify (g v)) :=
  settles_whenContains finds_constIndex fun _ _ => settles_modify fun _ _ => trivial

/-- A member that is missing stops the read-back, at the latest at `LogLevel`. -/
theorem blocked_configReadback (h : ¬ContainsAll configMembers members) :
    Blocked .undefined (configReadback (.object members)) := by
  have hmodify : ∀ g : Driver → Driver, Settles (fun _ => True) (modify g : Action Unit) :=
    fun _ => settles_modify fun _ _ => trivial
  unfold configReadback
  by_cases hfans : ContainsAll ["Fan1PWM", "Fan2PWM", "BiasVoltage"] members
  swap
  · exact (blocked_constMembers hfans).bind
  refine (settles_constMembers hfans).blocked_bind fun _ => ?_
  cases hbias : members.lookup "BiasEnabled" with
  | none =>
    refine Blocked.bind fun s => ?_
    rw [constIndex, hbias]
    rfl
  | some BiasEnabled =>
    have hmember : (Json.object members).member "BiasEnabled" = some BiasEnabled := hbias
    rw [finds_constIndex hmember, pure_bind]
    refine (hmodify _).blocked_bind fun _ => ?_
    by_cases htrigger : ContainsAll ["TriggerIn", "TriggerOut"] members
    swap
    · exact (blocked_constMembers htrigger).bind
    refine (settles_constMembers htrigger).blocked_bind fun _ => ?_
    refine settles_whenContains_modify.blocked_bind fun _ => ?_
    refine settles_whenContains_modify.blocked_bind fun _ => ?_
    refine settles_whenContains_modify.blocked_bind fun _ => ?_
    by_cases htimes : ContainsAll ["ExposureTime", "TriggerPeriod", "nTriggers"] members
    swap
    · exact (blocked_constMembers htimes).bind
    refine (settles_constMembers htimes).blocked_bind fun _ => ?_
    refine (settles_pure _).blocked_bind fun _ => (hmodify _).blocked_bind fun _ => ?_
    refine (settles_forM fun _ _ => settles_pure _).blocked_bind fun _ => ?_
    refine (settles_pure _).blocked_bind fun _ => (hmodify _).blocked_bind fun _ => ?_
    have hlog : ¬ContainsAll ["LogLevel"] members := by
      intro hlog
      refine h fun key hkey => ?_
      have hcontains : (Json.object members).contains "BiasEnabled" = true := by simp [Json.contains, hmember]
      simp only [configMembers, List.mem_cons, List.not_mem_nil, or_false] at hkey
      rcases hkey with rfl | rfl | rfl | rfl | rfl | rfl | rfl | rfl | rfl | rfl
      · exact hfans _ (by simp)
      · exact hfans _ (by simp)
      · exact hfans _ (by simp)
      · exact hcontains
      · exact htrigger _ (by simp)
      · exact htrigger _ (by simp)
      · exact htimes _ (by simp)
      · exact htimes _ (by simp)
      · exact htimes _ (by simp)
      · exact hlog _ (by simp)
    exact (blocked_constMembers hlog).bind

theorem ContainsAll.mono {keys' : List String} (h : ContainsAll keys members) (hsub : keys' ⊆ keys) :
    ContainsAll keys' members :=
  fun key hkey => h key (hsub hkey)

/-- A parameter that is overwritten where the configuration has the member. -/
theorem outcome_whenContains_put {g : Json → ℤ} (put : ℤ → Driver → Driver) (read : Driver → ℤ)
    (hput : ∀ s, put (read s) s = s) :
    outcome (whenContains constIndex key j fun v => modify fun s => put (g v) s) s =
      (.ok (), put (((j.member key).map g).getD (read s)) s) := by
  rw [whenContains_modify finds_constIndex fun v s => put (g v) s]
  cases j.member key with
  | none => exact Prod.ext rfl (hput s).symm
  | some v => rfl

theorem outcome_configReadback (h : ContainsAll configMembers members) :
    outcome (configReadback (.object members)) s = (.ok (), s.readBack (.object members)) := by
  have hconst : ∀ keys : List String, keys ⊆ configMembers → ∀ s,
      outcome (constMembers keys (.object members)) s = (.ok (), s) := fun keys hsub s =>
    outcome_constMembers_of_containsAll (h.mono hsub)
  obtain ⟨BiasEnabled, hbias⟩ := exists_member (h "BiasEnabled" (by simp [configMembers]))
  have hvalue : ∀ key s, outcome (valueOrNull key (.object members)) s =
      (.ok (((Json.object members).member key).getD .null), s) := fun _ _ => rfl
  have hvalues : ∀ s, outcome (["TriggerDelay", "Tdc", "GlobalTimestampInterval"].forM fun key =>
      discard (valueOrNull key (.object members))) s = (.ok (), s) := fun _ => rfl
  have hrest : ∀ s, outcome (copyMembers ["GainMode", "ChargeSumming", "Colour", "PixelDepth", "CounterSelectIn",
      "CounterSelectOut"] (.object members) >>= fun _ =>
        whenContains constIndex "IDelayConfig" (.object members) fun idelay =>
          (List.range 4).forM fun i => if i < (elements idelay).length then discard (element i idelay) else pure ())
      s = (.ok (), s) := fun s =>
    outcome_of_settles (settles_copyMembers.bind fun _ =>
      settles_whenContains finds_constIndex fun _ _ => settles_delays)
  unfold configReadback
  rw [outcome_bind_of_ok (hconst _ (by simp [configMembers]) s), finds_constIndex hbias, pure_bind,
    outcome_bind_of_ok (outcome_modify _ _), outcome_bind_of_ok (hconst _ (by simp [configMembers]) _),
    outcome_bind_of_ok (outcome_whenContains_put (fun z s => { s with polarity := z }) (·.polarity) fun _ => rfl),
    outcome_bind_of_ok (outcome_whenContains_put (fun z s => { s with chainMode := z }) (·.chainMode) fun _ => rfl),
    outcome_bind_of_ok
      (outcome_whenContains_put (fun z s => { s with triggerMode := z }) (·.triggerMode) fun _ => rfl),
    outcome_bind_of_ok (hconst _ (by simp [configMembers]) _), outcome_bind_of_ok (hvalue _ _),
    outcome_bind_of_ok (outcome_modify _ _), outcome_bind_of_ok (hvalues _),
    outcome_bind_of_ok (hvalue _ _), outcome_bind_of_ok (outcome_modify _ _),
    outcome_bind_of_ok (hconst _ (by simp [configMembers]) _),
    outcome_bind_of_ok
      (outcome_whenContains_put (fun z s => { s with bothCounters := z }) (·.bothCounters) fun _ => rfl),
    hrest]
  simp only [Driver.readBack, hbias, Option.getD_some]

/-- The four ways in which the read of the configuration ends. -/
theorem outcome_readConfig (members : List (String × Json)) (s : Driver)
    (hcfg : memberOrNull "Config" detector_j = some cfg) :
    (¬ContainsAll infoMembers members →
      (outcome (readConfig (.object members) detector_j) s).1 = .error .undefined) ∧
    (ContainsAll infoMembers members → isObject cfg = false →
      outcome (readConfig (.object members) detector_j) s = (.error .exception, s)) ∧
    (ContainsAll infoMembers members → ∀ cfgMembers, cfg = .object cfgMembers →
      (¬ContainsAll configMembers cfgMembers →
        (outcome (readConfig (.object members) detector_j) s).1 = .error .undefined) ∧
      (ContainsAll configMembers cfgMembers →
        outcome (readConfig (.object members) detector_j) s = (.ok (), s.readBack cfg))) := by
  have hindex : index "Config" detector_j = pure cfg := by
    unfold index
    rw [hcfg]
    rfl
  unfold readConfig
  rw [hindex, pure_bind]
  refine ⟨fun hinfo => (blocked_constMembers hinfo).bind s, fun hinfo hobj => ?_, fun hinfo cfgMembers hobj => ?_⟩
  · rw [outcome_bind_of_ok (outcome_constMembers_of_containsAll hinfo)]
    refine (outcome_bind_of_ok rfl).trans (outcome_bind_of_error ?_)
    rw [outcome_constMembers (by simp), hobj]
    rfl
  · subst hobj
    rw [outcome_bind_of_ok (outcome_constMembers_of_containsAll hinfo)]
    refine ⟨fun hmissing => ?_, fun hall => ?_⟩
    · exact (Settles.blocked_bind (settles_pure _) fun _ => blocked_configReadback hmissing) s
    · exact (outcome_bind_of_ok rfl).trans (outcome_configReadback hall)

/-! ## Chips -/

theorem settles_temperatureOfBoards {blocks : List Json} {offset : ℕ} (h : offset ≤ chip) :
    Settles inv (temperatureOfBoards chip blocks offset) := by
  induction blocks generalizing offset with
  | nil => exact settles_pure ()
  | cons block blocks ih =>
    refine Settles.ite (fun hc => ?_) fun _ => ih h
    obtain ⟨ct, hct⟩ := exists_member (Bool.and_eq_true_iff.mp hc).2
    rw [finds_constIndex hct, pure_bind]
    refine Settles.ite (fun _ => Settles.ite (fun hlt => ?_) fun hge => ih (by omega)) fun _ => ih h
    exact (settles_element (by omega)).bind fun _ => settles_whenNumber_getDouble

theorem healthBare_eq_true_iff : healthBare j = true ↔
    ∃ members, j.member "Health" = some (.object members) ∧ members.lookup "ChipTemperatures" = none := by
  unfold healthBare
  split
  · rename_i members hmember
    simp [hmember]
  · rename_i hmember
    simp only [Bool.false_eq_true, false_iff]
    rintro ⟨members, h, -⟩
    exact hmember members h

theorem settles_chipTemperature (h : healthBare j = false) : Settles inv (chipTemperature j chip) := by
  refine settles_whenContains finds_index fun Health hHealth => ?_
  refine Settles.ite (fun _ => ?_) fun _ => Settles.ite (fun hobj => ?_) fun _ => settles_pure ()
  · exact settles_whenContains finds_constIndex fun _ _ => settles_temperatureOfBoards (Nat.zero_le chip)
  · refine settles_whenContains finds_constIndex fun Health' hHealth' => ?_
    refine Settles.ite (fun _ => ?_) fun _ => settles_pure ()
    obtain rfl : Health' = Health := Option.some.inj (hHealth'.symm.trans hHealth)
    cases Health' with
    | object members =>
      cases hct : members.lookup "ChipTemperatures" with
      | none => exact absurd (healthBare_eq_true_iff.mpr ⟨members, hHealth, hct⟩) (by simp [h])
      | some ct =>
        have hmember : (Json.object members).member "ChipTemperatures" = some ct := hct
        rw [finds_constIndex hmember, pure_bind]
        exact Settles.ite (fun hlt => (settles_element hlt).bind fun _ => settles_whenNumber_getDouble)
          fun _ => settles_pure ()
    | null => cases hobj
    | boolean b => cases hobj
    | number_integer z => cases hobj
    | number_float q => cases hobj
    | string t => cases hobj
    | array es => cases hobj

/-- `Health` is asked for temperatures that it does not have. -/
theorem outcome_chipTemperature_of_bare (h : healthBare j = true) :
    outcome (chipTemperature j chip) s = (.error .undefined, s) := by
  obtain ⟨members, hHealth, hct⟩ := healthBare_eq_true_iff.mp h
  have hcontains : j.contains "Health" = true := by simp [Json.contains, hHealth]
  unfold chipTemperature whenContains
  rw [if_pos hcontains, finds_index hHealth, pure_bind]
  show outcome (chipTemperatureFromHealthV3 j chip) s = _
  unfold chipTemperatureFromHealthV3 whenContains
  rw [if_pos hcontains, finds_constIndex hHealth, pure_bind]
  show outcome (constIndex "ChipTemperatures" (.object members) >>= _) s = _
  rw [constIndex, hct]
  rfl

theorem forM_readInt (dacs : Json) :
    (dacMembers.forM fun key => discard (readInt key dacs)) =
      forEach Fault.exception dacMembers fun key => intOf key dacs := by
  unfold forEach
  simp only [readInt_eq]

theorem within_fetchDacsOf (h : healthBare j = false) (c : Json) (s : Driver) :
    Within (· = Fault.exception) (fetchDacsOf j chip c) s := by
  have htemp : ∀ s, Within (· = Fault.exception) (chipTemperature j chip) s :=
    fun s => within_of_settles (settles_chipTemperature h) s
  unfold fetchDacsOf
  refine Within.bind (by simp [index]) fun dacs s => ?_
  rw [within_get_bind]
  split
  · exact htemp s
  · rw [forM_readInt]
    refine Within.bind (by simp) fun _ s => (htemp s).bind fun _ s => ?_
    exact Within.bind (by simp [index]) fun _ s => within_pure.mpr trivial

/-- Without temperatures, it does not get through: it throws before it asks for one, or asks for it. -/
theorem outcome_fetchDacsOf_of_bare (h : healthBare j = true) (c : Json) :
    outcome (fetchDacsOf j chip c) s =
      match memberOrNull "DACs" c with
      | none => (.error .exception, s)
      | some dacs =>
        if temperatureRead s.detectorFamily_ dacs then (.error .undefined, s) else (.error .exception, s) := by
  cases hdacs : memberOrNull "DACs" c with
  | none =>
    refine outcome_bind_of_error ?_
    rw [index, hdacs]
    rfl
  | some dacs =>
    have hindex : index "DACs" c = pure dacs := by
      rw [index, hdacs]
      rfl
    unfold fetchDacsOf
    rw [hindex, pure_bind, outcome_bind_of_ok (outcome_get s)]
    by_cases hmpx : s.detectorFamily_ = .MPX3 ∨ ¬dacs.contains "Ibias_Preamp_ON"
    · have hread : temperatureRead s.detectorFamily_ dacs = true := by
        rcases hmpx with hmpx | hpreamp
        · simp [temperatureRead, hmpx]
        · simp [temperatureRead, hpreamp]
      rw [if_pos hmpx, outcome_chipTemperature_of_bare h]
      simp [hread]
    · obtain ⟨hfamily, hpreamp⟩ := not_or.mp hmpx
      have hread : temperatureRead s.detectorFamily_ dacs = dacMembers.all fun key => (intOf key dacs).isSome := by
        simp [temperatureRead, hfamily, not_not.mp hpreamp]
      rw [if_neg hmpx, forM_readInt, outcome_bind, outcome_forEach]
      simp only [hread]
      cases dacMembers.all fun key => (intOf key dacs).isSome with
      | false => rfl
      | true => exact outcome_bind_of_error (outcome_chipTemperature_of_bare h)

theorem readOnly_whenContains {get : String → Json → Action Json} (hget : ReadOnly (get key j))
    (hbody : ∀ v, ReadOnly (body v)) : ReadOnly (whenContains get key j body) :=
  ReadOnly.ite (hget.bind hbody) (readOnly_pure ())

theorem readOnly_of_settles {x : Action Unit} (h : ∀ s, Settles (· = s) x) : ReadOnly x := by
  intro s
  rw [outcome_of_settles (h s)]

theorem readOnly_index : ReadOnly (index key j) := readOnly_orFault _ _

theorem readOnly_chipTemperature : ReadOnly (chipTemperature j chip) := by
  cases h : healthBare j with
  | false => exact readOnly_of_settles fun _ => settles_chipTemperature h
  | true =>
    intro s
    rw [outcome_chipTemperature_of_bare h]

theorem readOnly_fetchDacs : ReadOnly (fetchDacs j chip) := by
  refine readOnly_whenContains readOnly_index fun Chips => ?_
  split
  · exact readOnly_pure ()
  · refine readOnly_index.bind fun dacs => readOnly_get.bind fun s => ReadOnly.ite readOnly_chipTemperature ?_
    refine ReadOnly.bind ?_ fun _ => readOnly_chipTemperature.bind fun _ => readOnly_index.discard
    rw [forM_readInt]
    exact readOnly_forM fun key _ => (readOnly_orFault _ _).discard

theorem settles_detectorOrientation : Settles inv (detectorOrientation j) :=
  settles_whenObject fun _ => settles_whenContains finds_index fun _ _ => settles_pure ()

theorem settles_chipLayout : Settles inv (chipLayout j chip) :=
  settles_whenObject fun _ => settles_whenObject fun _ => settles_whenContains finds_index fun _ _ =>
    Settles.ite (fun h => (settles_element h).discard) fun _ => settles_pure ()

theorem readOnly_chips {number_chips : ℤ} : ReadOnly (chips j number_chips) := by
  refine readOnly_fetchDacs.bind fun _ => ?_
  refine (readOnly_of_settles fun _ => settles_detectorOrientation).bind fun _ => ?_
  refine (readOnly_of_settles fun _ => settles_chipLayout).bind fun _ => ?_
  exact readOnly_forM fun chip _ => readOnly_fetchDacs.bind fun _ => readOnly_of_settles fun _ => settles_chipLayout

/-- The chips of a description. -/
def chipsIn (detector_j : Json) : List Json := elements ((detector_j.member "Chips").getD .null)

theorem fetchDacs_eq : fetchDacs j chip =
    match (chipsIn j)[chip]? with
    | none => pure ()
    | some c => fetchDacsOf j chip c := by
  unfold fetchDacs whenContains Json.contains chipsIn
  cases hmember : j.member "Chips" with
  | none => rfl
  | some Chips =>
    rw [Option.isSome_some, if_pos rfl, finds_index hmember, pure_bind]
    rfl

theorem within_fetchDacs (h : healthBare j = false ∨ chipsIn j = []) (s : Driver) :
    Within (· = Fault.exception) (fetchDacs j chip) s := by
  rw [fetchDacs_eq]
  rcases h with hbare | hnil
  · split
    · exact within_pure.mpr trivial
    · exact within_fetchDacsOf hbare _ s
  · rw [hnil]
    exact within_pure.mpr trivial

theorem within_chips_iff {number_chips : ℤ} :
    Within (· = Fault.exception) (chips j number_chips) s ↔ TemperatureDefined s.detectorFamily_ j := by
  by_cases h : healthBare j = false ∨ chipsIn j = []
  · have hdefined : TemperatureDefined s.detectorFamily_ j := by
      intro hbare c hc
      rcases h with hfalse | hnil
      · rw [hfalse] at hbare
        cases hbare
      · have hchips : elements ((j.member "Chips").getD .null) = [] := hnil
        rw [hchips] at hc
        cases hc
    refine iff_of_true ?_ hdefined
    refine (within_fetchDacs h s).bind fun _ s => ?_
    refine (within_of_settles settles_detectorOrientation s).bind fun _ s => ?_
    refine (within_of_settles settles_chipLayout s).bind fun _ s => ?_
    exact within_forM (fun chip _ s => (within_fetchDacs h s).bind fun _ s => within_of_settles settles_chipLayout s) s
  · obtain ⟨hbare, hne⟩ := not_or.mp h
    have hbare : healthBare j = true := by simpa using hbare
    obtain ⟨c, rest, hcons⟩ := List.exists_cons_of_ne_nil hne
    have hfetch : fetchDacs j 0 = fetchDacsOf j 0 c := by
      rw [fetchDacs_eq, hcons]
      rfl
    have hchips : elements ((j.member "Chips").getD .null) = c :: rest := hcons
    unfold chips TemperatureDefined
    rw [hfetch, hchips]
    refine ⟨fun hwithin _ c' hc' dacs hdacs => ?_, fun htemp => ?_⟩
    · obtain rfl : c = c' := Option.some.inj hc'
      by_contra hread
      have hundefined : outcome (fetchDacsOf j 0 c) s = (.error .undefined, s) := by
        rw [outcome_fetchDacsOf_of_bare hbare, hdacs]
        simp [hread]
      have hfirst := hwithin .undefined (by rw [outcome_bind_of_error hundefined])
      cases hfirst
    · have hthrows : outcome (fetchDacsOf j 0 c) s = (.error .exception, s) := by
        rw [outcome_fetchDacsOf_of_bare hbare]
        cases hdacs : memberOrNull "DACs" c with
        | none => rfl
        | some dacs => simp [htemp hbare c rfl dacs hdacs]
      intro e he
      rw [outcome_bind_of_error hthrows] at he
      exact (Except.error.inj he).symm

/-! ## The description of the detector -/

/-- Nothing is undefined exactly when `defined` holds, and then the state afterwards is `s'`. -/
def Stage (x : Action Unit) (s : Driver) (defined : Prop) (s' : Driver) : Prop :=
  (Within (· = Fault.exception) x s ↔ defined) ∧ (defined → (outcome x s).2 = s')

variable {x : Action Unit} {s' : Driver} {defined : Prop}

theorem stage_of_exception (h : outcome x s = (.error .exception, s')) (hdefined : defined) :
    Stage x s defined s' := by
  refine ⟨iff_of_true (fun e he => ?_) hdefined, fun _ => by rw [h]⟩
  rw [h] at he
  exact (Except.error.inj he).symm

theorem stage_of_undefined (h : (outcome x s).1 = .error .undefined) (hdefined : ¬defined) :
    Stage x s defined s' := by
  refine ⟨iff_of_false (fun hwithin => ?_) hdefined, fun hd => absurd hd hdefined⟩
  cases hwithin .undefined h

theorem Stage.congr_outcome {y : Action Unit} {s₁ : Driver} (hy : Stage y s₁ defined s')
    (h : outcome x s = outcome y s₁) : Stage x s defined s' := by
  unfold Stage Within at *
  rw [h]
  exact hy

/-- What is left once the boards are read. -/
theorem stage_readConfig {number_chips : ℤ} (hj : indexable detector_j = true) :
    Stage (readConfig (.object members) detector_j >>= fun _ => chips detector_j number_chips) s
      (ContainsAll infoMembers members ∧ ∀ cfgMembers,
        memberOrNull "Config" detector_j = some (.object cfgMembers) →
          ContainsAll configMembers cfgMembers ∧ TemperatureDefined s.detectorFamily_ detector_j)
      (match memberOrNull "Config" detector_j with
        | some (.object cfgMembers) => s.readBack (.object cfgMembers)
        | _ => s) := by
  obtain ⟨cfg, hcfg⟩ : ∃ cfg, memberOrNull "Config" detector_j = some cfg :=
    Option.ne_none_iff_exists'.mp fun hnone => by
      rw [memberOrNull_eq_none_iff, hj] at hnone
      cases hnone
  obtain ⟨hnoInfo, hnoObject, hobject⟩ := outcome_readConfig members s hcfg
  rw [hcfg]
  by_cases hinfo : ContainsAll infoMembers members
  swap
  · exact stage_of_undefined (error_bind (hnoInfo hinfo)) fun h => hinfo h.1
  by_cases hobj : ∃ cfgMembers, cfg = .object cfgMembers
  · obtain ⟨cfgMembers, rfl⟩ := hobj
    obtain ⟨hmissing, hall⟩ := hobject hinfo cfgMembers rfl
    by_cases hconfig : ContainsAll configMembers cfgMembers
    swap
    · exact stage_of_undefined (error_bind (hmissing hconfig)) fun h => hconfig (h.2 cfgMembers rfl).1
    have hchips := outcome_bind_of_ok (f := fun _ => chips detector_j number_chips) (hall hconfig)
    refine ⟨?_, fun _ => by rw [hchips]; exact readOnly_chips _⟩
    have hwithin : Within (· = Fault.exception) (chips detector_j number_chips) (s.readBack (.object cfgMembers)) ↔
        TemperatureDefined s.detectorFamily_ detector_j := within_chips_iff
    rw [within_bind_of_ok (hall hconfig), hwithin]
    refine ⟨fun h => ⟨hinfo, fun cfgMembers' h' => ?_⟩, fun h => (h.2 cfgMembers rfl).2⟩
    cases h'
    exact ⟨hconfig, h⟩
  · have hfalse : isObject cfg = false := by
      cases cfg with
      | object cfgMembers => exact absurd ⟨cfgMembers, rfl⟩ hobj
      | _ => rfl
    refine stage_of_exception ?_ ⟨hinfo, fun cfgMembers h => absurd ⟨cfgMembers, Option.some.inj h⟩ hobj⟩
    rw [outcome_bind_of_error (hnoObject hinfo hfalse)]
    split
    · rename_i cfgMembers h
      exact absurd ⟨cfgMembers, Option.some.inj h⟩ hobj
    · rfl

/-- What is left once the family is known. -/
theorem stage_readBoards {number_chips : ℤ} (hj : indexable detector_j = true) :
    Stage (readBoards (.object members) >>= fun _ => readConfig (.object members) detector_j >>= fun _ =>
        chips detector_j number_chips) s
      (BoardsDefined (boardsIn (.object members)) ∧ (boardsRead (boardsIn (.object members)) →
        ContainsAll infoMembers members ∧ ∀ cfgMembers,
          memberOrNull "Config" detector_j = some (.object cfgMembers) →
            ContainsAll configMembers cfgMembers ∧ TemperatureDefined s.detectorFamily_ detector_j))
      (match memberOrNull "Config" detector_j with
        | some (.object cfgMembers) =>
          if boardsRead (boardsIn (.object members)) then s.readBack (.object cfgMembers) else s
        | _ => s) := by
  have heq : readBoards (.object members) = boards (boardsIn (.object members)) := by
    unfold readBoards
    rw [boardsOf_eq, pure_bind]
  rw [heq]
  by_cases hboards : BoardsDefined (boardsIn (.object members))
  swap
  · refine stage_of_undefined ?_ fun h => hboards h.1
    rw [outcome_bind_of_error (outcome_boards_of_not_defined hboards)]
  have houtcome := outcome_boards_of_defined (s := s) hboards
  cases hread : boardsRead (boardsIn (.object members)) with
  | false =>
    rw [hread] at houtcome
    refine stage_of_exception ?_ ⟨hboards, fun h => by cases h⟩
    rw [outcome_bind_of_error houtcome]
    split <;> rfl
  | true =>
    rw [hread] at houtcome
    refine ⟨?_, fun h => ?_⟩
    · rw [within_bind_of_ok houtcome, (stage_readConfig hj).1]
      exact ⟨fun h => ⟨hboards, fun _ => h⟩, fun h => h.2 rfl⟩
    · rw [outcome_bind_of_ok houtcome, (stage_readConfig hj).2 (h.2 rfl)]
      rfl

theorem exists_members_of_countsRead (h : countsRead Info = true) : ∃ members, Info = .object members := by
  have hpix : (intOf "PixCount" Info).isSome = true := (Bool.and_eq_true_iff.mp h).1
  cases Info with
  | object members => exact ⟨members, rfl⟩
  | null => cases hpix
  | boolean b => cases hpix
  | number_integer z => cases hpix
  | number_float q => cases hpix
  | string t => cases hpix
  | array es => cases hpix

/-- What the condition is about once the counts and the family are known. -/
theorem detectorDefined_of_read (hInfo : memberOrNull "Info" detector_j = some (.object members))
    (hread : countsRead (.object members) = true) (hrows : rowsDivide (.object members) = true)
    (hmpx : (intOf "MpxType" (.object members)).isSome = true) :
    DetectorDefined dump detector_j ↔
      BoardsDefined (boardsIn (.object members)) ∧ (boardsRead (boardsIn (.object members)) →
        ContainsAll infoMembers members ∧ ∀ cfgMembers,
          memberOrNull "Config" detector_j = some (.object cfgMembers) →
            ContainsAll configMembers cfgMembers ∧
              TemperatureDefined (familyIn dump (.object members)) detector_j) := by
  constructor
  · intro h
    exact (h _ hInfo hread).2 hmpx
  · intro h Info hInfo' _
    obtain rfl := Option.some.inj (hInfo.symm.trans hInfo')
    exact ⟨hrows, fun _ => h⟩

theorem detected_of_read (hInfo : memberOrNull "Info" detector_j = some (.object members))
    (hread : countsRead (.object members) = true) (hmpx : (intOf "MpxType" (.object members)).isSome = true) :
    s.detected dump detector_j =
      match memberOrNull "Config" detector_j with
      | some (.object cfgMembers) =>
        if boardsRead (boardsIn (.object members)) then
          { s with detectorFamily_ := familyIn dump (.object members) }.readBack (.object cfgMembers)
        else { s with detectorFamily_ := familyIn dump (.object members) }
      | _ => { s with detectorFamily_ := familyIn dump (.object members) } := by
  have hguard : (countsRead (.object members) && (intOf "MpxType" (.object members)).isSome) = true := by
    rw [hread, hmpx]
    rfl
  rw [Driver.detected, hInfo]
  refine (if_pos hguard).trans ?_
  cases memberOrNull "Config" detector_j with
  | none => rfl
  | some cfg => cases cfg <;> rfl

/-- The stages of `getDetector`, one after the other. -/
theorem stage_getDetectorReads :
    Stage (getDetectorReads dump detector_j) s (DetectorDefined dump detector_j) (s.detected dump detector_j) := by
  have hhealth : outcome (updateDetectorHealthFromJson detector_j) s = (.ok (), s) :=
    outcome_of_settles settles_updateDetectorHealthFromJson
  unfold getDetectorReads
  cases hInfo : memberOrNull "Info" detector_j with
  | none =>
    refine stage_of_exception ?_ fun Info h => by rw [hInfo] at h; cases h
    rw [outcome_bind_of_ok hhealth, index, hInfo, Driver.detected, hInfo]
    rfl
  | some Info =>
    have hj : indexable detector_j = true := by
      cases hindexable : indexable detector_j with
      | true => rfl
      | false =>
        rw [memberOrNull_eq_none_iff.mpr hindexable] at hInfo
        cases hInfo
    have hindex : outcome (index "Info" detector_j) s = (.ok Info, s) := by
      rw [index, hInfo]
      rfl
    have hcounts := @outcome_readCounts s Info
    cases hread : countsRead Info with
    | false =>
      rw [hread] at hcounts
      refine stage_of_exception ?_ fun Info' h hread' => ?_
      · rw [outcome_bind_of_ok hhealth, outcome_bind_of_ok hindex, outcome_bind_of_error hcounts]
        simp [Driver.detected, hInfo, hread]
      · rw [hInfo] at h
        rw [← Option.some.inj h, hread] at hread'
        cases hread'
    | true =>
      rw [hread, if_pos rfl] at hcounts
      cases hrows : rowsDivide Info with
      | false =>
        rw [hrows] at hcounts
        refine stage_of_undefined ?_ fun h => ?_
        · rw [outcome_bind_of_ok hhealth, outcome_bind_of_ok hindex, outcome_bind_of_error hcounts]
        · have hdivide := (h Info hInfo hread).1
          rw [hrows] at hdivide
          cases hdivide
      | true =>
        rw [hrows, if_pos rfl] at hcounts
        have hfamily := @outcome_readFamily dump s Info
        cases hmpx : (intOf "MpxType" Info).isSome with
        | false =>
          rw [hmpx] at hfamily
          refine stage_of_exception ?_ fun Info' h _ => ?_
          · rw [outcome_bind_of_ok hhealth, outcome_bind_of_ok hindex, outcome_bind_of_ok hcounts,
              outcome_bind_of_error hfamily]
            simp [Driver.detected, hInfo, hmpx]
          · rw [hInfo] at h
            rw [← Option.some.inj h]
            exact ⟨hrows, fun h' => by rw [hmpx] at h'; cases h'⟩
        | true =>
          rw [hmpx, if_pos rfl] at hfamily
          obtain ⟨members, rfl⟩ := exists_members_of_countsRead hread
          rw [detected_of_read hInfo hread hmpx]
          have hstart : outcome (getDetectorReads dump detector_j) s = _ :=
            (outcome_bind_of_ok hhealth).trans ((outcome_bind_of_ok hindex).trans
              ((outcome_bind_of_ok hcounts).trans (outcome_bind_of_ok hfamily)))
          obtain ⟨hwithin, hstate⟩ := (stage_readBoards hj).congr_outcome hstart
          have hdefined : DetectorDefined dump detector_j ↔ _ := detectorDefined_of_read hInfo hread hrows hmpx
          exact ⟨hwithin.trans hdefined.symm, fun h => hstate (hdefined.mp h)⟩

theorem within_getDetectorReads_iff :
    Within (· = Fault.exception) (getDetectorReads dump detector_j) s ↔ DetectorDefined dump detector_j :=
  stage_getDetectorReads.1

/-- What `getDetector` leaves, also when something throws. -/
theorem getDetectorReads_state (h : DetectorDefined dump detector_j) :
    (outcome (getDetectorReads dump detector_j) s).2 = s.detected dump detector_j :=
  stage_getDetectorReads.2 h

theorem getDetector_returns_iff {r : Response} :
    Returns (getDetector dump r) s ↔ DetectorAnswered dump r := by
  unfold getDetector DetectorAnswered
  by_cases hstatus : r.status_code = 200
  swap
  · rw [if_pos hstatus]
    exact iff_of_true (returns_pure _) fun h => absurd h hstatus
  rw [if_neg (not_not.mpr hstatus), returns_iff_within, within_attempt fun s => within_pure.mpr trivial]
  have hallowed : (fun e => caught e = true ∨ False) = (· = Fault.exception) := by
    funext e
    cases e <;> simp [caught]
  have hreads : ∀ detector_j,
      Within (· = Fault.exception) (getDetectorReads dump detector_j >>= fun _ => pure AsynStatus.asynSuccess) s ↔
        DetectorDefined dump detector_j := fun detector_j => by
    rw [within_bind, within_getDetectorReads_iff]
    simp
  rw [hallowed, parse, within_orFault_bind]
  simp only [hreads, implies_true, true_and, hstatus, forall_const]
  rfl

theorem getDetector_state {r : Response} (h : DetectorAnswered dump r) :
    (outcome (getDetector dump r) s).2 =
      if r.status_code = 200 then (r.json.map fun detector_j => s.detected dump detector_j).getD s else s := by
  unfold getDetector
  by_cases hstatus : r.status_code = 200
  swap
  · rw [if_pos hstatus, if_neg hstatus]
    rfl
  rw [if_neg (not_not.mpr hstatus), if_pos hstatus, outcome_attempt, parse]
  cases hjson : r.json with
  | none => rfl
  | some detector_j =>
    have hstate := getDetectorReads_state (s := s) (h hstatus detector_j hjson)
    have hwithin : Within (· = Fault.exception) (getDetectorReads dump detector_j) s :=
      within_getDetectorReads_iff.mpr (h hstatus detector_j hjson)
    simp only [orFault, pure_bind, outcome_bind, Option.map_some, Option.getD_some]
    rw [← hstate]
    rcases hreads : outcome (getDetectorReads dump detector_j) s with ⟨result, s'⟩
    cases result with
    | ok a => rfl
    | error e =>
      rw [hwithin e (by rw [hreads])]
      rfl

end ADTimePix3.Serval.Replies
