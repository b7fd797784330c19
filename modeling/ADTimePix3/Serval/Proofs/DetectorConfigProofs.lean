import ADTimePix3.Serval.DetectorConfig
import ADTimePix3.Serval.Proofs.AnsweredCallsProofs
import ADTimePix3.Serval.Proofs.JsonPathProofs
import ADTimePix3.Stream.Proofs.JsonProofs

/-!
# Proofs: the configuration of the detector

What is sent (`buildConfig_spec`), what of it comes back (`reads_back_what_it_sent`), when sending it again changes
nothing (`resend_same_iff`), and what Serval has stored after any run (`config_of_run`).
-/

namespace ADTimePix3.Serval.DetectorConfig

open Faults
open Guard (DetectorFamily jsonBoolOr jsonStringOr pixelDepthFromJson pixelDepthNormalize triggerModeIndexFromServal
  triggerModeOutOfRange triggerModeServalName)
open Replies (Action ConfigWritable Driver Fault arrayLike configMembers flag label)
open ADTimePix3.Stream (Json)
open ADTimePix3.Stream.Json (lookup_setMember_ne lookup_setMember_self setMember)

variable {addRelax : ℚ → ℚ} {p : Params} {members : List (String × Json)} {key : String} {d : Driver}

/-! ## Members -/

/-- The members with some of them set, one after the other. -/
def setAll (fields members : List (String × Json)) : List (String × Json) :=
  fields.foldl (fun members field => setMember members field.1 field.2) members

theorem lookup_setAll {fields : List (String × Json)} (h : (fields.map Prod.fst).Nodup) :
    (setAll fields members).lookup key = (fields.lookup key).or (members.lookup key) := by
  induction fields generalizing members with
  | nil => rfl
  | cons field fields ih =>
    obtain ⟨name, v⟩ := field
    obtain ⟨hname, hfields⟩ := List.nodup_cons.mp h
    show (setAll fields (setMember members name v)).lookup key = _
    rw [ih hfields, List.lookup_cons]
    by_cases hkey : key = name
    · subst hkey
      have hnone : fields.lookup key = none := by
        rw [List.lookup_eq_none_iff]
        intro field hfield
        have hne : key ≠ field.1 := by
          rintro rfl
          exact hname (List.mem_map.mpr ⟨field, hfield, rfl⟩)
        simpa using hne
      rw [hnone, lookup_setMember_self, beq_self_eq_true]
      rfl
    · rw [lookup_setMember_ne hkey, beq_false_of_ne hkey]

theorem setMember_setMember (members : List (String × Json)) (name : String) (v w : Json) :
    setMember (setMember members name v) name w = setMember members name w := by
  unfold setMember
  rw [List.filter_cons_of_neg (by simp), List.filter_filter]
  simp

theorem lookup_filter_ne {name : String} :
    (members.filter fun m => m.1 != name).lookup key = if key = name then none else members.lookup key := by
  have hset : key ≠ name → (setMember members name .null).lookup key = members.lookup key := lookup_setMember_ne
  by_cases hkey : key = name
  · rw [if_pos hkey, List.lookup_eq_none_iff]
    intro m hm
    have hne := (List.mem_filter.mp hm).2
    have hne' : name ≠ m.1 := fun heq => by simp [heq] at hne
    rw [hkey]
    simpa using hne'
  · rw [if_neg hkey, ← hset hkey, setMember, List.lookup_cons, beq_false_of_ne hkey]

/-- The configuration without the members of a Timepix3. -/
def stripped (members : List (String × Json)) : List (String × Json) :=
  tpx3Keys.foldl (fun members name => members.filter fun m => m.1 != name) members

theorem lookup_stripped : (stripped members).lookup key = if key ∈ tpx3Keys then none else members.lookup key := by
  suffices h : ∀ names : List String,
      (names.foldl (fun members name => members.filter fun m => m.1 != name) members).lookup key =
        if key ∈ names then none else members.lookup key from h tpx3Keys
  intro names
  induction names generalizing members with
  | nil => rfl
  | cons name names ih =>
    rw [List.foldl_cons, ih, lookup_filter_ne]
    by_cases hname : key = name
    · simp [hname]
    · simp [hname]

/-! ## Sending -/

theorem label_eq {labels : List String} {i : ℤ} (h : 0 ≤ i) : label labels i = pure (labelAt labels i) := by
  unfold label labelAt
  rw [if_neg (by omega), if_neg (by omega)]

/-- Behind the labels there is null. -/
theorem labelAt_of_le {labels : List String} {i : ℤ} (h : labels.length ≤ i.toNat) : labelAt labels i = .null := by
  unfold labelAt
  rw [List.getD_eq_getElem?_getD, List.getElem?_eq_none (by simpa using h)]
  rfl

theorem commonMembers_eq (hbias : 0 ≤ p.biasEnable) (hchain : 0 ≤ p.chainMode) (hpolarity : 0 ≤ p.polarity) :
    Replies.commonMembers (p.values addRelax) p.triggerModeIdx p.driver (.object members) =
      pure (.object (setAll (p.common addRelax) members)) := by
  have hbias' : 0 ≤ p.driver.biasEnable := hbias
  have hchain' : 0 ≤ p.driver.chainMode := hchain
  have hpolarity' : 0 ≤ p.driver.polarity := hpolarity
  unfold Replies.commonMembers Replies.setMembers
  simp only [Replies.setMember_object, pure_bind, List.map_cons, List.map_nil, List.foldlM_cons, List.foldlM_nil,
    label_eq hbias', label_eq hchain', label_eq hpolarity']
  rfl

theorem assign_index (members : List (String × Json)) (es : List Json) (i : ℕ) (v : Json)
    (h : (members.lookup "Tdc").getD .null = .array es ∨ (members.lookup "Tdc").getD .null = .null ∧ es = []) :
    (Json.object members).assign [.key "Tdc", .index i] v =
      some (.object (setMember members "Tdc" (.array ((Json.fillTo es (i + 1)).set i v)))) := by
  have hassign : (Json.object members).assign [.key "Tdc", .index i] v =
      (Json.assign [.index i] ((members.lookup "Tdc").getD .null) v).map
        fun x => .object (setMember members "Tdc" x) := rfl
  rw [hassign]
  rcases h with harray | ⟨hnull, rfl⟩
  · rw [harray]
    rfl
  · rw [hnull]
    rfl

theorem tpx3Members_eq (htdc : arrayLike ((members.lookup "Tdc").getD .null) = true) (h0 : 0 ≤ p.tdc0)
    (h1 : 0 ≤ p.tdc1) (hclock : 0 ≤ p.externalReferenceClock) (hclk80 : 0 ≤ p.periphClk80) :
    Replies.tpx3Members (p.values addRelax) p.driver (.object members) =
      pure (.object (setAll (p.tpx3 ((members.lookup "Tdc").getD .null)) members)) := by
  have h0' : 0 ≤ p.driver.tdc0 := h0
  have h1' : 0 ≤ p.driver.tdc1 := h1
  have hclock' : 0 ≤ p.driver.externalReferenceClock := hclock
  have hclk80' : 0 ≤ p.driver.periphClk80 := hclk80
  unfold Replies.tpx3Members Replies.setMembers
  simp only [Replies.setMember_object, pure_bind, List.map_cons, List.map_nil, List.foldlM_cons, List.foldlM_nil,
    label_eq h0', label_eq h1', label_eq hclock', label_eq hclk80']
  generalize hset : setMember (setMember members "TriggerDelay" (p.values addRelax "TriggerDelay"))
    "GlobalTimestampInterval" (p.values addRelax "GlobalTimestampInterval") = members₀
  have hlookup : members₀.lookup "Tdc" = members.lookup "Tdc" := by
    subst hset
    simp [lookup_setMember_ne]
  have hes : (members₀.lookup "Tdc").getD .null = .array (Replies.elements ((members.lookup "Tdc").getD .null)) ∨
      (members₀.lookup "Tdc").getD .null = .null ∧ Replies.elements ((members.lookup "Tdc").getD .null) = [] := by
    rw [hlookup]
    cases hold : (members.lookup "Tdc").getD .null with
    | array es => exact Or.inl rfl
    | null => exact Or.inr ⟨rfl, rfl⟩
    | boolean b => rw [hold] at htdc; cases htdc
    | number_integer z => rw [hold] at htdc; cases htdc
    | number_float q => rw [hold] at htdc; cases htdc
    | string t => rw [hold] at htdc; cases htdc
    | object ms => rw [hold] at htdc; cases htdc
  have hsecond := assign_index
    (setMember members₀ "Tdc" (.array
      ((Json.fillTo (Replies.elements ((members.lookup "Tdc").getD .null)) (0 + 1)).set 0
        (labelAt Replies.tdcLabels p.driver.tdc0)))) _ 1 (labelAt Replies.tdcLabels p.driver.tdc1)
    (Or.inl (by rw [lookup_setMember_self]; rfl))
  simp only [assign_index members₀ _ 0 _ hes, hsecond, orFault, pure_bind, Replies.setMember_object,
    setMember_setMember]
  subst hset
  rfl

theorem mpx3Members_eq :
    Replies.mpx3Members (p.values addRelax) (.object members) = pure (.object (setAll p.mpx3 (stripped members))) := by
  unfold Replies.mpx3Members Replies.stripTpx3DetectorConfigFields Replies.setMembers
  simp only [Replies.eraseMember, Replies.setMember_object, pure_bind, List.map_cons, List.map_nil, List.foldlM_cons,
    List.foldlM_nil]
  rfl

theorem nodup_common : ((p.common addRelax).map Prod.fst).Nodup := by
  simp [Params.common]

theorem nodup_tpx3 (tdc : Json) : ((p.tpx3 tdc).map Prod.fst).Nodup := by
  simp [Params.tpx3]

theorem nodup_mpx3 : (p.mpx3.map Prod.fst).Nodup := by
  simp [Params.mpx3]

/-- No member that a Medipix3 lacks is sent to all detectors. -/
theorem lookup_common_of_tpx3Key (h : key ∈ tpx3Keys) : (p.common addRelax).lookup key = none := by
  simp only [tpx3Keys, List.mem_cons, List.not_mem_nil, or_false] at h
  rcases h with rfl | rfl | rfl | rfl | rfl <;> simp [Params.common, List.lookup_cons]

theorem lookup_mpx3_of_tpx3Key (h : key ∈ tpx3Keys) : p.mpx3.lookup key = none := by
  simp only [tpx3Keys, List.mem_cons, List.not_mem_nil, or_false] at h
  rcases h with rfl | rfl | rfl | rfl | rfl <;> simp [Params.mpx3, List.lookup_cons]

theorem lookup_append (fields fields' : List (String × Json)) :
    (fields ++ fields').lookup key = (fields.lookup key).or (fields'.lookup key) := by
  induction fields with
  | nil => rfl
  | cons field fields ih =>
    rw [List.cons_append, List.lookup_cons, List.lookup_cons, ih]
    cases key == field.1 <;> rfl

theorem lookup_setLogLevel (v : Json) (fields members : List (String × Json)) {o : Option Json}
    (h : members.lookup key = (fields.lookup key).or o) :
    (setMember members "LogLevel" v).lookup key = ((("LogLevel", v) :: fields).lookup key).or o := by
  rw [List.lookup_cons]
  by_cases hkey : key = "LogLevel"
  · rw [hkey, lookup_setMember_self, beq_self_eq_true]
    rfl
  · rw [lookup_setMember_ne hkey, beq_false_of_ne hkey, h]

/-- The body of the PUT: each member comes from the parameter that drives it, or from the configuration. -/
theorem buildConfig_spec (addRelax : ℚ → ℚ) (h : ConfigWritable p.driver (.object members)) (s : Driver) :
    ∃ members', outcome (p.buildConfig addRelax (.object members)) s = (.ok (.object members'), s) ∧
      ∀ key, members'.lookup key = p.sentMember addRelax members key := by
  obtain ⟨-, hbias, hchain, hpolarity, hrest⟩ := h
  unfold Params.buildConfig
  rw [commonMembers_eq hbias hchain hpolarity, pure_bind]
  by_cases hfamily : p.detectorFamily_ = .MPX3
  · rw [if_neg (not_not.mpr hfamily), mpx3Members_eq, pure_bind]
    refine ⟨_, rfl, fun key => ?_⟩
    unfold Params.sentMember Params.sent
    rw [if_pos hfamily]
    by_cases hkey : key ∈ tpx3Keys
    · rw [if_pos ⟨hfamily, hkey⟩, lookup_setLogLevel _ [] _ rfl, lookup_setAll nodup_mpx3, lookup_stripped,
        if_pos hkey, lookup_mpx3_of_tpx3Key hkey]
      simp only [tpx3Keys, List.mem_cons, List.not_mem_nil, or_false] at hkey
      rcases hkey with rfl | rfl | rfl | rfl | rfl <;> rfl
    · rw [if_neg fun hboth => hkey hboth.2]
      refine lookup_setLogLevel _ _ _ ?_
      rw [lookup_setAll nodup_mpx3, lookup_stripped, if_neg hkey, lookup_setAll nodup_common, lookup_append,
        Option.or_assoc]
  · obtain ⟨htdc, h0, h1, hclock, hclk80⟩ := hrest hfamily
    have hlookup : (setAll (p.common addRelax) members).lookup "Tdc" = members.lookup "Tdc" := by
      rw [lookup_setAll nodup_common, lookup_common_of_tpx3Key (by simp [tpx3Keys])]
      rfl
    rw [if_pos hfamily, tpx3Members_eq (by rw [hlookup]; exact htdc) h0 h1 hclock hclk80, pure_bind]
    refine ⟨_, rfl, fun key => ?_⟩
    unfold Params.sentMember Params.sent
    rw [if_neg hfamily, if_neg fun hboth => hfamily hboth.1, hlookup]
    refine lookup_setLogLevel _ _ _ ?_
    rw [lookup_setAll (nodup_tpx3 _), lookup_setAll nodup_common, lookup_append, Option.or_assoc]

/-! ## Reading back -/

variable {dump : Json → String} {understands : Bool}

theorem lookup_keptMembers :
    (keptMembers understands members).lookup key = (members.lookup key).map (kept understands key) := by
  induction members with
  | nil => rfl
  | cons m members ih =>
    unfold keptMembers at ih ⊢
    rw [List.map_cons, List.lookup_cons, List.lookup_cons, ih]
    by_cases hkey : key = m.1
    · subst hkey
      rw [beq_self_eq_true]
      rfl
    · rw [beq_false_of_ne hkey]

theorem kept_of_not_mem (h : key ∉ switches) (v : Json) : kept understands key v = v := by
  unfold kept
  rw [if_neg fun hboth => h hboth.2]

/-- What comes back of a switch. -/
theorem flag_kept (hkey : key ∈ switches) {i : ℤ} (hi : 0 ≤ i) :
    flag (kept understands key (labelAt switchLabels i)) = switchBack understands i := by
  obtain ⟨n, rfl⟩ := Int.eq_ofNat_of_zero_le hi
  unfold kept switchBack
  match n with
  | 0 => cases understands <;> simp [labelAt, switchLabels, hkey, flag, jsonBoolOr, booleanOf]
  | 1 => cases understands <;> simp [labelAt, switchLabels, hkey, flag, jsonBoolOr, booleanOf]
  | n + 2 =>
    have hnull : labelAt switchLabels ((n + 2 : ℕ) : ℤ) = .null := labelAt_of_le (Nat.le_add_left 2 n)
    have hkept : (if understands = true ∧ key ∈ switches then booleanOf .null else .null) = Json.null := by
      split <;> rfl
    rw [hnull, hkept, if_neg (by omega)]
    rfl

theorem chainModeIndex_label {i : ℤ} (hi : 0 ≤ i) :
    Replies.chainModeIndex (jsonStringOr (labelAt chainModeLabels i)) = if i ≤ 2 then i else 0 := by
  obtain ⟨n, rfl⟩ := Int.eq_ofNat_of_zero_le hi
  match n with
  | 0 => rfl
  | 1 => rfl
  | 2 => rfl
  | n + 3 =>
    rw [if_neg (by omega)]
    rfl

theorem polarityIndex_label {i : ℤ} (hi : 0 ≤ i) :
    Replies.polarityIndex (jsonStringOr (labelAt polarityLabels i)) = if i = 1 then 1 else 0 := by
  obtain ⟨n, rfl⟩ := Int.eq_ofNat_of_zero_le hi
  match n with
  | 0 => rfl
  | 1 => rfl
  | n + 2 =>
    rw [if_neg (by omega)]
    rfl

/-- Every mode has its own name. -/
theorem triggerModeIndexFromServal_name (p : Params) :
    triggerModeIndexFromServal (triggerModeServalName p.triggerModeIdx) = p.triggerModeIdx := by
  have hrange : triggerModeOutOfRange p.triggerModeIdx = false := by
    unfold Params.triggerModeIdx Replies.Driver.triggerModeIdx
    split
    · rfl
    · simp_all
  have hbounds : 0 ≤ p.triggerModeIdx ∧ p.triggerModeIdx < 9 := by
    simpa [triggerModeOutOfRange, Guard.kTriggerModes] using hrange
  obtain ⟨n, hn⟩ := Int.eq_ofNat_of_zero_le hbounds.1
  have hnames : ∀ n : ℕ, n < 9 → triggerModeIndexFromServal (triggerModeServalName n) = n := by decide
  rw [hn]
  exact hnames n (by omega)

theorem gainModeFromString_toString (i : ℤ) :
    gainModeFromString (gainModeToString i) = if 0 ≤ i ∧ i ≤ 3 then i else 0 := by
  unfold gainModeToString
  by_cases hi : i < 0 ∨ i > 3
  · rw [if_pos hi, if_neg (by omega)]
    rfl
  · rw [if_neg hi, if_pos (by omega)]
    obtain ⟨n, rfl⟩ := Int.eq_ofNat_of_zero_le (show 0 ≤ i by omega)
    have hnames : ∀ n : ℕ, n < 4 → gainModeFromString ((gainModeNames[(n : ℤ).toNat]?).getD "") = n := by decide
    exact hnames n (by omega)

theorem pixelDepthNormalize_cases (depth : ℤ) :
    pixelDepthNormalize depth = 1 ∨ pixelDepthNormalize depth = 6 ∨ pixelDepthNormalize depth = 12 ∨
      pixelDepthNormalize depth = 24 := by
  unfold pixelDepthNormalize
  split
  case isTrue h =>
    simp only [Guard.pixelDepthIsValid, Bool.or_eq_true, decide_eq_true_eq] at h
    omega
  case isFalse => exact Or.inr (Or.inr (Or.inl rfl))

theorem sentDepth_cases (p : Params) :
    p.sentDepth = 1 ∨ p.sentDepth = 6 ∨ p.sentDepth = 12 ∨ p.sentDepth = 24 := by
  unfold Params.sentDepth
  split
  · exact Or.inr (Or.inr (Or.inl rfl))
  · exact pixelDepthNormalize_cases _

theorem pixelDepthFromJson_sentDepth (p : Params) :
    pixelDepthFromJson (.number_integer p.sentDepth) = p.sentDepth := by
  rcases sentDepth_cases p with h | h | h | h <;> rw [h] <;> rfl

theorem flag_boolean (z : ℤ) : flag (.boolean (z ≠ 0)) = if z = 0 then 0 else 1 := by
  by_cases hz : z = 0
  · simp [hz, flag, jsonBoolOr]
  · simp [hz, flag, jsonBoolOr]

theorem jsonIntOr_integer {z : ℤ} (h : -2 ^ 31 ≤ z ∧ z < 2 ^ 31) : jsonIntOr (.number_integer z) = z :=
  ADTimePix3.Stream.toInt32_of_range h

/-! The members that are sent, as Serval keeps them. -/

theorem nodup_sent (tdc : Json) : ((p.sent addRelax tdc).map Prod.fst).Nodup := by
  unfold Params.sent
  split <;> simp [Params.common, Params.mpx3, Params.tpx3]

theorem lookup_of_mem {fields : List (String × Json)} {v : Json} (h : (fields.map Prod.fst).Nodup)
    (hmem : (key, v) ∈ fields) : fields.lookup key = some v := by
  induction fields with
  | nil => cases hmem
  | cons field fields ih =>
    obtain ⟨hname, hfields⟩ := List.nodup_cons.mp h
    rw [List.lookup_cons]
    rcases List.mem_cons.mp hmem with rfl | hrest
    · rw [beq_self_eq_true]
    · have hne : key ≠ field.1 := by
        rintro rfl
        exact hname (List.mem_map.mpr ⟨_, hrest, rfl⟩)
      rw [beq_false_of_ne hne]
      exact ih hfields hrest

theorem lookup_sent_of_tpx3Key (hfamily : p.detectorFamily_ = .MPX3) (h : key ∈ tpx3Keys) (tdc : Json) :
    (p.sent addRelax tdc).lookup key = none := by
  unfold Params.sent
  rw [if_pos hfamily, List.lookup_cons, lookup_append, lookup_mpx3_of_tpx3Key h, lookup_common_of_tpx3Key h]
  have hne : key ≠ "LogLevel" := by
    rintro rfl
    simp [tpx3Keys] at h
  rw [beq_false_of_ne hne]
  rfl

theorem sentMember_of_mem {v : Json} (hmem : (key, v) ∈ p.sent addRelax ((members.lookup "Tdc").getD .null)) :
    p.sentMember addRelax members key = some v := by
  have hlookup := lookup_of_mem (nodup_sent _) hmem
  unfold Params.sentMember
  rw [if_neg, hlookup]
  · rfl
  · rintro ⟨hfamily, hkey⟩
    rw [lookup_sent_of_tpx3Key hfamily hkey] at hlookup
    cases hlookup

/-- What is stored after the configuration has been sent. -/
def Sent (addRelax : ℚ → ℚ) (understands : Bool) (p : Params) (members : List (String × Json)) (cfg : Json) : Prop :=
  ∀ key, cfg.member key = (p.sentMember addRelax members key).map (kept understands key)

variable {cfg : Json} {v : Json}

theorem sent_accepted {σ : Type} {server : Server σ} (hkeeps : server.Keeps understands) (serval : σ)
    {members' : List (String × Json)} (h : ∀ key, members'.lookup key = p.sentMember addRelax members key) :
    Sent addRelax understands p members (.object (server.stored (server.accept (.object members') serval))) := by
  intro key
  show (server.stored (server.accept (.object members') serval)).lookup key = _
  rw [hkeeps.accept_stored, h]

theorem Sent.member (h : Sent addRelax understands p members cfg)
    (hmem : (key, v) ∈ p.sent addRelax ((members.lookup "Tdc").getD .null)) :
    cfg.member key = some (kept understands key v) := by
  rw [h key, sentMember_of_mem hmem]
  rfl

theorem Sent.memberOr (h : Sent addRelax understands p members cfg)
    (hmem : (key, v) ∈ p.sent addRelax ((members.lookup "Tdc").getD .null)) :
    memberOr cfg key = kept understands key v := by
  unfold DetectorConfig.memberOr
  rw [h.member hmem]
  rfl

/-- A member that nothing drives comes back as it was. -/
theorem Sent.member_undriven (h : Sent addRelax understands p members cfg)
    (hkey : (p.sent addRelax ((members.lookup "Tdc").getD .null)).lookup key = none)
    (hkeys : ¬(p.detectorFamily_ = .MPX3 ∧ key ∈ tpx3Keys)) (hswitch : key ∉ switches) :
    cfg.member key = (Json.object members).member key := by
  rw [h key]
  unfold Params.sentMember
  rw [if_neg hkeys, hkey, Option.none_or]
  show (members.lookup key).map (kept understands key) = members.lookup key
  cases members.lookup key with
  | none => rfl
  | some v =>
    rw [Option.map_some, kept_of_not_mem hswitch]

theorem Sent.member_stripped (h : Sent addRelax understands p members cfg) (hfamily : p.detectorFamily_ = .MPX3)
    (hkey : key ∈ tpx3Keys) : cfg.member key = none := by
  rw [h key]
  unfold Params.sentMember
  rw [if_pos ⟨hfamily, hkey⟩]
  rfl

theorem Sent.int (h : Sent addRelax understands p members cfg) (key : String) (z : ℤ)
    (hmem : (key, .number_integer z) ∈ p.sent addRelax ((members.lookup "Tdc").getD .null))
    (hz : -2 ^ 31 ≤ z ∧ z < 2 ^ 31) (hkey : key ∉ switches) : jsonIntOr (DetectorConfig.memberOr cfg key) = z := by
  rw [h.memberOr hmem, kept_of_not_mem hkey, jsonIntOr_integer hz]

theorem Sent.double (h : Sent addRelax understands p members cfg) (key : String) (q : ℚ)
    (hmem : (key, .number_float q) ∈ p.sent addRelax ((members.lookup "Tdc").getD .null)) (hkey : key ∉ switches) :
    jsonDoubleOr (DetectorConfig.memberOr cfg key) = q := by
  rw [h.memberOr hmem, kept_of_not_mem hkey]
  rfl

theorem Sent.switch (h : Sent addRelax understands p members cfg) (key : String) {i : ℤ} (hi : 0 ≤ i)
    (hmem : (key, labelAt switchLabels i) ∈ p.sent addRelax ((members.lookup "Tdc").getD .null))
    (hkey : key ∈ switches) : flag (DetectorConfig.memberOr cfg key) = switchBack understands i := by
  rw [h.memberOr hmem, flag_kept hkey hi]

theorem Sent.overwritten {α : Type} (h : Sent addRelax understands p members cfg) (key : String) (v : Json)
    (hmem : (key, v) ∈ p.sent addRelax ((members.lookup "Tdc").getD .null)) (hkey : key ∉ switches) (read : Json → α)
    (old : α) : DetectorConfig.overwritten cfg key read old = read v := by
  unfold DetectorConfig.overwritten
  rw [h.member hmem, kept_of_not_mem hkey]
  rfl

/-- A parameter whose member nothing drives is read back from what there was. -/
theorem Sent.overwritten_undriven {α : Type} (h : Sent addRelax understands p members cfg)
    (hkey : (p.sent addRelax ((members.lookup "Tdc").getD .null)).lookup key = none)
    (hkeys : ¬(p.detectorFamily_ = .MPX3 ∧ key ∈ tpx3Keys)) (hswitch : key ∉ switches) (read : Json → α) (old : α) :
    DetectorConfig.overwritten cfg key read old = DetectorConfig.overwritten (.object members) key read old := by
  unfold DetectorConfig.overwritten
  rw [h.member_undriven hkey hkeys hswitch]

theorem Sent.memberOr_undriven (h : Sent addRelax understands p members cfg)
    (hkey : (p.sent addRelax ((members.lookup "Tdc").getD .null)).lookup key = none)
    (hkeys : ¬(p.detectorFamily_ = .MPX3 ∧ key ∈ tpx3Keys)) (hswitch : key ∉ switches) :
    DetectorConfig.memberOr cfg key = DetectorConfig.memberOr (.object members) key := by
  unfold DetectorConfig.memberOr
  rw [h.member_undriven hkey hkeys hswitch]

theorem Sent.memberOr_stripped (h : Sent addRelax understands p members cfg) (hfamily : p.detectorFamily_ = .MPX3)
    (hkey : key ∈ tpx3Keys) : DetectorConfig.memberOr cfg key = .null := by
  unfold DetectorConfig.memberOr
  rw [h.member_stripped hfamily hkey]
  rfl

/-- Fans are not driven by the driver. -/
theorem lookup_sent_fan (tdc : Json) :
    (p.sent addRelax tdc).lookup "Fan1PWM" = none ∧ (p.sent addRelax tdc).lookup "Fan2PWM" = none := by
  unfold Params.sent
  split <;> simp [Params.common, Params.mpx3, Params.tpx3, List.lookup_cons]

/-- The parameters of a Medipix3 are not sent to another detector. -/
theorem lookup_sent_of_mpx3Key (hfamily : p.detectorFamily_ ≠ .MPX3) (hkey : key ∈ p.mpx3.map Prod.fst) (tdc : Json) :
    (p.sent addRelax tdc).lookup key = none := by
  unfold Params.sent
  rw [if_neg hfamily]
  simp only [Params.mpx3, List.map_cons, List.map_nil, List.mem_cons, List.not_mem_nil, or_false] at hkey
  rcases hkey with rfl | rfl | rfl | rfl | rfl | rfl | rfl | rfl <;>
    simp [Params.common, Params.tpx3, List.lookup_cons]

theorem mem_sent_of_common {field : String × Json} (hfield : field ∈ p.common addRelax) (tdc : Json) :
    field ∈ p.sent addRelax tdc :=
  List.mem_cons_of_mem _ (List.mem_append_right _ hfield)

theorem mem_sent_of_mpx3 {field : String × Json} (hfamily : p.detectorFamily_ = .MPX3) (hfield : field ∈ p.mpx3)
    (tdc : Json) : field ∈ p.sent addRelax tdc := by
  unfold Params.sent
  rw [if_pos hfamily]
  exact List.mem_cons_of_mem _ (List.mem_append_left _ hfield)

theorem mem_sent_of_tpx3 {field : String × Json} {tdc : Json} (hfamily : p.detectorFamily_ ≠ .MPX3)
    (hfield : field ∈ p.tpx3 tdc) : field ∈ p.sent addRelax tdc := by
  unfold Params.sent
  rw [if_neg hfamily]
  exact List.mem_cons_of_mem _ (List.mem_append_left _ hfield)

/-- The members that all detectors have are read back as they were sent, and those of the fans as they were. -/
structure CommonBack (addRelax : ℚ → ℚ) (dump : Json → String) (understands : Bool) (p : Params)
    (members : List (String × Json)) (cfg : Json) : Prop where
  mode : overwritten cfg "TriggerMode" (fun v => triggerModeIndexFromServal (jsonStringOr v))
    p.prepared.triggerMode = p.triggerModeIdx
  text : overwritten cfg "TriggerMode" (jsonText dump) p.prepared.triggerModeText =
    triggerModeServalName p.triggerModeIdx
  chainMode : overwritten cfg "ChainMode" (fun v => Replies.chainModeIndex (jsonStringOr v))
    p.prepared.chainMode = if p.chainMode ≤ 2 then p.chainMode else 0
  polarity : overwritten cfg "Polarity" (fun v => Replies.polarityIndex (jsonStringOr v))
    p.prepared.polarity = if p.polarity = 1 then 1 else 0
  biasEnable : flag (memberOr cfg "BiasEnabled") = switchBack understands p.biasEnable
  exposure : jsonDoubleOr (memberOr cfg "ExposureTime") = p.acquireTime
  period : jsonDoubleOr (memberOr cfg "TriggerPeriod") = p.sentPeriod addRelax
  numImages : jsonIntOr (memberOr cfg "nTriggers") = p.numImages
  biasVolt : jsonIntOr (memberOr cfg "BiasVoltage") = p.biasVolt
  triggerIn : jsonIntOr (memberOr cfg "TriggerIn") = p.triggerIn
  triggerOut : jsonIntOr (memberOr cfg "TriggerOut") = p.triggerOut
  logLevel : jsonIntOr (memberOr cfg "LogLevel") = p.logLevel
  fan1 : jsonIntOr (memberOr cfg "Fan1PWM") = jsonIntOr (memberOr (.object members) "Fan1PWM")
  fan2 : jsonIntOr (memberOr cfg "Fan2PWM") = jsonIntOr (memberOr (.object members) "Fan2PWM")

theorem Sent.commonBack (h : Sent addRelax understands p members cfg) (hint : p.Int32)
    (hwritable : ConfigWritable p.driver (.object members)) :
    CommonBack addRelax dump understands p members cfg := by
  obtain ⟨-, hbias, hchain, hpolarity, -⟩ := hwritable
  have hmem : ∀ field ∈ p.common addRelax, field ∈ p.sent addRelax ((members.lookup "Tdc").getD .null) :=
    fun field hfield => mem_sent_of_common hfield _
  constructor
  · exact (h.overwritten "TriggerMode" (.string (triggerModeServalName p.triggerModeIdx))
      (hmem _ (by simp [Params.common])) (by simp [switches])
      (fun v => triggerModeIndexFromServal (jsonStringOr v)) p.prepared.triggerMode).trans
        (triggerModeIndexFromServal_name p)
  · exact h.overwritten "TriggerMode" (.string (triggerModeServalName p.triggerModeIdx))
      (hmem _ (by simp [Params.common])) (by simp [switches]) (jsonText dump) p.prepared.triggerModeText
  · exact (h.overwritten "ChainMode" (labelAt chainModeLabels p.chainMode) (hmem _ (by simp [Params.common]))
      (by simp [switches]) (fun v => Replies.chainModeIndex (jsonStringOr v)) p.prepared.chainMode).trans
        (chainModeIndex_label hchain)
  · exact (h.overwritten "Polarity" (labelAt polarityLabels p.polarity) (hmem _ (by simp [Params.common]))
      (by simp [switches]) (fun v => Replies.polarityIndex (jsonStringOr v)) p.prepared.polarity).trans
        (polarityIndex_label hpolarity)
  · exact h.switch "BiasEnabled" (show 0 ≤ p.biasEnable from hbias) (hmem _ (by simp [Params.common]))
      (by simp [switches])
  · exact h.double "ExposureTime" p.acquireTime (hmem _ (by simp [Params.common])) (by simp [switches])
  · exact h.double "TriggerPeriod" (p.sentPeriod addRelax) (hmem _ (by simp [Params.common])) (by simp [switches])
  · exact h.int "nTriggers" p.numImages (hmem _ (by simp [Params.common])) (hint _ (by simp)) (by simp [switches])
  · exact h.int "BiasVoltage" p.biasVolt (hmem _ (by simp [Params.common])) (hint _ (by simp)) (by simp [switches])
  · exact h.int "TriggerIn" p.triggerIn (hmem _ (by simp [Params.common])) (hint _ (by simp)) (by simp [switches])
  · exact h.int "TriggerOut" p.triggerOut (hmem _ (by simp [Params.common])) (hint _ (by simp)) (by simp [switches])
  · exact h.int "LogLevel" p.logLevel (List.mem_cons_self ..) (hint _ (by simp)) (by simp [switches])
  · rw [h.memberOr_undriven (lookup_sent_fan _).1 (by simp [tpx3Keys]) (by simp [switches])]
  · rw [h.memberOr_undriven (lookup_sent_fan _).2 (by simp [tpx3Keys]) (by simp [switches])]

/-- The entries of `IDelayConfig` come back. -/
theorem Sent.delay (h : Sent addRelax understands p members cfg) (hfamily : p.detectorFamily_ = .MPX3) {i : ℕ} {z : ℤ}
    (hi : [p.iDelay0, p.iDelay1, p.iDelay2, p.iDelay3][i]? = some z) (hz : -2 ^ 31 ≤ z ∧ z < 2 ^ 31) (old : ℤ) :
    delayOr cfg i old = z := by
  have hmember := h.memberOr (mem_sent_of_mpx3 hfamily (show ("IDelayConfig",
    Json.array ([p.iDelay0, p.iDelay1, p.iDelay2, p.iDelay3].map .number_integer)) ∈ p.mpx3 by simp [Params.mpx3]) _)
  rw [kept_of_not_mem (by simp [switches])] at hmember
  unfold delayOr
  rw [hmember]
  show ((([p.iDelay0, p.iDelay1, p.iDelay2, p.iDelay3].map Json.number_integer)[i]?).map jsonIntOr).getD old = z
  rw [List.getElem?_map, hi]
  exact jsonIntOr_integer hz

theorem readBack_of_sent_mpx3 (h : Sent addRelax understands p members cfg) (hint : p.Int32)
    (hfamily : p.detectorFamily_ = .MPX3) (hcommon : CommonBack addRelax dump understands p members cfg) :
    p.prepared.readBack dump cfg = p.returned addRelax dump understands members := by
  have hmem : ∀ field ∈ p.mpx3, field ∈ p.sent addRelax ((members.lookup "Tdc").getD .null) :=
    fun field hfield => mem_sent_of_mpx3 hfamily hfield _
  -- what the body was stripped of is read as null
  have hclk80 : flag (memberOr cfg "PeriphClk80") = 0 := by
    rw [h.memberOr_stripped hfamily (by simp [tpx3Keys])]
    rfl
  have hdelay : jsonDoubleOr (memberOr cfg "TriggerDelay") = 0 := by
    rw [h.memberOr_stripped hfamily (by simp [tpx3Keys])]
    rfl
  have htdc : jsonText dump (memberOr cfg "Tdc") = "" := by
    rw [h.memberOr_stripped hfamily (by simp [tpx3Keys])]
    rfl
  have hinterval : jsonDoubleOr (memberOr cfg "GlobalTimestampInterval") = 0 := by
    rw [h.memberOr_stripped hfamily (by simp [tpx3Keys])]
    rfl
  have hclock : flag (memberOr cfg "ExternalReferenceClock") = 0 := by
    rw [h.memberOr_stripped hfamily (by simp [tpx3Keys])]
    rfl
  have hboth := (h.overwritten "BothCounters" _ (hmem _ (by simp [Params.mpx3])) (by simp [switches]) flag
    p.prepared.bothCounters).trans (flag_boolean p.bothCounters)
  have hsumming := (h.overwritten "ChargeSumming" _ (hmem _ (by simp [Params.mpx3])) (by simp [switches]) flag
    p.prepared.chargeSumming).trans (flag_boolean p.chargeSumming)
  have hcolour := (h.overwritten "Colour" _ (hmem _ (by simp [Params.mpx3])) (by simp [switches]) flag
    p.prepared.colour).trans (flag_boolean p.colour)
  have hgain := (h.overwritten "GainMode" (.string (gainModeToString p.gainMode)) (hmem _ (by simp [Params.mpx3]))
    (by simp [switches]) (fun v => gainModeFromString (jsonText dump v)) p.prepared.gainMode).trans
      (gainModeFromString_toString p.gainMode)
  have hdepth := (h.overwritten "PixelDepth" _ (hmem _ (by simp [Params.mpx3])) (by simp [switches])
    pixelDepthFromJson p.prepared.pixelDepth).trans (pixelDepthFromJson_sentDepth p)
  have hcounterIn := (h.overwritten "CounterSelectIn" _ (hmem _ (by simp [Params.mpx3])) (by simp [switches])
    jsonIntOr p.prepared.counterSelectIn).trans (jsonIntOr_integer (hint p.counterSelectIn (by simp)))
  have hcounterOut := (h.overwritten "CounterSelectOut" _ (hmem _ (by simp [Params.mpx3])) (by simp [switches])
    jsonIntOr p.prepared.counterSelectOut).trans (jsonIntOr_integer (hint p.counterSelectOut (by simp)))
  have hdelay0 := h.delay hfamily (i := 0) rfl (hint p.iDelay0 (by simp)) p.prepared.iDelay0
  have hdelay1 := h.delay hfamily (i := 1) rfl (hint p.iDelay1 (by simp)) p.prepared.iDelay1
  have hdelay2 := h.delay hfamily (i := 2) rfl (hint p.iDelay2 (by simp)) p.prepared.iDelay2
  have hdelay3 := h.delay hfamily (i := 3) rfl (hint p.iDelay3 (by simp)) p.prepared.iDelay3
  unfold Params.returned
  rw [if_pos hfamily]
  exact Params.ext rfl hcommon.mode hcommon.exposure hcommon.period hcommon.numImages hcommon.biasVolt
    hcommon.biasEnable hcommon.chainMode hcommon.polarity hcommon.triggerIn hcommon.triggerOut hdelay hinterval rfl rfl
    hclock hclk80 hboth hsumming hcolour hgain hdepth hcounterIn hcounterOut hdelay0 hdelay1 hdelay2 hdelay3
    hcommon.logLevel hcommon.fan1 hcommon.fan2 hcommon.numImages hcommon.exposure hcommon.period hcommon.text htdc

theorem readBack_of_sent_tpx3 (h : Sent addRelax understands p members cfg)
    (hwritable : ConfigWritable p.driver (.object members)) (hfamily : p.detectorFamily_ ≠ .MPX3)
    (hcommon : CommonBack addRelax dump understands p members cfg) :
    p.prepared.readBack dump cfg = p.returned addRelax dump understands members := by
  obtain ⟨-, -, -, -, hrest⟩ := hwritable
  obtain ⟨-, -, -, hclockIdx, hclk80Idx⟩ := hrest hfamily
  have hmem : ∀ field ∈ p.tpx3 ((members.lookup "Tdc").getD .null),
      field ∈ p.sent addRelax ((members.lookup "Tdc").getD .null) :=
    fun field hfield => mem_sent_of_tpx3 hfamily hfield
  have hdelay := h.double "TriggerDelay" p.triggerDelay (hmem _ (by simp [Params.tpx3])) (by simp [switches])
  have hinterval := h.double "GlobalTimestampInterval" p.globalTimestampInterval (hmem _ (by simp [Params.tpx3]))
    (by simp [switches])
  have hclock := h.switch "ExternalReferenceClock" (show 0 ≤ p.externalReferenceClock from hclockIdx)
    (hmem _ (by simp [Params.tpx3])) (by simp [switches])
  have hclk80 := h.switch "PeriphClk80" (show 0 ≤ p.periphClk80 from hclk80Idx) (hmem _ (by simp [Params.tpx3]))
    (by simp [switches])
  have htdc : jsonText dump (memberOr cfg "Tdc") = jsonText dump (p.sentTdc ((members.lookup "Tdc").getD .null)) := by
    rw [h.memberOr (hmem ("Tdc", p.sentTdc ((members.lookup "Tdc").getD .null)) (by simp [Params.tpx3])),
      kept_of_not_mem (by simp [switches])]
  -- the members of a Medipix3 are not sent, and are read as they were
  have hother : ∀ {α : Type} (key : String), key ∈ p.mpx3.map Prod.fst → ∀ (read : Json → α) (old : α),
      overwritten cfg key read old = overwritten (.object members) key read old := fun key hkey =>
    h.overwritten_undriven (lookup_sent_of_mpx3Key hfamily hkey _) (fun hboth => hfamily hboth.1) (by
      simp only [Params.mpx3, List.map_cons, List.map_nil, List.mem_cons, List.not_mem_nil, or_false] at hkey
      rcases hkey with rfl | rfl | rfl | rfl | rfl | rfl | rfl | rfl <;> simp [switches])
  have hidelay : ∀ i old, delayOr cfg i old = delayOr (.object members) i old := by
    intro i old
    unfold delayOr
    rw [h.memberOr_undriven (lookup_sent_of_mpx3Key hfamily (by simp [Params.mpx3]) _)
      (fun hboth => hfamily hboth.1) (by simp [switches])]
  unfold Params.returned
  rw [if_neg hfamily]
  exact Params.ext rfl hcommon.mode hcommon.exposure hcommon.period hcommon.numImages hcommon.biasVolt
    hcommon.biasEnable hcommon.chainMode hcommon.polarity hcommon.triggerIn hcommon.triggerOut hdelay hinterval rfl rfl
    hclock hclk80 (hother _ (by simp [Params.mpx3]) _ _)
    (hother _ (by simp [Params.mpx3]) _ _) (hother _ (by simp [Params.mpx3]) _ _)
    (hother _ (by simp [Params.mpx3]) _ _) (hother _ (by simp [Params.mpx3]) _ _)
    (hother _ (by simp [Params.mpx3]) _ _) (hother _ (by simp [Params.mpx3]) _ _) (hidelay 0 _) (hidelay 1 _)
    (hidelay 2 _) (hidelay 3 _) hcommon.logLevel hcommon.fan1 hcommon.fan2 hcommon.numImages hcommon.exposure
    hcommon.period hcommon.text htdc

/-- What comes back of the parameters after they have been sent. -/
theorem readBack_of_sent (h : Sent addRelax understands p members cfg) (hint : p.Int32)
    (hwritable : ConfigWritable p.driver (.object members)) :
    p.prepared.readBack dump cfg = p.returned addRelax dump understands members := by
  by_cases hfamily : p.detectorFamily_ = .MPX3
  · exact readBack_of_sent_mpx3 h hint hfamily (h.commonBack hint hwritable)
  · exact readBack_of_sent_tpx3 h hwritable hfamily (h.commonBack hint hwritable)

/-! ## One exchange with Serval -/

theorem triggerModeIdx_checked (p : Params) : p.checked.triggerModeIdx = p.triggerModeIdx :=
  Replies.triggerModeIdx_idem (s := p.driver)

theorem sentPeriod_checked (p : Params) : p.checked.sentPeriod addRelax = p.sentPeriod addRelax := by
  unfold Params.sentPeriod
  rw [triggerModeIdx_checked]
  rfl

theorem sentMember_checked (p : Params) :
    p.checked.sentMember addRelax members key = p.sentMember addRelax members key := by
  have hcommon : p.checked.common addRelax = p.common addRelax := by
    unfold Params.common
    rw [triggerModeIdx_checked, sentPeriod_checked]
    rfl
  unfold Params.sentMember Params.sent
  rw [hcommon]
  rfl

theorem prepared_checked (p : Params) : p.checked.prepared = p.prepared := by
  unfold Params.prepared
  rw [triggerModeIdx_checked]
  rfl

theorem conflict_checked (p : Params) :
    p.checked.driver.mpx3BothCountersTriggerConflict = p.driver.mpx3BothCountersTriggerConflict := by
  have hidx : p.checked.driver.triggerModeIdx = p.driver.triggerModeIdx := triggerModeIdx_checked p
  unfold Driver.mpx3BothCountersTriggerConflict
  rw [hidx]
  rfl

section Exchange

variable {σ : Type} {server : Server σ} {s s' : System σ} {put resynced : Bool}

/-- What is stored after a PUT that Serval accepts. -/
theorem configure_accepted (addRelax : ℚ → ℚ) (dump : Json → String) (hkeeps : server.Keeps understands)
    (hwritable : ConfigWritable s.params.driver (.object (s.config server)))
    (hconflict : s.params.driver.mpx3BothCountersTriggerConflict = false) (resynced : Bool) :
    ∃ body, configure addRelax dump server true resynced s = some
        ⟨s.params.prepared, s.detectorFamilyApplied_, server.accept body s.serval, s.params.prepared :: s.puts⟩ ∧
      Sent addRelax understands s.params (s.config server) (.object (server.stored (server.accept body s.serval))) := by
  obtain ⟨body, hbody, hsent⟩ := buildConfig_spec addRelax (p := s.params.checked) hwritable
    s.params.checked.driver
  have hconflict' : ¬s.params.checked.driver.mpx3BothCountersTriggerConflict = true := by
    rw [conflict_checked, hconflict]
    exact Bool.false_ne_true
  refine ⟨.object body, ?_, sent_accepted hkeeps s.serval fun key => ?_⟩
  · have hconfig : ({ s with params := s.params.checked } : System σ).config server = s.config server := rfl
    unfold configure
    dsimp only
    rw [if_neg hconflict', hconfig, hbody, prepared_checked]
    rfl
  · rw [hsent, sentMember_checked]

/-- A configuration that was sent has all members that are asked for, if the fans were there. -/
theorem configMembers_sent {members' : List (String × Json)}
    (h : Sent addRelax understands p members (.object members'))
    (hfan1 : (members.lookup "Fan1PWM").isSome) (hfan2 : (members.lookup "Fan2PWM").isSome) :
    (configMembers.all fun key => (members'.lookup key).isSome) = true := by
  have hundriven : ∀ key, (p.sent addRelax ((members.lookup "Tdc").getD .null)).lookup key = none → key ∉ tpx3Keys →
      key ∉ switches → members'.lookup key = members.lookup key := fun key hkey hkeys hswitch =>
    h.member_undriven hkey (fun hboth => hkeys hboth.2) hswitch
  have hsome : ∀ key v, (key, v) ∈ p.sent addRelax ((members.lookup "Tdc").getD .null) →
      (members'.lookup key).isSome = true := fun key v hmem => by
    have hmember : members'.lookup key = _ := h.member hmem
    rw [hmember]
    rfl
  have hcommon : ∀ field ∈ p.common addRelax, (members'.lookup field.1).isSome = true := fun field hfield =>
    hsome field.1 field.2 (mem_sent_of_common hfield _)
  rw [List.all_eq_true]
  intro key hkey
  simp only [configMembers, List.mem_cons, List.not_mem_nil, or_false] at hkey
  rcases hkey with rfl | rfl | rfl | rfl | rfl | rfl | rfl | rfl | rfl | rfl
  · rwa [hundriven _ (lookup_sent_fan _).1 (by simp [tpx3Keys]) (by simp [switches])]
  · rwa [hundriven _ (lookup_sent_fan _).2 (by simp [tpx3Keys]) (by simp [switches])]
  · exact hcommon ("BiasVoltage", _) (by simp [Params.common]; rfl)
  · exact hcommon ("BiasEnabled", _) (by simp [Params.common]; rfl)
  · exact hcommon ("TriggerIn", _) (by simp [Params.common]; rfl)
  · exact hcommon ("TriggerOut", _) (by simp [Params.common]; rfl)
  · exact hcommon ("ExposureTime", _) (by simp [Params.common]; rfl)
  · exact hcommon ("TriggerPeriod", _) (by simp [Params.common]; rfl)
  · exact hcommon ("nTriggers", _) (by simp [Params.common]; rfl)
  · exact hsome _ _ (List.mem_cons_self ..)

theorem initAcquisition_known (addRelax : ℚ → ℚ) (dump : Json → String) (server : Server σ)
    (hfamily : s.params.detectorFamily_ ≠ .Unknown) (detector : Option DetectorFamily) (put resynced : Bool) :
    initAcquisition addRelax dump server true detector put resynced s =
      configure addRelax dump server put resynced s := by
  unfold initAcquisition
  rw [if_pos rfl]
  cases hknown : s.params.detectorFamily_ with
  | Unknown => exact absurd hknown hfamily
  | TPX3 => rfl
  | MPX3 => rfl

theorem stored_elapsed (hkeeps : server.Keeps understands) (n : ℕ) (s : System σ) :
    server.stored (s.elapsed server n).serval = server.stored s.serval := by
  induction n generalizing s with
  | zero => rfl
  | succ n ih => exact (ih (s.elapsed server 1)).trans (hkeeps.elapse_stored s.serval)

/-- What is sent and accepted is read back as `returned` says, once Serval answers with it. -/
theorem reads_back_what_it_sent (addRelax : ℚ → ℚ) (dump : Json → String) (hkeeps : server.Keeps understands)
    (h : Ready server s) (detector : Option DetectorFamily) (resynced : Bool) :
    ∃ s₁, step addRelax dump server s (.initAcquisition true detector true resynced) = some s₁ ∧
      Sent addRelax understands s.params (s.config server) (.object (server.stored s₁.serval)) ∧
      ∀ n, (s₁.elapsed server n).CaughtUp server →
        ∃ s₂, step addRelax dump server (s₁.elapsed server n) (.getDetector s.params.detectorFamily_) = some s₂ ∧
          s₂.config server = server.stored s₁.serval ∧
          s₂.params = s.params.returned addRelax dump understands (s.config server) := by
  obtain ⟨body, hs₁, hsent⟩ := configure_accepted addRelax dump hkeeps h.writable h.conflict resynced
  refine ⟨_, (initAcquisition_known addRelax dump server h.family detector true resynced).trans hs₁, hsent,
    fun n hcaught => ?_⟩
  set s₁ : System σ :=
    ⟨s.params.prepared, s.detectorFamilyApplied_, server.accept body s.serval, s.params.prepared :: s.puts⟩
  have hconfig : (s₁.elapsed server n).config server = server.stored s₁.serval :=
    hcaught.trans (stored_elapsed hkeeps n s₁)
  have hupdate : updateDetectorFamily s.params.detectorFamily_ (s₁.elapsed server n) = s₁.elapsed server n := by
    have hparams : (s₁.elapsed server n).params.detectorFamily_ = s.params.detectorFamily_ := rfl
    have happlied : (s₁.elapsed server n).detectorFamilyApplied_ = true := h.applied
    unfold updateDetectorFamily
    dsimp only
    rw [if_neg]
    · rw [← hparams]
    · rw [hparams, happlied]
      simp
  refine ⟨{ s₁.elapsed server n with
      params := s.params.returned addRelax dump understands (s.config server) }, ?_, hconfig, rfl⟩
  show getDetector dump server s.params.detectorFamily_ (s₁.elapsed server n) = _
  unfold getDetector
  rw [hconfig, if_pos (configMembers_sent hsent h.fan1 h.fan2), hupdate]
  dsimp only
  rw [hconfig]
  have hparams : (s₁.elapsed server n).params = s.params.prepared := rfl
  rw [hparams, readBack_of_sent hsent h.int32 h.writable]

end Exchange

/-! ## A Serval that lags -/

/-- A Serval that has stored a configuration, and answers with it once time has passed. -/
def lateServer : Server (List (String × Json) × List (String × Json)) where
  stored := Prod.fst
  answer := Prod.snd
  accept body serval :=
    match body with
    | .object members => (keptMembers false members, serval.2)
    | _ => serval
  elapse serval := (serval.1, serval.1)

theorem lateServer_keeps : lateServer.Keeps false where
  accept_stored _ _ _ := lookup_keptMembers
  accept_answer body serval := by
    refine List.mem_cons.mpr (Or.inl ?_)
    cases body <;> rfl
  elapse_stored _ := rfl
  elapse_answer _ := List.mem_cons_of_mem _ (List.mem_cons_self ..)

/-- A Medipix3 with both counters and a depth that they do not allow. -/
def medipix3 : System (List (String × Json) × List (String × Json)) where
  params :=
    { detectorFamily_ := .MPX3, triggerMode := 4, acquireTime := 1 / 2, acquirePeriod := 1 / 4, numImages := 10,
      biasVolt := 100, biasEnable := 1, chainMode := 2, polarity := 1, triggerIn := 0, triggerOut := 0,
      triggerDelay := 0, globalTimestampInterval := 0, tdc0 := 0, tdc1 := 0, externalReferenceClock := 0,
      periphClk80 := 0, bothCounters := 1, chargeSumming := 0, colour := 0, gainMode := 1, pixelDepth := 24,
      counterSelectIn := 0, counterSelectOut := 0, iDelay0 := 15, iDelay1 := 15, iDelay2 := 15, iDelay3 := 10,
      logLevel := 1, fan1PWM := 0, fan2PWM := 0, nTriggers := 0, exposureTime := 0, triggerPeriod := 0,
      triggerModeText := "", tdc := "" }
  detectorFamilyApplied_ := true
  serval :=
    let config := [("Fan1PWM", .number_integer 100), ("Fan2PWM", .number_integer 90), ("Tdc", .array [])]
    (config, config)
  puts := []

theorem ready_medipix3 : Ready lateServer medipix3 where
  family := by simp [medipix3]
  applied := rfl
  int32 := by
    unfold Params.Int32 medipix3
    decide
  writable := by
    refine ⟨rfl, ?_, ?_, ?_, fun hfamily => absurd rfl hfamily⟩
    all_goals simp [medipix3, Params.driver]
  conflict := rfl
  fan1 := rfl
  fan2 := rfl

/-! ## Sending again -/

theorem booleanOf_booleanOf (v : Json) : booleanOf (booleanOf v) = booleanOf v := by
  fun_cases booleanOf v <;> simp_all [booleanOf]

theorem kept_kept (key : String) (v : Json) :
    kept understands key (kept understands key v) = kept understands key v := by
  unfold kept
  split
  case isTrue => exact booleanOf_booleanOf v
  case isFalse => rfl

theorem kept_switchBack_iff (key : String) (hkey : key ∈ switches) {i : ℤ} (hi : 0 ≤ i) :
    kept understands key (labelAt switchLabels (switchBack understands i)) =
      kept understands key (labelAt switchLabels i) ↔ SwitchKept understands i := by
  obtain ⟨n, rfl⟩ := Int.eq_ofNat_of_zero_le hi
  match n with
  | 0 => simp [switchBack, SwitchKept]
  | 1 =>
    unfold kept switchBack SwitchKept
    cases understands <;> simp [labelAt, switchLabels, hkey, booleanOf]
  | n + 2 =>
    have hnull : labelAt switchLabels ((n + 2 : ℕ) : ℤ) = .null := labelAt_of_le (Nat.le_add_left 2 n)
    have hback : switchBack understands ((n + 2 : ℕ) : ℤ) = 0 := by
      unfold switchBack
      rw [if_neg (by omega)]
    refine iff_of_false ?_ ?_
    · rw [hnull, hback]
      unfold kept
      cases understands <;> simp [labelAt, switchLabels, hkey, booleanOf]
    · unfold SwitchKept
      omega

theorem label_chainMode_iff {i : ℤ} (hi : 0 ≤ i) :
    labelAt chainModeLabels (if i ≤ 2 then i else 0) = labelAt chainModeLabels i ↔ i ≤ 2 := by
  by_cases h : i ≤ 2
  · rw [if_pos h]
    exact iff_of_true rfl h
  · rw [if_neg h]
    refine iff_of_false ?_ h
    obtain ⟨n, rfl⟩ := Int.eq_ofNat_of_zero_le hi
    have hnull : labelAt chainModeLabels (n : ℤ) = .null := labelAt_of_le (by simp [chainModeLabels]; omega)
    rw [hnull]
    simp [labelAt, chainModeLabels]

theorem label_polarity_iff {i : ℤ} (hi : 0 ≤ i) :
    labelAt polarityLabels (if i = 1 then 1 else 0) = labelAt polarityLabels i ↔ i ≤ 1 := by
  obtain ⟨n, rfl⟩ := Int.eq_ofNat_of_zero_le hi
  match n with
  | 0 => simp
  | 1 => simp
  | n + 2 =>
    rw [if_neg (by omega)]
    refine iff_of_false ?_ (by omega)
    have hnull : labelAt polarityLabels ((n + 2 : ℕ) : ℤ) = .null := labelAt_of_le (Nat.le_add_left 2 n)
    rw [hnull]
    simp [labelAt, polarityLabels]

/-- The fields of the parameters that came back on which every detector's members depend. -/
structure ReturnedCommon (addRelax : ℚ → ℚ) (understands : Bool) (p q : Params) : Prop where
  family : q.detectorFamily_ = p.detectorFamily_
  triggerMode : q.triggerMode = p.triggerModeIdx
  acquireTime : q.acquireTime = p.acquireTime
  acquirePeriod : q.acquirePeriod = p.sentPeriod addRelax
  numImages : q.numImages = p.numImages
  biasVolt : q.biasVolt = p.biasVolt
  biasEnable : q.biasEnable = switchBack understands p.biasEnable
  chainMode : q.chainMode = if p.chainMode ≤ 2 then p.chainMode else 0
  polarity : q.polarity = if p.polarity = 1 then 1 else 0
  triggerIn : q.triggerIn = p.triggerIn
  triggerOut : q.triggerOut = p.triggerOut
  logLevel : q.logLevel = p.logLevel

theorem returned_common (addRelax : ℚ → ℚ) (dump : Json → String) (understands : Bool) (p : Params)
    (members : List (String × Json)) :
    ReturnedCommon addRelax understands p (p.returned addRelax dump understands members) := by
  unfold Params.returned
  by_cases hfamily : p.detectorFamily_ = .MPX3
  · rw [if_pos hfamily]
    exact ⟨rfl, rfl, rfl, rfl, rfl, rfl, rfl, rfl, rfl, rfl, rfl, rfl⟩
  · rw [if_neg hfamily]
    exact ⟨rfl, rfl, rfl, rfl, rfl, rfl, rfl, rfl, rfl, rfl, rfl, rfl⟩

variable {q : Params}

theorem ReturnedCommon.triggerModeIdx_eq (h : ReturnedCommon addRelax understands p q) :
    q.triggerModeIdx = p.triggerModeIdx := by
  have hmode : q.driver.triggerMode = p.checked.driver.triggerMode := h.triggerMode
  rw [← triggerModeIdx_checked p]
  unfold Params.triggerModeIdx Driver.triggerModeIdx
  rw [hmode]

theorem ReturnedCommon.sentPeriod_eq (h : ReturnedCommon addRelax understands p q) :
    q.sentPeriod addRelax = p.sentPeriod addRelax := by
  rw [Params.sentPeriod, h.triggerModeIdx_eq, h.acquireTime, h.acquirePeriod]
  unfold Params.sentPeriod
  by_cases hcont : p.triggerModeIdx = 5
  · simp only [if_pos hcont]
  · simp only [if_neg hcont]
    by_cases hle : p.acquirePeriod ≤ addRelax p.acquireTime
    · simp only [if_pos hle, ite_self]
    · simp only [if_neg hle]

/-- The members of all detectors that are sent again; three of them may differ. -/
theorem ReturnedCommon.common_eq (h : ReturnedCommon addRelax understands p q) :
    q.common addRelax =
      [("TriggerMode", .string (triggerModeServalName p.triggerModeIdx)),
        ("ExposureTime", .number_float p.acquireTime),
        ("TriggerPeriod", .number_float (p.sentPeriod addRelax)),
        ("nTriggers", .number_integer p.numImages),
        ("BiasVoltage", .number_integer p.biasVolt),
        ("BiasEnabled", labelAt switchLabels (switchBack understands p.biasEnable)),
        ("ChainMode", labelAt chainModeLabels (if p.chainMode ≤ 2 then p.chainMode else 0)),
        ("Polarity", labelAt polarityLabels (if p.polarity = 1 then 1 else 0)),
        ("TriggerIn", .number_integer p.triggerIn),
        ("TriggerOut", .number_integer p.triggerOut)] := by
  unfold Params.common
  rw [h.triggerModeIdx_eq, h.sentPeriod_eq, h.acquireTime, h.numImages, h.biasVolt, h.biasEnable, h.chainMode,
    h.polarity, h.triggerIn, h.triggerOut]

/-- A depth of 24 is not sent together with both counters. -/
theorem no_depthConflict (hfamily : p.detectorFamily_ = .MPX3) (h24 : p.sentDepth = 24) : p.bothCounters = 0 := by
  by_contra hne
  unfold Params.sentDepth at h24
  split at h24
  case isTrue => cases h24
  case isFalse hnot =>
    rw [h24] at hnot
    exact hnot (by simp [Params.mpx3BothCountersPixelDepthConflict, hfamily, hne])

theorem sentDepth_returned (addRelax : ℚ → ℚ) (dump : Json → String) (understands : Bool)
    (members : List (String × Json)) (hfamily : p.detectorFamily_ = .MPX3) :
    (p.returned addRelax dump understands members).sentDepth = p.sentDepth := by
  have hpixel : (p.returned addRelax dump understands members).pixelDepth = p.sentDepth := by
    unfold Params.returned
    rw [if_pos hfamily]
  have hboth : (p.returned addRelax dump understands members).bothCounters = if p.bothCounters = 0 then 0 else 1 := by
    unfold Params.returned
    rw [if_pos hfamily]
  have hnorm : pixelDepthNormalize p.sentDepth = p.sentDepth := by
    rcases sentDepth_cases p with h | h | h | h <;> rw [h] <;> rfl
  have hclear : ¬(p.returned addRelax dump understands members).mpx3BothCountersPixelDepthConflict p.sentDepth =
      true := by
    unfold Params.mpx3BothCountersPixelDepthConflict
    rw [hboth]
    by_cases h24 : p.sentDepth = 24
    · simp [no_depthConflict hfamily h24]
    · simp [h24]
  rw [Params.sentDepth, hpixel, hnorm, if_neg hclear]

/-- A Medipix3 is sent the same members of its own again. -/
theorem mpx3_returned (hfamily : p.detectorFamily_ = .MPX3) :
    (p.returned addRelax dump understands members).mpx3 = p.mpx3 := by
  have hdepth := sentDepth_returned addRelax dump understands members hfamily
  have hflag : ∀ z : ℤ, decide ((if z = 0 then (0 : ℤ) else 1) ≠ 0) = decide (z ≠ 0) := by
    intro z
    by_cases hz : z = 0 <;> simp [hz]
  have hgain : gainModeToString (if 0 ≤ p.gainMode ∧ p.gainMode ≤ 3 then p.gainMode else 0) =
      gainModeToString p.gainMode := by
    split
    case isTrue => rfl
    case isFalse h =>
      unfold gainModeToString
      rw [if_pos (show p.gainMode < 0 ∨ p.gainMode > 3 by omega)]
      rfl
  unfold Params.mpx3
  rw [hdepth]
  unfold Params.returned
  rw [if_pos hfamily]
  dsimp only
  rw [hflag, hflag, hflag, hgain]

/-- `Tdc` begins with the two choices, and goes on as it did. -/
theorem sentTdc_eq (p : Params) (tdc : Json) :
    p.sentTdc tdc = .array (labelAt Replies.tdcLabels p.tdc0 :: labelAt Replies.tdcLabels p.tdc1 ::
      (Replies.elements tdc).drop 2) := by
  unfold Params.sentTdc
  match Replies.elements tdc with
  | [] => rfl
  | [_] => rfl
  | _ :: _ :: rest => simp [Json.fillTo]

theorem sentTdc_sentTdc (h0 : q.tdc0 = p.tdc0) (h1 : q.tdc1 = p.tdc1) (tdc : Json) :
    q.sentTdc (p.sentTdc tdc) = p.sentTdc tdc := by
  rw [sentTdc_eq, sentTdc_eq, h0, h1]
  rfl

/-- A Timepix3 is sent the same members of its own again, but for the switches. -/
theorem tpx3_returned (hfamily : p.detectorFamily_ ≠ .MPX3) (tdc : Json) :
    (p.returned addRelax dump understands members).tpx3 (p.sentTdc tdc) =
      [("TriggerDelay", .number_float p.triggerDelay),
        ("GlobalTimestampInterval", .number_float p.globalTimestampInterval),
        ("Tdc", p.sentTdc tdc),
        ("ExternalReferenceClock", labelAt switchLabels (switchBack understands p.externalReferenceClock)),
        ("PeriphClk80", labelAt switchLabels (switchBack understands p.periphClk80))] := by
  have htdc : (p.returned addRelax dump understands members).sentTdc (p.sentTdc tdc) = p.sentTdc tdc := by
    refine sentTdc_sentTdc ?_ ?_ tdc
    · unfold Params.returned
      rw [if_neg hfamily]
      rfl
    · unfold Params.returned
      rw [if_neg hfamily]
      rfl
  rw [Params.tpx3, htdc]
  unfold Params.returned
  rw [if_neg hfamily]

/-- The `Tdc` that is there when the configuration is sent again. -/
def tdcAfter (p : Params) (tdc : Json) : Json := if p.detectorFamily_ = .MPX3 then .null else p.sentTdc tdc

/-- Where every choice and switch comes back, the same members are sent again. -/
theorem keptMembers_resent (addRelax : ℚ → ℚ) (dump : Json → String)
    (hwritable : ConfigWritable p.driver (.object members)) (hres : Resendable understands p) (tdc : Json) :
    keptMembers understands ((p.returned addRelax dump understands members).sent addRelax (tdcAfter p tdc)) =
      keptMembers understands (p.sent addRelax tdc) := by
  obtain ⟨-, hbias, hchain, hpolarity, hrest⟩ := hwritable
  obtain ⟨hbiasKept, hchainKept, hpolarityKept, hswitches⟩ := hres
  have hcommon := returned_common addRelax dump understands p members
  have hbiasEq := (kept_switchBack_iff "BiasEnabled" (by simp [switches]) (show 0 ≤ p.biasEnable from hbias)).mpr
    hbiasKept
  have hchainEq := (label_chainMode_iff (show 0 ≤ p.chainMode from hchain)).mpr hchainKept
  have hpolarityEq := (label_polarity_iff (show 0 ≤ p.polarity from hpolarity)).mpr hpolarityKept
  unfold Params.sent tdcAfter
  rw [hcommon.family, hcommon.logLevel, hcommon.common_eq, hchainEq, hpolarityEq]
  unfold keptMembers Params.common
  by_cases hfamily : p.detectorFamily_ = .MPX3
  · rw [if_pos hfamily, if_pos hfamily, mpx3_returned hfamily]
    simp only [List.map_cons, List.map_append, List.map_nil]
    rw [hbiasEq]
  · obtain ⟨-, -, -, hclock, hclk80⟩ := hrest hfamily
    obtain ⟨hclockKept, hclk80Kept⟩ := hswitches hfamily
    have hclockEq := (kept_switchBack_iff "ExternalReferenceClock" (by simp [switches])
      (show 0 ≤ p.externalReferenceClock from hclock)).mpr hclockKept
    have hclk80Eq := (kept_switchBack_iff "PeriphClk80" (by simp [switches])
      (show 0 ≤ p.periphClk80 from hclk80)).mpr hclk80Kept
    rw [if_neg hfamily, if_neg hfamily, if_neg hfamily, tpx3_returned hfamily]
    unfold Params.tpx3
    simp only [List.map_cons, List.map_append, List.map_nil]
    rw [hbiasEq, hclockEq, hclk80Eq]

/-- A driven member that is sent again. -/
theorem lookup_of_keptMembers {fields fields' : List (String × Json)}
    (h : keptMembers understands fields = keptMembers understands fields') (key : String) :
    (fields.lookup key).map (kept understands key) = (fields'.lookup key).map (kept understands key) := by
  rw [← lookup_keptMembers, h, lookup_keptMembers]

theorem tdc_of_sent (h : Sent addRelax understands p members cfg) :
    (cfg.member "Tdc").getD .null = tdcAfter p ((members.lookup "Tdc").getD .null) := by
  unfold tdcAfter
  by_cases hfamily : p.detectorFamily_ = .MPX3
  · rw [if_pos hfamily, h.member_stripped hfamily (by simp [tpx3Keys])]
    rfl
  · have hmem : ("Tdc", p.sentTdc ((members.lookup "Tdc").getD .null)) ∈
        p.sent addRelax ((members.lookup "Tdc").getD .null) :=
      mem_sent_of_tpx3 hfamily (by simp [Params.tpx3])
    rw [if_neg hfamily, h.member hmem, kept_of_not_mem (by simp [switches])]
    rfl

theorem zero_le_switchBack (understands : Bool) (i : ℤ) : 0 ≤ switchBack understands i := by
  unfold switchBack
  split <;> omega

/-- What came back can be sent. -/
theorem writable_returned (h : Sent addRelax understands p members cfg)
    (hwritable : ConfigWritable p.driver (.object members)) (hcfg : Replies.indexable cfg = true) :
    ConfigWritable (p.returned addRelax dump understands members).driver cfg := by
  obtain ⟨-, hbias, hchain, hpolarity, hrest⟩ := hwritable
  have hcommon := returned_common addRelax dump understands p members
  refine ⟨hcfg, ?_, ?_, ?_, fun hfamily => ?_⟩
  · show 0 ≤ (p.returned addRelax dump understands members).biasEnable
    rw [hcommon.biasEnable]
    exact zero_le_switchBack _ _
  · show 0 ≤ (p.returned addRelax dump understands members).chainMode
    rw [hcommon.chainMode]
    split
    · exact hchain
    · exact Int.le_refl 0
  · show 0 ≤ (p.returned addRelax dump understands members).polarity
    rw [hcommon.polarity]
    split <;> omega
  · have hfamily' : p.detectorFamily_ ≠ .MPX3 := by
      rw [← hcommon.family]
      exact hfamily
    obtain ⟨-, h0, h1, -, -⟩ := hrest hfamily'
    rw [tdc_of_sent h, tdcAfter, if_neg hfamily', sentTdc_eq]
    unfold Params.returned
    rw [if_neg hfamily']
    exact ⟨rfl, h0, h1, zero_le_switchBack _ _, zero_le_switchBack _ _⟩

theorem conflict_returned (hconflict : p.driver.mpx3BothCountersTriggerConflict = false) :
    (p.returned addRelax dump understands members).driver.mpx3BothCountersTriggerConflict = false := by
  have hcommon := returned_common addRelax dump understands p members
  have hidx : (p.returned addRelax dump understands members).driver.triggerModeIdx = p.driver.triggerModeIdx :=
    hcommon.triggerModeIdx_eq
  have hfam : (p.returned addRelax dump understands members).driver.detectorFamily_ = p.detectorFamily_ :=
    hcommon.family
  unfold Driver.mpx3BothCountersTriggerConflict at hconflict ⊢
  rw [hidx, hfam]
  by_cases hfamily : p.detectorFamily_ = .MPX3
  · have hboth : (p.returned addRelax dump understands members).driver.bothCounters =
        if p.bothCounters = 0 then 0 else 1 := by
      show (p.returned addRelax dump understands members).bothCounters = _
      unfold Params.returned
      rw [if_pos hfamily]
    rw [hboth]
    by_cases hzero : p.bothCounters = 0
    · simp [hzero]
    · have hne : p.driver.bothCounters ≠ 0 := hzero
      have hfamily' : p.driver.detectorFamily_ = .MPX3 := hfamily
      simpa [hzero, hne, hfamily, hfamily'] using hconflict
  · simp [hfamily]

/-- The same members are kept once more. -/
theorem lookup_resent {cfg₃ : Json} (h : Sent addRelax understands p members cfg)
    (hwritable : ConfigWritable p.driver (.object members)) {members₁ : List (String × Json)}
    (hcfg : cfg = .object members₁)
    (h₃ : Sent addRelax understands (p.returned addRelax dump understands members) members₁ cfg₃)
    (hres : Resendable understands p) (key : String) : cfg₃.member key = cfg.member key := by
  have hfam := (returned_common addRelax dump understands p members).family
  have htdc : (members₁.lookup "Tdc").getD .null = tdcAfter p ((members.lookup "Tdc").getD .null) := by
    have hafter := tdc_of_sent h
    rw [hcfg] at hafter
    exact hafter
  have hfields := lookup_of_keptMembers
    (keptMembers_resent addRelax dump hwritable hres ((members.lookup "Tdc").getD .null)) key
  have hold : (members₁.lookup key) = cfg.member key := by
    rw [hcfg]
    rfl
  rw [h₃ key]
  have hcfgKey := h key
  unfold Params.sentMember at hcfgKey ⊢
  rw [hfam, htdc]
  by_cases hkeys : p.detectorFamily_ = .MPX3 ∧ key ∈ tpx3Keys
  · rw [if_pos hkeys] at hcfgKey ⊢
    rw [hcfgKey]
  · rw [if_neg hkeys] at hcfgKey ⊢
    cases hlookup : (p.sent addRelax ((members.lookup "Tdc").getD .null)).lookup key with
    | none =>
      rw [hlookup, Option.map_none, Option.map_eq_none_iff] at hfields
      rw [hfields, Option.none_or, hold, hcfgKey, hlookup, Option.none_or, Option.map_map]
      congr 1
      funext v
      exact kept_kept key v
    | some v =>
      rw [hlookup, Option.map_some, Option.map_eq_some_iff] at hfields
      obtain ⟨w, hw, hkept⟩ := hfields
      rw [hw, hcfgKey, hlookup]
      exact congrArg some hkept

/-- A choice that does not come back is sent differently. -/
theorem resendable_of_lookup {members₁ : List (String × Json)} {cfg₃ : Json}
    (h : Sent addRelax understands p members cfg) (hwritable : ConfigWritable p.driver (.object members))
    (h₃ : Sent addRelax understands (p.returned addRelax dump understands members) members₁ cfg₃)
    (hsame : ∀ key, cfg₃.member key = cfg.member key) : Resendable understands p := by
  obtain ⟨-, hbias, hchain, hpolarity, hrest⟩ := hwritable
  have hcommon := returned_common addRelax dump understands p members
  -- what is kept of a member that both send
  have hkept : ∀ (key : String) (v w : Json), (key, v) ∈ p.sent addRelax ((members.lookup "Tdc").getD .null) →
      (key, w) ∈ (p.returned addRelax dump understands members).sent addRelax ((members₁.lookup "Tdc").getD .null) →
      kept understands key w = kept understands key v := by
    intro key v w hv hw
    have heq := hsame key
    rw [h₃.member hw, h.member hv, Option.some_inj] at heq
    exact heq
  have hagain : ∀ field, field ∈ (p.returned addRelax dump understands members).common addRelax →
      field ∈ (p.returned addRelax dump understands members).sent addRelax ((members₁.lookup "Tdc").getD .null) :=
    fun field hfield => mem_sent_of_common hfield _
  rw [hcommon.common_eq] at hagain
  refine ⟨?_, ?_, ?_, fun hfamily => ?_⟩
  · refine (kept_switchBack_iff "BiasEnabled" (by simp [switches]) (show 0 ≤ p.biasEnable from hbias)).mp ?_
    exact hkept _ _ _ (mem_sent_of_common (by simp [Params.common]) _) (hagain _ (by simp))
  · refine (label_chainMode_iff (show 0 ≤ p.chainMode from hchain)).mp ?_
    have heq := hkept "ChainMode" (labelAt chainModeLabels p.chainMode)
      (labelAt chainModeLabels (if p.chainMode ≤ 2 then p.chainMode else 0))
      (mem_sent_of_common (by simp [Params.common]) _) (hagain _ (by simp))
    rwa [kept_of_not_mem (by simp [switches]), kept_of_not_mem (by simp [switches])] at heq
  · refine (label_polarity_iff (show 0 ≤ p.polarity from hpolarity)).mp ?_
    have heq := hkept "Polarity" (labelAt polarityLabels p.polarity)
      (labelAt polarityLabels (if p.polarity = 1 then 1 else 0))
      (mem_sent_of_common (by simp [Params.common]) _) (hagain _ (by simp))
    rwa [kept_of_not_mem (by simp [switches]), kept_of_not_mem (by simp [switches])] at heq
  · obtain ⟨-, -, -, hclock, hclk80⟩ := hrest hfamily
    have hfamily' : (p.returned addRelax dump understands members).detectorFamily_ ≠ .MPX3 := by
      rw [hcommon.family]
      exact hfamily
    have hclockBack : (p.returned addRelax dump understands members).externalReferenceClock =
        switchBack understands p.externalReferenceClock := by
      unfold Params.returned
      rw [if_neg hfamily]
    have hclk80Back : (p.returned addRelax dump understands members).periphClk80 =
        switchBack understands p.periphClk80 := by
      unfold Params.returned
      rw [if_neg hfamily]
    constructor
    · refine (kept_switchBack_iff "ExternalReferenceClock" (by simp [switches])
        (show 0 ≤ p.externalReferenceClock from hclock)).mp ?_
      exact hkept _ _ _ (mem_sent_of_tpx3 hfamily (by simp [Params.tpx3]))
        (mem_sent_of_tpx3 hfamily' (by simp [Params.tpx3, hclockBack]))
    · refine (kept_switchBack_iff "PeriphClk80" (by simp [switches]) (show 0 ≤ p.periphClk80 from hclk80)).mp ?_
      exact hkept _ _ _ (mem_sent_of_tpx3 hfamily (by simp [Params.tpx3]))
        (mem_sent_of_tpx3 hfamily' (by simp [Params.tpx3, hclk80Back]))

section Resend

variable {σ : Type} {server : Server σ} {s : System σ}

end Resend

/-! ## Runs -/

/-- A body is only built of a configuration that can be written. -/
theorem writable_of_buildConfig {body : Json} {d' : Driver}
    (h : outcome (p.buildConfig addRelax (.object members)) d = (.ok body, d')) :
    ConfigWritable p.driver (.object members) := by
  have hwithin : Within (fun _ => False) (p.buildConfig addRelax (.object members)) d := by
    intro e he
    rw [h] at he
    cases he
  obtain ⟨members₁, htdc, hcommon⟩ := Replies.within_commonMembers_bind (s := p.driver) (p.values addRelax)
    p.triggerModeIdx members Json
  have hmember : (Json.object members₁).member "Tdc" = (Json.object members).member "Tdc" := htdc
  unfold Params.buildConfig at hwithin
  rw [hcommon] at hwithin
  obtain ⟨⟨hbias, hchain, hpolarity⟩, hrest⟩ := hwithin
  refine ⟨rfl, hbias, hchain, hpolarity, fun hfamily => ?_⟩
  have hfamily' : p.detectorFamily_ ≠ .MPX3 := hfamily
  rw [if_pos hfamily', Replies.within_tpx3Members_bind fun members₂ => by
    rw [Replies.setMember_object]
    exact within_pure.mpr trivial, hmember] at hrest
  exact hrest

theorem sent_prepared (p : Params) (tdc : Json) : p.prepared.sent addRelax tdc = p.sent addRelax tdc := by
  have hidx : p.prepared.triggerModeIdx = p.triggerModeIdx := triggerModeIdx_checked p
  have hperiod : p.prepared.sentPeriod addRelax = p.sentPeriod addRelax := by
    unfold Params.sentPeriod
    rw [hidx]
    rfl
  have hcommon : p.prepared.common addRelax = p.common addRelax := by
    unfold Params.common
    rw [hidx, hperiod]
    rfl
  unfold Params.sent
  rw [hcommon]
  by_cases hfamily : p.detectorFamily_ = .MPX3
  · have hdepth : p.prepared.sentDepth = p.sentDepth := by
      have hnorm : pixelDepthNormalize p.sentDepth = p.sentDepth := by
        rcases sentDepth_cases p with h | h | h | h <;> rw [h] <;> rfl
      have hclear : ¬p.prepared.mpx3BothCountersPixelDepthConflict p.sentDepth = true := by
        show ¬p.mpx3BothCountersPixelDepthConflict p.sentDepth = true
        unfold Params.mpx3BothCountersPixelDepthConflict
        by_cases h24 : p.sentDepth = 24
        · simp [no_depthConflict hfamily h24]
        · simp [h24]
      have hpixel : p.prepared.pixelDepth = p.sentDepth := if_pos hfamily
      rw [Params.sentDepth, hpixel, hnorm, if_neg hclear]
    have hmpx3 : p.prepared.mpx3 = p.mpx3 := by
      unfold Params.mpx3
      rw [hdepth]
      rfl
    have hfamily' : p.prepared.detectorFamily_ = .MPX3 := hfamily
    rw [if_pos hfamily, if_pos hfamily', hmpx3]
    rfl
  · have hfamily' : ¬p.prepared.detectorFamily_ = .MPX3 := hfamily
    rw [if_neg hfamily, if_neg hfamily']
    rfl

theorem lookup_sent_undriven (hkey : key ∉ drivenKeys) (tdc : Json) : (p.sent addRelax tdc).lookup key = none := by
  rw [List.lookup_eq_none_iff]
  intro field hfield
  have hnames : ∀ name ∈ (p.sent addRelax tdc).map Prod.fst, name ∈ drivenKeys := by
    unfold Params.sent
    split <;> simp [Params.common, Params.mpx3, Params.tpx3, drivenKeys, tpx3Keys]
  have hne : key ≠ field.1 := by
    rintro rfl
    exact hkey (hnames _ (List.mem_map_of_mem hfield))
  simpa using hne

section Run

variable {σ : Type} {server : Server σ} {s s' : System σ} {put resynced : Bool}

/-- Serval has accepted a PUT of the parameters. -/
def Accepted (addRelax : ℚ → ℚ) (understands : Bool) (server : Server σ) (s s' : System σ) (p : Params) : Prop :=
  s'.puts = p.prepared :: s.puts ∧ (∃ body, s'.serval = server.accept body s.serval) ∧
    Sent addRelax understands p (s.config server) (.object (server.stored s'.serval))

/-- `configure` leaves Serval as it is, or has sent its parameters. -/
theorem configure_serval (hkeeps : server.Keeps understands)
    (h : configure addRelax dump server put resynced s = some s') :
    (s'.serval = s.serval ∧ s'.puts = s.puts) ∨ Accepted addRelax understands server s s' s.params := by
  by_cases hconflict : s.params.driver.mpx3BothCountersTriggerConflict = true
  · have hconflict' : s.params.checked.driver.mpx3BothCountersTriggerConflict = true := by
      rw [conflict_checked, hconflict]
    unfold configure at h
    dsimp only at h
    rw [if_pos hconflict'] at h
    obtain rfl := Option.some.inj h
    exact Or.inl ⟨rfl, rfl⟩
  · have hconflict' : ¬s.params.checked.driver.mpx3BothCountersTriggerConflict = true := by
      rw [conflict_checked]
      exact hconflict
    have hconfig : ({ s with params := s.params.checked } : System σ).config server = s.config server := rfl
    cases houtcome : outcome (s.params.checked.buildConfig addRelax (.object (s.config server)))
        s.params.checked.driver with
    | mk result d' =>
      cases result with
      | error fault =>
        unfold configure at h
        dsimp only at h
        rw [if_neg hconflict', hconfig, houtcome] at h
        cases fault with
        | undefined => cases h
        | exception =>
          obtain rfl := Option.some.inj h
          exact Or.inl ⟨rfl, rfl⟩
      | ok body =>
        have hchecked : ConfigWritable s.params.checked.driver (.object (s.config server)) :=
          writable_of_buildConfig houtcome
        have hwritable : ConfigWritable s.params.driver (.object (s.config server)) := hchecked
        cases put with
        | true =>
          obtain ⟨body', hs₁, hsent⟩ := configure_accepted addRelax dump hkeeps hwritable (by simpa using hconflict)
            resynced
          obtain rfl := Option.some.inj (h.symm.trans hs₁)
          exact Or.inr ⟨rfl, ⟨body', rfl⟩, hsent⟩
        | false =>
          unfold configure at h
          dsimp only at h
          rw [if_neg hconflict', hconfig, houtcome] at h
          dsimp only at h
          rw [if_neg Bool.false_ne_true] at h
          split at h
          all_goals
            obtain rfl := Option.some.inj h
            exact Or.inl ⟨rfl, rfl⟩

theorem getDetector_serval {family : DetectorFamily} (h : getDetector dump server family s = some s') :
    s'.serval = s.serval ∧ s'.puts = s.puts := by
  unfold getDetector at h
  split at h
  · obtain rfl := Option.some.inj h
    unfold updateDetectorFamily
    dsimp only
    split <;> exact ⟨rfl, rfl⟩
  · cases h

/-- What a step does to Serval. -/
theorem step_serval (hkeeps : server.Keeps understands) {e : Event} (h : step addRelax dump server s e = some s') :
    ((s'.serval = s.serval ∨ s'.serval = server.elapse s.serval) ∧ s'.puts = s.puts) ∨
      ∃ p, Accepted addRelax understands server s s' p := by
  have hconfigure : ∀ {s₁ : System σ} {put resynced : Bool}, s₁.serval = s.serval → s₁.puts = s.puts →
      configure addRelax dump server put resynced s₁ = some s' →
      ((s'.serval = s.serval ∨ s'.serval = server.elapse s.serval) ∧ s'.puts = s.puts) ∨
        ∃ p, Accepted addRelax understands server s s' p := by
    intro s₁ put resynced hserval hputs h₁
    rcases configure_serval hkeeps h₁ with ⟨hserval', hputs'⟩ | ⟨hputs', hbody, hsent⟩
    · exact Or.inl ⟨Or.inl (hserval'.trans hserval), hputs'.trans hputs⟩
    · rw [hputs] at hputs'
      rw [hserval] at hbody
      unfold System.config at hsent
      rw [hserval] at hsent
      exact Or.inr ⟨s₁.params, hputs', hbody, hsent⟩
  cases e with
  | set q =>
    obtain rfl := Option.some.inj h
    exact Or.inl ⟨Or.inl rfl, rfl⟩
  | getDetector family =>
    obtain ⟨hserval, hputs⟩ := getDetector_serval h
    exact Or.inl ⟨Or.inl hserval, hputs⟩
  | elapse =>
    obtain rfl := Option.some.inj h
    exact Or.inl ⟨Or.inr rfl, rfl⟩
  | initAcquisition get detector put resync =>
    have hinit : initAcquisition addRelax dump server get detector put resync s = some s' := h
    unfold initAcquisition at hinit
    split at hinit
    · split at hinit
      · obtain ⟨s₁, hs₁, hrest⟩ := Option.bind_eq_some_iff.mp hinit
        obtain ⟨hserval, hputs⟩ := getDetector_serval hs₁
        exact hconfigure hserval hputs hrest
      · exact hconfigure rfl rfl hinit
    · obtain rfl := Option.some.inj hinit
      exact Or.inl ⟨Or.inl rfl, rfl⟩

variable {initial : List (String × Json)}

/-- Serval has stored what it had, and answers with what it answered or has stored. -/
theorem Follows.congr (h : Follows addRelax understands server initial s)
    (hstored : server.stored s'.serval = server.stored s.serval) (hputs : s'.puts = s.puts)
    (hanswer : s'.config server = s.config server ∨ s'.config server = server.stored s.serval) :
    Follows addRelax understands server initial s' := by
  refine ⟨?_, ?_, ?_, ?_, fun key hkey => ?_⟩
  · rw [hstored, hputs]
    exact h.untouched
  · rw [hstored, hputs]
    exact h.driven
  · rw [hstored, hputs]
    exact h.stripped
  · rw [hstored]
    exact h.undriven
  · rcases hanswer with hanswer | hanswer
    · rw [hanswer]
      exact h.answered key hkey
    · rw [hanswer]
      exact h.undriven key hkey

theorem Follows.accepted (hkeeps : server.Keeps understands) (h : Follows addRelax understands server initial s)
    (haccepted : Accepted addRelax understands server s s' p) :
    Follows addRelax understands server initial s' := by
  obtain ⟨hputs, ⟨body, hbody⟩, hsent⟩ := haccepted
  have hundriven : ∀ key ∉ drivenKeys, (server.stored s'.serval).lookup key = initial.lookup key := by
    intro key hkey
    have hkeys : key ∉ tpx3Keys := fun hmem => hkey (List.mem_append_right _ hmem)
    have hswitch : key ∉ switches := by
      intro hmem
      refine hkey ?_
      simp only [switches, List.mem_cons, List.not_mem_nil, or_false] at hmem
      rcases hmem with rfl | rfl | rfl <;> simp [drivenKeys, tpx3Keys]
    rw [← h.answered key hkey]
    exact hsent.member_undriven (lookup_sent_undriven hkey _) (fun hboth => hkeys hboth.2) hswitch
  refine ⟨fun hnone => ?_, fun q hq => ?_, fun q hq hfamily key hkey => ?_, hundriven, fun key hkey => ?_⟩
  · rw [hputs] at hnone
    cases hnone
  · rw [hputs] at hq
    obtain rfl : p.prepared = q := Option.some.inj hq
    refine ⟨((s.config server).lookup "Tdc").getD .null, fun field hfield => ?_⟩
    rw [sent_prepared] at hfield
    exact hsent.member hfield
  · rw [hputs] at hq
    obtain rfl : p.prepared = q := Option.some.inj hq
    exact hsent.member_stripped hfamily hkey
  · have hanswer := hkeeps.accept_answer body s.serval
    rw [← hbody] at hanswer
    simp only [List.mem_cons, List.not_mem_nil, or_false] at hanswer
    unfold System.config
    rcases hanswer with hanswer | hanswer | hanswer <;> rw [hanswer]
    · exact h.answered key hkey
    · exact h.undriven key hkey
    · exact hundriven key hkey

theorem Follows.step (hkeeps : server.Keeps understands) {e : Event}
    (h : Follows addRelax understands server initial s) (hstep : step addRelax dump server s e = some s') :
    Follows addRelax understands server initial s' := by
  rcases step_serval hkeeps hstep with ⟨hserval | hserval, hputs⟩ | ⟨p, haccepted⟩
  · refine h.congr (congrArg server.stored hserval) hputs (Or.inl ?_)
    exact congrArg server.answer hserval
  · refine h.congr (by rw [hserval, hkeeps.elapse_stored]) hputs ?_
    have hanswer := hkeeps.elapse_answer s.serval
    rw [← hserval] at hanswer
    simp only [List.mem_cons, List.not_mem_nil, or_false] at hanswer
    exact hanswer
  · exact h.accepted hkeeps haccepted

end Run

end ADTimePix3.Serval.DetectorConfig
