import ADTimePix3.Serval.CounterGuard

/-!
# Proofs: the counter guard of Medipix3

A thread that is left undisturbed gets from every program point to one whose assumptions hold: what it reads
establishes them. A body is only built from values that were checked, so that nothing that is PUT is a combination
the detector does not take.
-/

namespace ADTimePix3.Serval.Guard

open Acquire (Response)
open ADTimePix3.Stream (Json)

/-! ## Bodies -/

theorem triggerModeServalName_continuous {index : ℤ} (h : triggerModeServalName index = "CONTINUOUS") :
    index = 5 := by
  unfold triggerModeServalName at h
  by_cases hrange : triggerModeOutOfRange index = true
  · rw [if_pos hrange] at h
    exact absurd h (by decide)
  · rw [if_neg hrange] at h
    simp only [triggerModeOutOfRange, Bool.or_eq_true, decide_eq_true_eq, not_or, not_lt, not_le] at hrange
    obtain ⟨hnonneg, hlt⟩ := hrange
    obtain ⟨n, rfl⟩ := Int.eq_ofNat_of_zero_le hnonneg
    have hn : n < 9 := by exact_mod_cast hlt
    have hnames : ∀ m < 9, ((kTriggerModes[m]?).map Prod.snd).getD "" = "CONTINUOUS" → m = 5 := by decide
    exact_mod_cast hnames n hn h

/-- A body of checked values is no combination that the detector does not take. -/
theorem mpx3Body_not_conflicting {triggerModeIdx pixelDepth : ℤ} {bothCounters : Bool}
    (htrigger : triggerModeIdx = 5 → bothCounters = false) (hdepth : bothCounters = true → pixelDepth ≠ 24) :
    (mpx3Body triggerModeIdx bothCounters pixelDepth).Conflicting = false := by
  cases bothCounters with
  | false => rfl
  | true =>
    have hname : triggerModeServalName triggerModeIdx ≠ "CONTINUOUS" := fun h =>
      absurd (htrigger (triggerModeServalName_continuous h)) (by decide)
    simp [ConfigBody.Conflicting, ConfigBody.bothOn, ConfigBody.depth24, mpx3Body, hname, hdepth rfl]

/-! ## Program points that rely on nothing -/

theorem configWrites_relies (rb : ReadBack) (p : GuardParams) : rb.configWrites.relies p := by
  unfold ReadBack.configWrites
  cases rb.triggerMode <;> cases rb.bothCounters <;> cases rb.pixelDepth <;> trivial

theorem familyDefaults_relies (changed applied : Bool) (rb : ReadBack) (p : GuardParams) :
    (familyDefaults changed applied rb).relies p := by
  unfold familyDefaults
  by_cases happly : (changed || !applied) = true
  · rw [if_pos happly]
    by_cases hfamily : rb.family = .MPX3
    · rw [if_pos hfamily]
      exact configWrites_relies rb _
    · rw [if_neg hfamily]
      exact configWrites_relies rb _
  · rw [if_neg happly]
    exact configWrites_relies rb p

theorem writeInt32_relies (function : ConfigFunction) (value : ℤ) (r : ConfigReplies) (p : GuardParams) :
    (writeInt32 function value r).pc.relies p := by
  cases function with
  | bothCounters =>
    by_cases hvalue : value ≠ 0
    · simp only [writeInt32, if_pos hvalue]
      trivial
    · simp only [writeInt32, if_neg hvalue]
      trivial
  | triggerMode =>
    by_cases hrange : triggerModeOutOfRange value = true
    · simp only [writeInt32, if_pos hrange]
      trivial
    · simp only [writeInt32, if_neg hrange]
      trivial
  | pixelDepth =>
    by_cases hvalid : pixelDepthIsValid value = true
    · simp only [writeInt32, if_pos hvalid]
      trivial
    · simp only [writeInt32, if_neg hvalid]
      trivial
  | configuration => trivial
  | health rb => trivial

theorem startCall_relies (p : GuardParams) (call : GuardCall) (calls : List GuardCall) :
    (startCall p call calls).pc.relies p := by
  cases call with
  | initAcquisition r =>
    simp only [startCall]
    split_ifs <;> trivial
  | configure r =>
    simp only [startCall]
    split_ifs <;> trivial
  | getDetector rb =>
    cases rb with
    | none => trivial
    | some rb => trivial

/-! ## The steps of a thread -/

/-- The points after the reads of a check. -/
theorem checkFamily_relies {p : GuardParams} {c : ConflictCheck} (h : (GuardPc.checkFamily c).relies p) :
    (pcStep p (.checkFamily c)).2.relies p := by
  by_cases hfamily : p.detectorFamily_ ≠ .MPX3
  · simp only [pcStep, if_pos hfamily]
    cases c with
    | initTrigger triggerModeIdx r => exact fun _ hboth => hfamily hboth.1
    | initDepth triggerModeIdx bothCounters pixelDepth r =>
      have hclear := mpx3Body_not_conflicting h.1 fun hon hdepth => hfamily (h.2 hon hdepth).1
      exact fun hconflict => absurd (hclear ▸ hconflict) (by decide)
    | writePixelDepth value => trivial
    | writeBothCountersTrigger triggerMode => trivial
    | writeBothCountersDepth pixelDepth => trivial
    | writeTriggerMode value => trivial
  · simp only [pcStep, if_neg hfamily]
    cases c with
    | initDepth triggerModeIdx bothCounters pixelDepth r =>
      exact ⟨h.1, fun hon hdepth => (h.2 hon hdepth).2⟩
    | initTrigger triggerModeIdx r => trivial
    | writePixelDepth value => trivial
    | writeBothCountersTrigger triggerMode => trivial
    | writeBothCountersDepth pixelDepth => trivial
    | writeTriggerMode value => trivial

theorem checkCounters_relies {p : GuardParams} {c : ConflictCheck} (h : (GuardPc.checkCounters c).relies p) :
    (pcStep p (.checkCounters c)).2.relies p := by
  by_cases hconflict : (p.bothCounters ≠ 0 && c.suspect) = true
  · simp only [pcStep, if_pos hconflict]
    cases c with
    | initDepth triggerModeIdx bothCounters pixelDepth r =>
      have hclear : (mpx3Body triggerModeIdx bothCounters 12).Conflicting = false :=
        mpx3Body_not_conflicting h.1 fun _ => by decide
      exact fun hbody => absurd (hclear ▸ hbody) (by decide)
    | initTrigger triggerModeIdx r => trivial
    | writePixelDepth value => trivial
    | writeBothCountersTrigger triggerMode => trivial
    | writeBothCountersDepth pixelDepth => trivial
    | writeTriggerMode value => trivial
  · simp only [pcStep, if_neg hconflict]
    simp only [Bool.and_eq_true, decide_eq_true_eq, not_and] at hconflict
    cases c with
    | initTrigger triggerModeIdx r =>
      exact fun hcontinuous hboth => hconflict hboth.2 (decide_eq_true hcontinuous)
    | initDepth triggerModeIdx bothCounters pixelDepth r =>
      have hclear := mpx3Body_not_conflicting h.1 fun hon hdepth =>
        hconflict (h.2 hon hdepth) (decide_eq_true hdepth)
      exact fun hbody => absurd (hclear ▸ hbody) (by decide)
    | writePixelDepth value => trivial
    | writeBothCountersTrigger triggerMode => trivial
    | writeBothCountersDepth pixelDepth => trivial
    | writeTriggerMode value => trivial

theorem pcStep_relies {p : GuardParams} {pc : GuardPc} (h : pc.relies p) :
    (pcStep p pc).2.relies (pcStep p pc).1 := by
  cases pc with
  | next => trivial
  | leave => trivial
  | set w pc => exact h
  | checkFamily c => exact checkFamily_relies h
  | checkCounters c => exact checkCounters_relies h
  | readTriggerMode => trivial
  | readPixelDepth => trivial
  | bodyFamily triggerModeIdx r =>
    by_cases hfamily : p.detectorFamily_ ≠ .MPX3
    · simp only [pcStep, if_pos hfamily]
      exact fun _ => hfamily
    · simp only [pcStep, if_neg hfamily]
      refine ⟨fun hcontinuous => ?_, fun _ _ => not_not.mp hfamily⟩
      exact not_not.mp fun hcounters => h hcontinuous ⟨not_not.mp hfamily, hcounters⟩
  | bodyCounters triggerModeIdx r =>
    refine ⟨fun hcontinuous => decide_eq_false (not_not.mpr (h.1 hcontinuous)), fun hon hdepth => ?_⟩
    exact ⟨h.2 (of_decide_eq_true hon) hdepth, of_decide_eq_true hon⟩
  | bodyDepth triggerModeIdx bothCounters r =>
    -- the write of the depth touches nothing that the check reads
    exact ⟨h.1, h.2⟩
  | put body r =>
    simp only [pcStep]
    split_ifs <;> trivial
  | resync r =>
    simp only [pcStep]
    split_ifs
    · cases r.resync.json.bind fun cfg => cfg.member "PixelDepth" with
      | none => trivial
      | some j => trivial
    · trivial
  | readApplied changed rb => exact familyDefaults_relies changed _ rb p

theorem threadStep_relies {s s' : GuardShared} {t t' : GuardThread} (hkept : GuardKept s.puts)
    (h : t.pc.relies s.params) (hstep : threadStep s t = some (s', t')) :
    GuardKept s'.puts ∧ t'.pc.relies s'.params := by
  unfold threadStep at hstep
  split at hstep
  · cases hstep
  · obtain ⟨rfl, rfl⟩ := Prod.mk.inj (Option.some.inj hstep)
    exact ⟨hkept, startCall_relies ..⟩
  · obtain ⟨rfl, rfl⟩ := Prod.mk.inj (Option.some.inj hstep)
    exact ⟨hkept, trivial⟩
  · obtain ⟨rfl, rfl⟩ := Prod.mk.inj (Option.some.inj hstep)
    rename_i body r _ hpc
    rw [hpc] at h
    refine ⟨?_, pcStep_relies h⟩
    rintro put (_ | ⟨_, hput⟩) hfamily
    · exact Bool.eq_false_of_not_eq_true fun hconflict => h hconflict hfamily
    · exact hkept put hput hfamily
  · obtain ⟨rfl, rfl⟩ := Prod.mk.inj (Option.some.inj hstep)
    exact ⟨hkept, pcStep_relies h⟩

theorem guardStep_relies {i : GuardThreadId} {e : GuardEvent} {s : GuardShared} {t : GuardThread}
    {r : GuardShared × GuardThread} (hkept : GuardKept s.puts) (h : t.pc.relies s.params)
    (hstep : guardStep i e s t = some r) : GuardKept r.1.puts ∧ r.2.pc.relies r.1.params := by
  unfold guardStep at hstep
  split at hstep
  · exact threadStep_relies hkept h hstep
  · obtain rfl := Option.some.inj hstep
    exact ⟨hkept, writeInt32_relies ..⟩
  · obtain rfl := Option.some.inj hstep
    exact ⟨hkept, trivial⟩
  · cases hstep

/-! ## Main result -/

/-- In every run in which no step takes away what the other thread has checked, from any values of the parameters,
nothing that is PUT to a Medipix3 is a combination that it does not take. -/
theorem guardKept_of_undisturbed (params : GuardParams) (events : List (GuardThreadId × GuardEvent))
    (s : GuardState)
    (hguard : Runs.Guarded (Interference.step guardStep) GuardUndisturbed (GuardState.start params) events)
    (hrun : Runs.run (Interference.step guardStep) (GuardState.start params) events = some s) :
    GuardKept s.shared.puts := by
  have hown : ∀ (i : GuardThreadId) (e : GuardEvent) (p : GuardShared) (t : GuardThread)
      (r : GuardShared × GuardThread), GuardKept p.puts → t.pc.relies p.params → guardStep i e p t = some r →
      GuardKept r.1.puts ∧ r.2.pc.relies r.1.params := fun i e p t r => guardStep_relies
  have hstart : GuardKept (GuardState.start params).shared.puts := fun put hput => absurd hput (List.not_mem_nil)
  exact (Interference.run_of_undisturbed hown hstart (fun _ => trivial) hguard hrun).1

/-- A server without a configuration of its own, which accepts every PUT. -/
def emptyConfig : ConfigReplies :=
  { config := ⟨200, "", some (.object [])⟩
    detector := none
    put := ⟨200, "", none⟩
    resync := ⟨200, "", some (.object [])⟩ }

def switchEvents : List (GuardThreadId × GuardEvent) :=
  [(.poll, .refreshOnReconnect emptyConfig none), (.poll, .step),
    (.client, .writeInt32 .bothCounters 1 emptyConfig)] ++
    List.replicate 20 (.client, .step) ++ List.replicate 10 (.poll, .step)

theorem switchEvents_puts :
    (Runs.run (Interference.step guardStep) (GuardState.start ⟨5, 0, 24, .MPX3, true⟩) switchEvents).map
      (fun s => s.shared.puts) = some [⟨.MPX3, mpx3Body 4 true 12⟩, ⟨.MPX3, mpx3Body 4 true 12⟩] := by rfl

/-- The counters are switched on in CONTINUOUS mode and at a depth of 24, while the poll thread is about to
configure the detector. -/
theorem guardKept_of_undisturbed_switch :
    GuardKept [⟨.MPX3, mpx3Body 4 true 12⟩, ⟨.MPX3, mpx3Body 4 true 12⟩] := by
  obtain ⟨s, hrun, hs⟩ := Option.map_eq_some_iff.mp switchEvents_puts
  have hkept := guardKept_of_undisturbed ⟨5, 0, 24, .MPX3, true⟩ switchEvents s (by decide +kernel) hrun
  rwa [hs] at hkept

/-- A detector that is a Medipix3 in CONTINUOUS mode. -/
def continuousDetector : ReadBack := ⟨5, "", "", some (.string "CONTINUOUS"), none, none⟩

def lateSwitchEvents : List (GuardThreadId × GuardEvent) :=
  [(.client, .writeInt32 (.health (some continuousDetector)) 1 emptyConfig)] ++ List.replicate 6 (.client, .step) ++
    [(.poll, .refreshOnReconnect emptyConfig none)] ++ List.replicate 4 (.poll, .step) ++
    [(.client, .writeInt32 .bothCounters 1 emptyConfig), (.client, .step)] ++ List.replicate 7 (.poll, .step)

theorem lateSwitchEvents_puts :
    (Runs.run (Interference.step guardStep) (GuardState.start ⟨0, 0, 12, .Unknown, false⟩) lateSwitchEvents).map
      (fun s => s.shared.puts) = some [⟨.MPX3, mpx3Body 5 true 12⟩] := by rfl

/-- A client switches the counters on after the poll thread has checked the trigger mode, which the detector
reported as CONTINUOUS. -/
theorem not_guardKept_lateSwitch :
    ¬ ∀ (params : GuardParams) (events : List (GuardThreadId × GuardEvent)) (s : GuardState),
      Runs.run (Interference.step guardStep) (GuardState.start params) events = some s →
      GuardKept s.shared.puts := by
  intro h
  obtain ⟨s, hrun, hs⟩ := Option.map_eq_some_iff.mp lateSwitchEvents_puts
  have hkept := h ⟨0, 0, 12, .Unknown, false⟩ lateSwitchEvents s hrun
  rw [hs] at hkept
  exact absurd (hkept ⟨.MPX3, mpx3Body 5 true 12⟩ (List.mem_cons_self ..) rfl) (by decide)

end ADTimePix3.Serval.Guard
