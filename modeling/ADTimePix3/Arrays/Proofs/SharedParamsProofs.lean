import ADTimePix3.Arrays.SharedParams

/-!
# Proofs: the shared size and counter parameters

Only the Img worker changes the sizes, and the part of the counter that is for images, as long as no other thread
writes a copy that is behind.
-/

namespace ADTimePix3.Arrays

variable {adds : Bool} {s s' : SharedParams} {pc pc' frame : ParamPc}

/-! ## What the steps leave alone -/

theorem setSize_eq_self {p : SizeParam} {value : ℤ} (h : s.sizes p = value) : s.setSize p value = s := by
  subst h
  simp only [SharedParams.setSize, Function.update_eq_self]

section

variable (locked : Bool) (m : ChannelMutex)

@[simp] theorem setLocked_sizes : (s.setLocked locked m).sizes = s.sizes := by
  cases m <;> rfl

@[simp] theorem setLocked_lastFrame : (s.setLocked locked m).lastFrame = s.lastFrame := by
  cases m <;> rfl

@[simp] theorem setLocked_counter : (s.setLocked locked m).NDArrayCounter = s.NDArrayCounter := by
  cases m <;> rfl

@[simp] theorem setLocked_increments : (s.setLocked locked m).increments = s.increments := by
  cases m <;> rfl

end

/-! ## The invariant -/

/-- Where the Img worker can be. -/
def ParamPc.ofImage : ParamPc → Bool
  | .imgIdle | .setSizes _ _ | .readCounter _ | .writeCounter _ _ | .imgCallbacks _ | .imgCallbackWrite _ _ => true
  | _ => false

/-- The sizes are those of the last image frame, or of the one under way as far as it has come. -/
def ParamPc.Settled : ParamPc → SharedParams → Prop
  | .setSizes todo f, s => ∀ p, p ∉ todo → s.sizes p = f.sizes p
  | _, s => LastFrame s

/-- No increment for an image frame is lost. -/
def CountsImages (s : SharedParams) : Prop := HasAll s s.NDArrayCounter

structure ParamInv (s : ParamState) : Prop where
  placed : ∀ t, (s.thread t).ofImage = decide (t = .imgWorker)
  settled : (s.thread .imgWorker).Settled s.shared
  counts : CountsImages s.shared

theorem settled_congr (hsizes : s'.sizes = s.sizes) (hlast : s'.lastFrame = s.lastFrame) (h : pc.Settled s) :
    pc.Settled s' := by
  cases pc with
  | setSizes todo f => exact fun p hp => (congrFun hsizes p).trans (h p hp)
  | _ => exact fun sizes hsizes' => hsizes.trans (h sizes (hlast ▸ hsizes'))

theorem settled_setLocked (locked : Bool) (m : ChannelMutex) (h : pc.Settled s) :
    pc.Settled (s.setLocked locked m) :=
  settled_congr (setLocked_sizes locked m) (setLocked_lastFrame locked m) h

theorem settled_setCounter (c : Counter) (h : pc.Settled s) : pc.Settled { s with NDArrayCounter := c } :=
  settled_congr (s := s) rfl rfl h

theorem countsImages_setLocked (locked : Bool) (m : ChannelMutex) (h : CountsImages s) :
    CountsImages (s.setLocked locked m) := by
  rw [CountsImages, HasAll, setLocked_counter, setLocked_increments]
  exact h

/-- An increment for an image frame, from a copy that is not behind. -/
theorem countsImages_increment {read : Counter} (hread : read.images = s.NDArrayCounter.images)
    (h : CountsImages s) :
    CountsImages { s with NDArrayCounter := ⟨read.images + 1, read.others⟩, increments := s.increments + 1 } :=
  congrArg Nat.succ (hread.trans h)

/-- A write of another thread, from a copy that is not behind. -/
theorem countsImages_write {c : Counter} (hc : c.images = s.NDArrayCounter.images) (h : CountsImages s) :
    CountsImages { s with NDArrayCounter := c } :=
  hc.trans h

/-- A saved value that is written back is there already, or the frame under way is going to set the parameter. -/
theorem settled_restore {p : SizeParam} {value : ℤ} (hcurrent : s.sizes p = value ∨ frame.isToSet p)
    (h : frame.Settled s) : frame.Settled (s.setSize p value) := by
  rcases hcurrent with hvalue | hset
  · rwa [setSize_eq_self hvalue]
  · cases frame with
    | setSizes todo f =>
      intro q hq
      have hqp : q ≠ p := fun hqp => hq (hqp ▸ hset)
      exact (Function.update_of_ne hqp ..).trans (h q hq)
    | _ => exact hset.elim

/-! ## The steps of the Img worker -/

/-- What a step of the Img worker keeps. -/
def ImageKept (s : SharedParams) (pc : ParamPc) : Prop := pc.ofImage = true ∧ pc.Settled s ∧ CountsImages s

theorem setSizes_kept {todo : List SizeParam} {f : ImageFrame} (h : ImageKept s (.setSizes todo f))
    (hstep : paramStep adds s (.setSizes todo f) = some (s', pc')) : ImageKept s' pc' := by
  obtain ⟨-, hset, hcounts⟩ := h
  cases todo with
  | nil =>
    obtain ⟨rfl, rfl⟩ := Prod.mk.inj (Option.some.inj hstep)
    refine ⟨rfl, fun sizes hsizes => ?_, hcounts⟩
    obtain rfl := Option.some.inj hsizes
    exact funext fun p => hset p List.not_mem_nil
  | cons p todo =>
    obtain ⟨rfl, rfl⟩ := Prod.mk.inj (Option.some.inj hstep)
    refine ⟨rfl, fun q hq => ?_, hcounts⟩
    by_cases hpq : q = p
    · subst hpq
      exact Function.update_self ..
    · have hother := hset q (List.not_mem_cons_of_ne_of_not_mem hpq hq)
      exact (Function.update_of_ne hpq ..).trans hother

theorem imgCallbacks_kept {n : ℕ} (h : ImageKept s (.imgCallbacks n))
    (hstep : paramStep adds s (.imgCallbacks n) = some (s', pc')) : ImageKept s' pc' := by
  obtain ⟨-, hlast, hcounts⟩ := h
  cases n with
  | zero =>
    obtain ⟨rfl, rfl⟩ := Prod.mk.inj (Option.some.inj hstep)
    exact ⟨rfl, hlast, hcounts⟩
  | succ n =>
    cases adds with
    | true =>
      obtain ⟨rfl, rfl⟩ := Prod.mk.inj (Option.some.inj hstep)
      exact ⟨rfl, hlast, hcounts⟩
    | false =>
      obtain ⟨rfl, rfl⟩ := Prod.mk.inj (Option.some.inj hstep)
      exact ⟨rfl, hlast, hcounts⟩

theorem imageStep_kept (h : ImageKept s pc) (hcurrent : pc.writesCurrent frame s)
    (hstep : paramStep adds s pc = some (s', pc')) : ImageKept s' pc' := by
  cases pc with
  | imgIdle => cases hstep
  | setSizes todo f => exact setSizes_kept h hstep
  | readCounter f =>
    obtain ⟨rfl, rfl⟩ := Prod.mk.inj (Option.some.inj hstep)
    exact ⟨rfl, h.2⟩
  | writeCounter read f =>
    obtain ⟨rfl, rfl⟩ := Prod.mk.inj (Option.some.inj hstep)
    exact ⟨rfl, h.2.1, countsImages_increment hcurrent h.2.2⟩
  | imgCallbacks n => exact imgCallbacks_kept h hstep
  | imgCallbackWrite read n =>
    obtain ⟨rfl, rfl⟩ := Prod.mk.inj (Option.some.inj hstep)
    exact ⟨rfl, h.2.1, countsImages_increment hcurrent h.2.2⟩
  | _ => exact absurd h.1 Bool.false_ne_true

/-! ## The steps of a call that saves and restores -/

/-- What a step of the other threads keeps. -/
def SavingKept (frame : ParamPc) (s : SharedParams) (pc : ParamPc) : Prop :=
  pc.ofImage = false ∧ frame.Settled s ∧ CountsImages s

theorem callbacks_kept {n : ℕ} {saved : List (SizeParam × ℤ)} {c : Counter} {call : SavingCall}
    (h : SavingKept frame s (.callbacks n saved c call))
    (hstep : paramStep adds s (.callbacks n saved c call) = some (s', pc')) : SavingKept frame s' pc' := by
  cases n with
  | zero =>
    obtain ⟨rfl, rfl⟩ := Prod.mk.inj (Option.some.inj hstep)
    exact ⟨rfl, h.2⟩
  | succ n =>
    cases adds with
    | true =>
      obtain ⟨rfl, rfl⟩ := Prod.mk.inj (Option.some.inj hstep)
      exact ⟨rfl, h.2⟩
    | false =>
      obtain ⟨rfl, rfl⟩ := Prod.mk.inj (Option.some.inj hstep)
      exact ⟨rfl, h.2⟩

theorem restore_kept {saved : List (SizeParam × ℤ)} {call : SavingCall}
    (h : SavingKept frame s (.restore saved call))
    (hcurrent : (ParamPc.restore saved call).writesCurrent frame s)
    (hstep : paramStep adds s (.restore saved call) = some (s', pc')) : SavingKept frame s' pc' := by
  obtain ⟨-, hsettled, hcounts⟩ := h
  cases saved with
  | nil =>
    obtain ⟨rfl, rfl⟩ := Prod.mk.inj (Option.some.inj hstep)
    exact ⟨rfl, settled_setLocked false call.mutex hsettled, countsImages_setLocked false call.mutex hcounts⟩
  | cons e saved =>
    obtain ⟨rfl, rfl⟩ := Prod.mk.inj (Option.some.inj hstep)
    exact ⟨rfl, settled_restore hcurrent hsettled, hcounts⟩

theorem savingStep_kept (h : SavingKept frame s pc) (hcurrent : pc.writesCurrent frame s)
    (hstep : paramStep adds s pc = some (s', pc')) : SavingKept frame s' pc' := by
  cases pc with
  | idle => cases hstep
  | save todo saved call =>
    cases todo with
    | nil =>
      obtain ⟨rfl, rfl⟩ := Prod.mk.inj (Option.some.inj hstep)
      exact ⟨rfl, h.2⟩
    | cons p todo =>
      obtain ⟨rfl, rfl⟩ := Prod.mk.inj (Option.some.inj hstep)
      exact ⟨rfl, h.2⟩
  | saveCounter saved call =>
    obtain ⟨rfl, rfl⟩ := Prod.mk.inj (Option.some.inj hstep)
    exact ⟨rfl, h.2⟩
  | callbacks n saved c call => exact callbacks_kept h hstep
  | callbackWrite read n saved c call =>
    obtain ⟨rfl, rfl⟩ := Prod.mk.inj (Option.some.inj hstep)
    exact ⟨rfl, settled_setCounter _ h.2.1, countsImages_write hcurrent h.2.2⟩
  | compare saved c call =>
    by_cases hexpects : call.Expects c.value s.NDArrayCounter.value
    · rw [paramStep, if_pos hexpects] at hstep
      obtain ⟨rfl, rfl⟩ := Prod.mk.inj (Option.some.inj hstep)
      exact ⟨rfl, h.2⟩
    · rw [paramStep, if_neg hexpects] at hstep
      obtain ⟨rfl, rfl⟩ := Prod.mk.inj (Option.some.inj hstep)
      exact ⟨rfl, h.2⟩
  | restoreCounter saved c call =>
    obtain ⟨rfl, rfl⟩ := Prod.mk.inj (Option.some.inj hstep)
    exact ⟨rfl, settled_setCounter _ h.2.1, countsImages_write hcurrent h.2.2⟩
  | restore saved call => exact restore_kept h hcurrent hstep
  | _ => exact absurd h.1.symm Bool.false_ne_true

theorem beginCall_kept {call : SavingCall} (hsettled : frame.Settled s) (hcounts : CountsImages s)
    (hstep : beginCall s call = some (s', pc')) : SavingKept frame s' pc' := by
  unfold beginCall at hstep
  split at hstep
  · cases hstep
  · obtain ⟨rfl, rfl⟩ := Prod.mk.inj (Option.some.inj hstep)
    exact ⟨rfl, settled_setLocked true call.mutex hsettled, countsImages_setLocked true call.mutex hcounts⟩

/-! ## The steps of the threads -/

theorem imgWorker_kept {e : ParamEvent} {r : SharedParams × ParamPc} (h : ImageKept s pc)
    (hcurrent : pc.writesCurrent frame s) (hstep : threadStep adds .imgWorker e s pc = some r) :
    ImageKept r.1 r.2 := by
  obtain ⟨s', pc'⟩ := r
  unfold threadStep at hstep
  split at hstep
  · exact imageStep_kept h hcurrent hstep
  · split at hstep
    · cases hstep
    · obtain ⟨rfl, rfl⟩ := Prod.mk.inj (Option.some.inj hstep)
      refine ⟨rfl, fun p hp => absurd ?_ hp, countsImages_setLocked true .imgMutex_ h.2.2⟩
      cases p <;> decide
  · exact absurd h.1 Bool.false_ne_true
  · exact absurd h.1 Bool.false_ne_true
  · exact absurd h.1 Bool.false_ne_true
  · cases hstep

theorem otherThread_kept {t : ParamThread} (ht : t ≠ .imgWorker) {e : ParamEvent} {r : SharedParams × ParamPc}
    (h : SavingKept frame s pc) (hcurrent : pc.writesCurrent frame s)
    (hstep : threadStep adds t e s pc = some r) : SavingKept frame r.1 r.2 := by
  obtain ⟨s', pc'⟩ := r
  unfold threadStep at hstep
  split at hstep
  · exact savingStep_kept h hcurrent hstep
  · exact absurd rfl ht
  · exact beginCall_kept h.2.1 h.2.2 hstep
  · exact beginCall_kept h.2.1 h.2.2 hstep
  · exact beginCall_kept h.2.1 h.2.2 hstep
  · cases hstep

theorem paramInv_step {s s' : ParamState} {e : ParamThread × ParamEvent} (h : ParamInv s)
    (hcurrent : WritesCurrent s e) (hstep : Interference.step (threadStep adds) s e = some s') : ParamInv s' := by
  obtain ⟨r, hr, hshared, hthread, hother⟩ := Interference.step_eq_some hstep
  obtain ⟨t, e⟩ := e
  by_cases ht : t = .imgWorker
  · subst ht
    obtain ⟨hplaced, hsettled, hcounts⟩ := imgWorker_kept ⟨h.placed .imgWorker, h.settled, h.counts⟩ hcurrent hr
    refine ⟨fun t => ?_, ?_, hshared ▸ hcounts⟩
    · by_cases ht : t = .imgWorker
      · rw [ht, hthread, hplaced]
        rfl
      · rw [hother t ht, h.placed t]
    · rw [hthread, hshared]
      exact hsettled
  · have hplaced : (s.thread t).ofImage = false := (h.placed t).trans (decide_eq_false ht)
    obtain ⟨hplaced', hsettled, hcounts⟩ := otherThread_kept ht ⟨hplaced, h.settled, h.counts⟩ hcurrent hr
    refine ⟨fun u => ?_, ?_, hshared ▸ hcounts⟩
    · by_cases hu : u = t
      · rw [hu, hthread, hplaced', decide_eq_false ht]
      · rw [hother u hu, h.placed u]
    · rw [hother .imgWorker (Ne.symm ht), hshared]
      exact hsettled

theorem paramInv_start (sizes : SizeParam → ℤ) : ParamInv (ParamState.start sizes) where
  placed t := by cases t <;> rfl
  settled := fun _ hsizes => absurd hsizes (Option.not_mem_none _)
  counts := rfl

/-! ## Main result -/

/-- The Img worker at rest has set the sizes of the last image frame. -/
theorem lastFrame_of_rests (hrest : ParamThread.imgWorker.rests pc = true) (h : pc.Settled s) : LastFrame s := by
  cases pc with
  | imgIdle => exact h
  | _ => exact absurd hrest Bool.false_ne_true

/-- In every run in which no thread writes a copy that is behind its parameter, from any sizes, the parameters
survive at every quiescent state. -/
theorem survive_of_writesCurrent (adds : Bool) (sizes : SizeParam → ℤ) (events : List (ParamThread × ParamEvent))
    (s : ParamState)
    (hguard : Runs.Guarded (Interference.step (threadStep adds)) WritesCurrent (ParamState.start sizes) events)
    (hrun : Runs.run (Interference.step (threadStep adds)) (ParamState.start sizes) events = some s)
    (hquiet : Quiescent s) : Survive s.shared := by
  have hinv : ParamInv s :=
    Runs.run_invariant (fun _ _ _ => paramInv_step) (paramInv_start sizes) hguard hrun
  exact ⟨lastFrame_of_rests (hquiet .imgWorker) hinv.settled, hinv.counts⟩

def smallFrame : ImageFrame := ⟨2, 2, 3, 8, 1⟩

/-- A histogram frame with one callback, and an image frame between the save of the counter and the callback. -/
def nestedEvents : List (ParamThread × ParamEvent) :=
  [(.prvHstWorker, .processPrvHstFrame 1)] ++ List.replicate 8 (.prvHstWorker, .step) ++
    [(.imgWorker, .processImgDataLine smallFrame)] ++ List.replicate 9 (.imgWorker, .step)

/-- The callbacks count. The image has the size of the one before it. -/
def sameSizeEvents : List (ParamThread × ParamEvent) :=
  nestedEvents ++ List.replicate 3 (.imgWorker, .step) ++ List.replicate 11 (.prvHstWorker, .step)

theorem sameSizeEvents_run :
    (Runs.run (Interference.step (threadStep true)) (ParamState.start smallFrame.sizes) sameSizeEvents).map
      (fun s => (s.shared.increments, decide (Quiescent s))) = some (2, true) := by rfl

/-- The counter goes up by three, so that it is not restored. -/
theorem survive_of_writesCurrent_same_size :
    ∃ s, Runs.run (Interference.step (threadStep true)) (ParamState.start smallFrame.sizes) sameSizeEvents = some s ∧
      s.shared.increments = 2 ∧ Survive s.shared := by
  obtain ⟨s, hrun, hs⟩ := Option.map_eq_some_iff.mp sameSizeEvents_run
  obtain ⟨hincrements, hquiet⟩ := Prod.mk.inj hs
  exact ⟨s, hrun, hincrements, survive_of_writesCurrent true smallFrame.sizes sameSizeEvents s (by decide +kernel)
    hrun (of_decide_eq_true hquiet)⟩

/-- The callbacks do not count. -/
def staleEvents : List (ParamThread × ParamEvent) :=
  nestedEvents ++ List.replicate 2 (.imgWorker, .step) ++ List.replicate 11 (.prvHstWorker, .step)

theorem staleEvents_run :
    (Runs.run (Interference.step (threadStep false)) (ParamState.start fun _ => 0) staleEvents).map
      (fun s => (s.shared.NDArrayCounter, s.shared.increments, decide (Quiescent s))) =
      some (⟨0, 0⟩, 1, true) := by rfl

/-- The increment of the image is taken for that of the one callback, and the counter is restored. -/
theorem not_survive_stale :
    ¬ ∀ (adds : Bool) (sizes : SizeParam → ℤ) (events : List (ParamThread × ParamEvent)) (s : ParamState),
      Runs.run (Interference.step (threadStep adds)) (ParamState.start sizes) events = some s → Quiescent s →
      Survive s.shared := by
  intro h
  obtain ⟨s, hrun, hs⟩ := Option.map_eq_some_iff.mp staleEvents_run
  simp only [Prod.mk.injEq] at hs
  obtain ⟨hcounter, hincrements, hquiet⟩ := hs
  have hall := (h false (fun _ => 0) staleEvents s hrun (of_decide_eq_true hquiet)).2
  rw [HasAll, hcounter, hincrements] at hall
  exact absurd hall (by decide)

end ADTimePix3.Arrays
