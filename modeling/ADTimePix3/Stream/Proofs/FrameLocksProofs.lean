import ADTimePix3.Img.Run
import ADTimePix3.Stream.FrameLocks

/-!
# When the callbacks of a frame are made with the mutex free

The frame functions release the mutex before they make their callbacks, but the workers call them with the mutex
held. So a turn in which a frame is added is never right, and neither is one in which an exception is caught that was
thrown under the mutex. Every other turn is.
-/

namespace ADTimePix3.Stream.FrameLocks

open Logged RecursiveMutex Runs

variable {κ ι : Type} {free : κ → Prop} {n m : ℤ}

/-! ## The parts of a turn -/

theorem sound_makeCallbacks {callbacks : List κ} (hfree : ∀ callback ∈ callbacks, free callback)
    (throwsAt : Option ℕ) :
    Sound free n m (makeCallbacks throwsAt callbacks) ↔ n = m ∧ (callbacks ≠ [] → n = 0) := by
  induction callbacks generalizing throwsAt with
  | nil =>
    rw [makeCallbacks, sound_pure]
    exact ⟨fun h => ⟨h, fun hne => absurd rfl hne⟩, And.left⟩
  | cons callback callbacks ih =>
    have hcallback := hfree callback List.mem_cons_self
    have hrest : ∀ c ∈ callbacks, free c := fun c hc => hfree c (List.mem_cons_of_mem callback hc)
    have hiff : (free callback → n = 0) ∧ n = m ∧ (callbacks ≠ [] → n = 0) ↔
        n = m ∧ (callback :: callbacks ≠ [] → n = 0) := by
      constructor
      · rintro ⟨hzero, hends, -⟩
        exact ⟨hends, fun _ => hzero hcallback⟩
      · rintro ⟨hends, hzero⟩
        have hn := hzero (List.cons_ne_nil _ _)
        exact ⟨fun _ => hn, hends, fun _ => hn⟩
    rcases throwsAt with _ | _ | i
    · rw [makeCallbacks, sound_call_bind, ih hrest, hiff]
      simp
    · rw [makeCallbacks, sound_call_bind, sound_pure]
      constructor
      · rintro ⟨hzero, hends⟩
        exact ⟨hends, fun _ => hzero hcallback⟩
      · rintro ⟨hends, hzero⟩
        exact ⟨fun _ => hzero (List.cons_ne_nil _ _), hends⟩
    · rw [makeCallbacks, sound_call_bind, ih hrest, hiff]
      simp

theorem quiet_connect (result : Connect) : Quiet free 0 (connect result : Logged (Op κ) Unit) := by
  cases result <;> exact ⟨fun _ _ h => absurd h List.not_mem_nil, rfl⟩

theorem sound_connect_bind {β : Type} (result : Connect) {g : Unit → Logged (Op κ) β} :
    Sound free n m (connect result >>= g) ↔ Sound free n m (g ()) := by
  rw [sound_quiet_bind (quiet_connect result), Int.add_zero]

variable {processLine : ι → Logged (Op κ) (Option Bool)}

/-- The scan holds the mutex while it processes a line, and releases it in any case. -/
theorem sound_scan (line : Option ι) :
    Sound free n n (scan processLine line) ↔ ∀ l ∈ line, Sound free (n + 1) (n + 1) (processLine l) := by
  unfold scan
  rw [sound_lock_bind]
  cases line with
  | none =>
    dsimp only
    rw [sound_unlock_bind, sound_pure]
    simp
  | some l =>
    dsimp only
    refine (sound_bind_quiet (k := -1) ?_ (by omega : n + 1 + -1 = n)).trans (by simp)
    cases (processLine l).val with
    | none => exact quiet_unlock_pure true
    | some ok => exact quiet_unlock_pure ok

theorem sound_receive (t : Turn ι) :
    Sound free n n (receive processLine t) ↔
      (t.received = true → ∀ l ∈ t.line, Sound free (n + 1) (n + 1) (processLine l)) := by
  unfold receive
  rw [sound_underMutex_bind]
  cases t.received with
  | false =>
    rw [if_neg Bool.false_ne_true, sound_underMutex_bind, sound_pure]
    simp
  | true =>
    rw [if_pos rfl, sound_scan]
    simp

/-! ## The Img worker -/

/-- The callbacks are made at the hold count of the caller. -/
theorem sound_processImgFrame (imgSection : ImgSection) (throwsAt : Option ℕ) :
    Sound imgAfterUnlock n n (processImgFrame imgSection throwsAt) ↔
      imgSection ≠ .throws ∧ (imgSection = .notAdded ∨ n = 0) := by
  unfold processImgFrame
  rw [sound_lock_bind]
  cases imgSection with
  | throws =>
    dsimp only
    rw [sound_pure]
    simp
  | notAdded =>
    dsimp only
    rw [sound_unlock_bind, sound_pure]
    simp
  | added out nonempty =>
    have hfree : ∀ callback ∈ out, imgAfterUnlock callback := fun _ _ => trivial
    dsimp only
    rw [sound_unlock_bind, sound_makeCallbacks hfree]
    simp [nonempty]

theorem sound_accumulateImage (l : ImgLine) :
    Sound imgAfterUnlock n n (accumulateImage l) ↔
      ((l.accumulationEnable && l.threshold_id != 1) = true →
        l.imgSection ≠ .throws ∧ (l.imgSection = .notAdded ∨ n = 0)) := by
  unfold accumulateImage
  by_cases haccumulate : (l.accumulationEnable && l.threshold_id != 1) = true
  · rw [if_pos haccumulate, ← sound_processImgFrame l.imgSection l.throwsAt, forall_prop_of_true haccumulate]
    refine sound_bind_quiet ?_ (Int.add_zero n)
    cases (processImgFrame l.imgSection l.throwsAt).val with
    | none => exact quiet_pure _
    | some _ => exact quiet_pure _
  · rw [if_neg haccumulate, sound_pure]
    simp [haccumulate]

theorem sound_processImgDataLine (l : ImgLine) :
    Sound imgAfterUnlock n n (processImgDataLine l) ↔
      (l.accumulates = true → l.imgSection ≠ .throws ∧ (l.imgSection = .notAdded ∨ n = 0)) := by
  unfold processImgDataLine ImgLine.accumulates
  cases l.header with
  | throws => simp [sound_pure]
  | returns ok => simp [sound_pure]
  | accepted =>
    cases l.received with
    | false => simp [sound_underMutex_bind, sound_pure]
    | true =>
      cases hstops : l.stopsBefore with
      | true => simp [sound_underMutex_bind, sound_pure]
      | false => simp [sound_underMutex_bind, sound_accumulateImage]

/-- The worker calls the line function with the mutex held once. -/
theorem sound_processImgDataLine_held (l : ImgLine) :
    Sound imgAfterUnlock 1 1 (processImgDataLine l) ↔ (l.accumulates = true → l.imgSection = .notAdded) := by
  rw [sound_processImgDataLine]
  refine imp_congr_right fun _ => ⟨?_, ?_⟩
  · rintro ⟨-, hnot | hzero⟩
    · exact hnot
    · cases hzero
  · intro hnot
    exact ⟨by rw [hnot]; exact ImgSection.noConfusion, Or.inl hnot⟩

theorem sound_imgRead (t : Turn ImgLine) :
    Sound imgAfterUnlock 0 0 (imgRead t) ↔
      ((t.stillRunning && t.connected && t.received) = true →
        ∀ l ∈ t.line, l.accumulates = true → l.imgSection = .notAdded) := by
  unfold imgRead
  cases t.stillRunning with
  | false => simp [sound_pure]
  | true =>
    cases t.connected with
    | false => simp [sound_underMutex_bind, sound_pure]
    | true => simp [sound_underMutex_bind, sound_receive, sound_processImgDataLine_held]

/-- Step lemma: a turn that begins with the mutex free. -/
theorem sound_imgWorkerThread (t : Turn ImgLine) :
    Sound imgAfterUnlock 0 0 (imgWorkerThread t) ↔ ImgClear t := by
  unfold imgWorkerThread ImgClear Turn.reads
  cases t.running with
  | false => simp [sound_pure]
  | true =>
    cases t.shouldConnect with
    | false => simp [sound_underMutex_bind, sound_imgRead]
    | true => simp [sound_underMutex_bind, sound_connect_bind, sound_imgRead]

/-! ## The histogram worker -/

/-- A callback of a waveform, which may be left out. -/
theorem sound_waveform_bind {mk : List ℤ → Hst.Output} {value : Option (List ℤ)} {β : Type}
    {g : Unit → Logged (Op Hst.Output) β} :
    Sound prvHstAfterUnlock n m (HstFrame.waveform mk value >>= g) ↔
      (∀ v ∈ value, prvHstAfterUnlock (mk v) → n = 0) ∧ Sound prvHstAfterUnlock n m (g ()) := by
  cases value with
  | none =>
    unfold HstFrame.waveform
    simp [sound_bind, sound_pure]
  | some v =>
    unfold HstFrame.waveform
    dsimp only
    rw [sound_call_bind]
    simp

/-- Called with the mutex held, the function is right only if it returns without having added the frame: the
waveform of the running sum is published for every frame that is added. -/
theorem sound_processPrvHstFrame (hn : n ≠ 0) (f : HstFrame) :
    Sound prvHstAfterUnlock n n (processPrvHstFrame f) ↔ f.dropped = true := by
  unfold processPrvHstFrame HstFrame.dropped
  cases f.accumulationEnable with
  | false => simp [sound_pure]
  | true =>
    rw [Bool.not_true, if_neg Bool.false_ne_true, sound_lock_bind]
    by_cases hthrows : f.throwsAt = some .runningSum
    · rw [if_pos hthrows, sound_pure]
      simp [hthrows]
    rw [if_neg hthrows]
    cases f.added with
    | false =>
      rw [Bool.not_false, if_pos rfl, sound_unlock_bind, sound_pure]
      simp [hthrows]
    | true =>
      have hheld : n + 1 ≠ n := by omega
      have hpublish : ¬Sound prvHstAfterUnlock (n + 1) n f.publish := by
        unfold HstFrame.publish
        rw [sound_unlock_bind, sound_waveform_bind, sound_call_bind]
        rintro ⟨-, hdata, -⟩
        have hzero := hdata trivial
        omega
      refine iff_of_false ?_ (by simp)
      rw [Bool.not_true, if_neg Bool.false_ne_true]
      by_cases hbuffer : f.throwsAt = some .frameBuffer
      · rw [if_pos hbuffer, sound_pure]
        exact hheld
      · rw [if_neg hbuffer, sound_waveform_bind]
        rintro ⟨-, hrest⟩
        by_cases haxis : f.throwsAt = some .timeAxis
        · rw [if_pos haxis, sound_pure] at hrest
          exact hheld hrest
        · rw [if_neg haxis] at hrest
          exact hpublish hrest

theorem sound_accumulateHistogram (hn : n ≠ 0) (l : HstLine) :
    Sound prvHstAfterUnlock n n (accumulateHistogram l) ↔ l.frame.dropped = true := by
  unfold accumulateHistogram
  rw [← sound_processPrvHstFrame hn]
  refine sound_bind_quiet ?_ (Int.add_zero n)
  cases (processPrvHstFrame l.frame).val with
  | none => exact quiet_pure _
  | some _ => exact quiet_pure _

theorem sound_readBins (hn : n ≠ 0) (l : HstLine) :
    Sound prvHstAfterUnlock n n (readBins l) ↔ (l.accumulates = true → l.frame.dropped = true) := by
  unfold readBins HstLine.accumulates
  cases l.throwsBefore with
  | true => simp [sound_pure]
  | false =>
    cases l.needsMore with
    | false => simp [sound_accumulateHistogram hn]
    | true =>
      cases l.received with
      | false => simp [sound_underMutex_bind, sound_pure]
      | true => simp [sound_underMutex_bind, sound_accumulateHistogram hn]

theorem sound_processPrvHstDataLine (hn : n ≠ 0) (l : HstLine) :
    Sound prvHstAfterUnlock n n (processPrvHstDataLine l) ↔
      (l.header = .accepted → l.validBinSize = true →
        l.rateThrows = false ∧ (l.accumulates = true → l.frame.dropped = true)) := by
  unfold processPrvHstDataLine
  cases l.header with
  | throws => simp [sound_pure]
  | returns ok => simp [sound_pure]
  | accepted =>
    dsimp only
    rw [sound_underMutex_bind]
    cases l.validBinSize with
    | false => simp [sound_pure]
    | true =>
      rw [if_pos rfl, sound_lock_bind]
      cases l.rateThrows with
      | true => simp [sound_pure]
      | false => simp [sound_unlock_bind, sound_readBins hn]

theorem sound_prvHstRead (t : HstTurn) :
    Sound prvHstAfterUnlock 0 0 (prvHstRead t) ↔
      ((t.stillRunning && t.connected && t.accumulationEnable && t.canReceive && t.received) = true →
        ∀ l ∈ t.line, l.header = .accepted → l.validBinSize = true →
          l.rateThrows = false ∧ (l.accumulates = true → l.frame.dropped = true)) := by
  unfold prvHstRead
  cases t.stillRunning with
  | false => simp [sound_pure]
  | true =>
    rw [Bool.not_true, if_neg Bool.false_ne_true, sound_underMutex_bind]
    by_cases hreads : (t.connected && t.accumulationEnable) = true
    · rw [if_pos hreads]
      cases t.canReceive with
      | false => simp [sound_underMutex_bind, sound_pure]
      | true => simp_all [sound_receive, sound_processPrvHstDataLine Int.one_ne_zero]
    · rw [if_neg hreads, sound_pure]
      simp_all

/-- Step lemma: a turn that begins with the mutex free. -/
theorem sound_prvHstWorkerThread (t : HstTurn) :
    Sound prvHstAfterUnlock 0 0 (prvHstWorkerThread t) ↔ HstClear t := by
  unfold prvHstWorkerThread HstClear HstTurn.reads
  cases t.running with
  | false => simp [sound_pure]
  | true =>
    rw [Bool.not_true, if_neg Bool.false_ne_true, sound_underMutex_bind]
    cases t.shouldConnect with
    | false =>
      rw [if_neg Bool.false_ne_true, sound_prvHstRead]
      rfl
    | true =>
      rw [if_pos rfl]
      cases t.validAddress with
      | false => simp [sound_pure]
      | true =>
        rw [if_pos rfl, sound_connect_bind, sound_underMutex_bind]
        cases t.connectedAfter with
        | false => simp [sound_pure]
        | true =>
          rw [if_pos rfl, sound_prvHstRead]
          rfl

/-! ## Runs -/

/-- A thread that is in its loop does not hold the mutex between two turns. -/
def Thread.Free (s : Thread) : Prop := s.running = true → s.held = 0

/-- A turn that is right leaves the mutex free. -/
theorem free_of_turnRight {τ : Type} {worker : τ → Logged (Op κ) Bool} {s s' : Thread} {t : τ} (hs : s.Free)
    (hright : TurnRight free worker s t) (hstep : threadStep worker s t = some s') : s'.Free := by
  have hs' := Option.some.inj hstep
  by_cases hrun : s.running = true
  · rw [if_pos hrun] at hs'
    rw [← hs']
    exact fun _ => (hright hrun).ends
  · rw [if_neg hrun] at hs'
    rwa [← hs']

/-- When the turns that are right at hold count zero are those that are clear, a run is right exactly when all its
turns are clear. -/
theorem guarded_turnRight_iff {τ : Type} {worker : τ → Logged (Op κ) Bool} {clear : τ → Prop}
    (hclear : ∀ t, Sound free 0 0 (worker t) ↔ clear t) (turns : List τ) :
    Guarded (threadStep worker) (TurnRight free worker) .start turns ↔
      Guarded (threadStep worker) (fun s t => s.running = true → clear t) .start turns := by
  have hiff : ∀ s t, Thread.Free s → (TurnRight free worker s t ↔ (s.running = true → clear t)) := by
    intro s t hs
    refine forall_congr' fun hrun => ?_
    rw [hs hrun]
    exact hclear t
  exact guarded_congr hiff (fun _ _ _ => free_of_turnRight) (fun _ => rfl) turns

/-- In a run of the Img worker every callback of a frame is made with the mutex free, and every turn leaves the mutex
free, exactly when no image is added to the running sum; in a run of the histogram worker, exactly when no histogram
is, and no rate is lost to an exception. -/
theorem turns_right_iff (imgTurns : List (Turn ImgLine)) (prvHstTurns : List HstTurn) :
    (Guarded (threadStep imgWorkerThread) (TurnRight imgAfterUnlock imgWorkerThread) .start imgTurns ↔
        Guarded (threadStep imgWorkerThread) (fun s t => s.running = true → ImgClear t) .start imgTurns) ∧
      (Guarded (threadStep prvHstWorkerThread) (TurnRight prvHstAfterUnlock prvHstWorkerThread) .start prvHstTurns ↔
        Guarded (threadStep prvHstWorkerThread) (fun s t => s.running = true → HstClear t) .start prvHstTurns) :=
  ⟨guarded_turnRight_iff sound_imgWorkerThread imgTurns, guarded_turnRight_iff sound_prvHstWorkerThread prvHstTurns⟩

/-! ### One image of one pixel -/

def pixelOutputs : List Img.Output :=
  [.imgImageData [5], .imgImageFrame [5], .imgImageSumNFrames [5], .ndArray ⟨2, 1, 1, [5]⟩, .ndArray ⟨3, 1, 1, [5]⟩]

/-- A turn in which an image is complete, and accumulation is enabled. -/
def imageTurn (imgSection : ImgSection) : Turn ImgLine where
  running := true
  shouldConnect := false
  connect := .noAddress
  stillRunning := true
  connected := true
  received := true
  line := some
    { header := .accepted
      received := true
      stopsBefore := false
      accumulationEnable := true
      threshold_id := 0
      imgSection := imgSection
      throwsAt := none
      throwsAfter := false }

/-- The first image of one pixel is published with the mutex held once; and an exception in the locked section leaves
it held when the worker leaves its loop. -/
theorem turns_not_right :
    (Img.processImgFrame .init Img.onePixel ⟨true, true⟩).map Prod.snd = some pixelOutputs ∧
    callsAt 0 (imgWorkerThread (imageTurn (.added pixelOutputs (List.cons_ne_nil _ _)))).log =
      pixelOutputs.map (fun o => (o, 1)) ∧
    (imgWorkerThread (imageTurn .throws)).val = false ∧ net (imgWorkerThread (imageTurn .throws)).log = 1 ∧
    ¬Guarded (threadStep imgWorkerThread) (TurnRight imgAfterUnlock imgWorkerThread) .start
      [imageTurn (.added pixelOutputs (List.cons_ne_nil _ _))] := by
  refine ⟨by decide +kernel, rfl, rfl, rfl, ?_⟩
  rintro ⟨hright, -⟩
  have hzero : (1 : ℤ) = 0 := (hright rfl).calls (.imgImageData [5], 1) List.mem_cons_self trivial
  cases hzero

end ADTimePix3.Stream.FrameLocks
