import ADTimePix3.Hst.Proofs.AccumulationProofs
import ADTimePix3.Img.Proofs.AccumulationProofs
import ADTimePix3.Stream.Proofs.FrameLocksProofs
import Mathlib.Data.Set.List

/-!
# The callbacks of a frame, and what the accumulation publishes

The frame functions of `Stream/FrameLocks.lean` make the callbacks that `Img/Accumulation.lean` and
`Hst/Accumulation.lean` compute. Every image that has pixels gives some, as does every histogram, because a frame can
always be added once the running sum has been set up for it. The arrays of a histogram are made with the mutex held
once more than by the caller.
-/

namespace ADTimePix3.Stream.FrameLocks

open Logged RecursiveMutex

theorem callsAt_makeCallbacks {κ : Type} (n : ℤ) (callbacks : List κ) :
    callsAt n (makeCallbacks none callbacks).log = callbacks.map fun callback => (callback, n) := by
  induction callbacks with
  | nil => rfl
  | cons callback callbacks ih =>
    show (callback, n) :: callsAt n (makeCallbacks none callbacks).log = _
    rw [ih, List.map_cons]

/-! ## Images -/

section Img

open ADTimePix3.Img (Frame ImgState Output Pool addFrame_spec copyRunningSum_spec)

variable {s s' : ImgState} {frame : Frame} {pool : Pool} {out : List Output}

/-- The running sum that is published has the size of the image. -/
theorem imageDataSize_eq {p : Img.Published} (h : Img.processImgFrameLocked s frame pool = some (s', p)) :
    p.imageDataSize = frame.pixelCount := by
  obtain ⟨sum, hadd, hwidth, hheight, -⟩ := addFrame_spec s frame
  unfold Img.processImgFrameLocked at h
  rw [hadd] at h
  dsimp only at h
  set added : ImgState := Img.pushFrame _ frame with hadded
  have hsum : added.imgRunningSum = some sum := rfl
  obtain ⟨buf, hcopy, -, -⟩ := copyRunningSum_spec hsum
  rw [hcopy, Option.bind_eq_bind, Option.bind_some] at h
  obtain ⟨⟨copied, frameSize⟩, -, h⟩ := Option.bind_eq_some_iff.mp h
  obtain ⟨⟨updated, sumSize⟩, -, h⟩ := Option.bind_eq_some_iff.mp h
  have hp : sum.pixelCount = p.imageDataSize := congrArg (fun r => r.2.imageDataSize) (Option.some.inj h)
  rw [← hp, Img.RunningSum.pixelCount, hwidth, hheight, Frame.pixelCount]

/-- An image that has pixels is published. -/
theorem publishes_of_pixels (hpixels : 0 < frame.pixelCount)
    (h : Img.processImgFrame s frame pool = some (s', out)) : out ≠ [] := by
  obtain ⟨⟨locked, p⟩, hlocked, h⟩ := Option.bind_eq_some_iff.mp h
  obtain ⟨published, hpublished, h⟩ := Option.bind_eq_some_iff.mp h
  obtain ⟨data, hdata, h'⟩ := Option.bind_eq_some_iff.mp hpublished
  obtain ⟨image, -, h'⟩ := Option.bind_eq_some_iff.mp h'
  obtain ⟨sumN, -, h'⟩ := Option.bind_eq_some_iff.mp h'
  have hout : published = out := congrArg Prod.snd (Option.some.inj h)
  have hsize : p.imageDataSize > 0 := by
    rw [imageDataSize_eq hlocked]
    exact hpixels
  unfold Img.publishWaveform at hdata
  rw [if_pos hsize] at hdata
  obtain ⟨value, -, hvalue⟩ := Option.map_eq_some_iff.mp hdata
  rw [← hout, ← Option.some.inj h', ← hvalue]
  exact List.cons_ne_nil _ _

/-- What an image gives is published at the hold count of the caller. -/
theorem processImgFrame_calls (hpixels : 0 < frame.pixelCount)
    (h : Img.processImgFrame s frame pool = some (s', out)) :
    ∃ nonempty, ∀ n, callsAt n (processImgFrame (.added out nonempty) none).log = out.map fun o => (o, n) := by
  refine ⟨publishes_of_pixels hpixels h, fun n => ?_⟩
  show callsAt (n + 1 + -1) (makeCallbacks none out).log = _
  rw [callsAt_makeCallbacks, Int.add_neg_cancel_right]

end Img

/-! ## Histograms -/

section Hst

open ADTimePix3.Hst (FrameHistogram Output Pool PrvHst PrvHstState SumHistogram)

variable {h h' : PrvHst} {sum : SumHistogram} {out : List Output} {arrayCallbacks updated : Bool} {pool : Pool}

/-- How often `processPrvHstFrame` holds the mutex at a callback, its caller not counted. -/
def heldAt : Output → ℤ
  | .histogramSumNFrames _ => 1
  | .ndArray _ _ => 1
  | _ => 0

theorem sumNWaveform_outputs {s : PrvHstState} (hout : Hst.sumNWaveform s updated = some out) :
    ∃ sumN : Option (List ℤ), out = sumN.toList.map .histogramSumNFrames := by
  unfold Hst.sumNWaveform at hout
  split at hout
  · exact ⟨none, (Option.some.inj hout).symm⟩
  · split at hout
    · obtain ⟨value, -, hvalue⟩ := Option.map_eq_some_iff.mp hout
      exact ⟨some value, hvalue.symm⟩
    · exact ⟨none, (Option.some.inj hout).symm⟩

theorem frameWaveforms_outputs (hout : Hst.frameWaveforms h sum = some out) :
    ∃ time data, ∃ frame : Option (List ℤ),
      out = [.histogramTimeMs time, .histogramData data] ++ frame.toList.map .histogramFrame := by
  obtain ⟨time, -, hout⟩ := Option.bind_eq_some_iff.mp hout
  rw [← Option.some.inj hout]
  refine ⟨time, sum.bin_values_64.map Img.toInt64,
    (h.state.prvHstCurrentFrame.filter fun f => f.bin_size = sum.bin_size).map fun f =>
      f.bin_values_32.map fun v : ℕ => Img.toInt32 v, ?_⟩
  rcases h.state.prvHstCurrentFrame with _ | frame
  · rfl
  · by_cases hsize : frame.bin_size = sum.bin_size
    · simp [Option.filter, hsize]
    · simp [Option.filter, hsize]

theorem frameArray_outputs : ∀ o ∈ Hst.frameArray h sum pool, ∃ addr data, o = .ndArray addr data := by
  intro o ho
  unfold Hst.frameArray at ho
  split at ho
  · obtain ⟨f, -, rfl⟩ := List.mem_map.mp ho
    exact ⟨6, _, rfl⟩
  · exact absurd ho List.not_mem_nil

/-- An array that is made when a condition holds. -/
theorem singleArray_outputs {addr : ℕ} {condition : Prop} [Decidable condition] {data : Option (List ℤ)}
    (hout : (if condition then data.map fun data => [Output.ndArray addr data] else some []) = some out) :
    ∀ o ∈ out, ∃ addr data, o = .ndArray addr data := by
  intro o ho
  split at hout
  · obtain ⟨value, -, rfl⟩ := Option.map_eq_some_iff.mp hout
    exact ⟨addr, value, List.mem_singleton.mp ho⟩
  · rw [← Option.some.inj hout] at ho
    exact absurd ho List.not_mem_nil

theorem frameArrays_outputs (hout : Hst.frameArrays h sum arrayCallbacks pool updated = some out) :
    ∃ arrays : List (ℕ × List ℤ), out = arrays.map fun array => .ndArray array.1 array.2 := by
  suffices harrays : ∀ o ∈ out, ∃ addr data, o = .ndArray addr data by
    have hmem : out ∈ Set.range (List.map fun array : ℕ × List ℤ => Output.ndArray array.1 array.2) := by
      rw [Set.range_list_map]
      intro o ho
      obtain ⟨addr, data, rfl⟩ := harrays o ho
      exact ⟨(addr, data), rfl⟩
    obtain ⟨arrays, rfl⟩ := hmem
    exact ⟨arrays, rfl⟩
  unfold Hst.frameArrays at hout
  split at hout
  · obtain ⟨time7, htime, hout⟩ := Option.bind_eq_some_iff.mp hout
    obtain ⟨sum4, hsum, hout⟩ := Option.bind_eq_some_iff.mp hout
    rw [← Option.some.inj hout]
    intro o ho
    rcases List.mem_append.mp ho with ho | ho
    · rcases List.mem_append.mp ho with ho | ho
      · rcases List.mem_append.mp ho with ho | ho
        · split at ho
          · exact ⟨5, _, List.mem_singleton.mp ho⟩
          · exact absurd ho List.not_mem_nil
        · exact singleArray_outputs htime o ho
      · exact frameArray_outputs o ho
    · exact singleArray_outputs hsum o ho
  · rw [← Option.some.inj hout]
    exact fun o ho => absurd ho List.not_mem_nil

/-- A histogram that is added, and published without an exception. -/
structure HstFrame.Published (f : HstFrame) : Prop where
  accumulationEnable : f.accumulationEnable = true
  added : f.added = true
  throwsAt : f.throwsAt = none

/-- What is published for a histogram, in order. -/
def HstFrame.outputs (f : HstFrame) : List Output :=
  f.sumNFrames.toList.map .histogramSumNFrames ++
    (f.timeMs.toList.map .histogramTimeMs ++ [.histogramData f.data] ++ f.frame.toList.map .histogramFrame) ++
    f.arrayCallbacks

theorem callsAt_publishArrays {f : HstFrame} (hf : f.Published) (n : ℤ) :
    callsAt n f.publishArrays.log = f.arrayCallbacks.map fun o => (o, n) := by
  have harrays : f.arrayThrowsAt = none := by
    unfold HstFrame.arrayThrowsAt
    rw [hf.throwsAt]
  unfold HstFrame.publishArrays
  rw [log_bind, callsAt_append, harrays, callsAt_makeCallbacks]
  rcases (makeCallbacks none f.arrayCallbacks).val with _ | _
  · exact List.append_nil _
  · rw [hf.throwsAt]
    exact List.append_nil _

theorem held_arrayCallbacks (f : HstFrame) (n : ℤ) :
    (f.arrayCallbacks.map fun o => (o, n + 1)) = f.arrayCallbacks.map fun o => (o, n + heldAt o) := by
  refine List.map_congr_left fun o ho => ?_
  obtain ⟨array, -, rfl⟩ := List.mem_map.mp ho
  rfl

theorem callsAt_publishFrame {f : HstFrame} (hf : f.Published) (n : ℤ) :
    callsAt n f.publishFrame.log =
      (f.frame.toList.map Output.histogramFrame ++ f.arrayCallbacks).map fun o => (o, n + heldAt o) := by
  rw [List.map_append, ← held_arrayCallbacks]
  cases hframe : f.frame with
  | none =>
    have hlog : f.publishFrame.log = .lock :: f.publishArrays.log := by
      unfold HstFrame.publishFrame
      rw [hframe]
      rfl
    rw [hlog]
    exact callsAt_publishArrays hf (n + 1)
  | some value =>
    have hlog : f.publishFrame.log =
        .lock :: .unlock :: .call (.histogramFrame value) :: .lock :: f.publishArrays.log := by
      unfold HstFrame.publishFrame
      rw [hframe, hf.throwsAt]
      rfl
    rw [hlog]
    show (Output.histogramFrame value, n + 1 + -1) :: callsAt (n + 1 + -1 + 1) f.publishArrays.log = _
    rw [callsAt_publishArrays hf, Int.add_neg_cancel_right]
    show _ = (Output.histogramFrame value, n + 0) :: _
    rw [Int.add_zero]
    rfl

theorem callsAt_waveform_append (mk : List ℤ → Output) (value : Option (List ℤ)) (n : ℤ) (log : List (Op Output)) :
    callsAt n ((HstFrame.waveform mk value).log ++ log) =
      (value.toList.map fun v => (mk v, n)) ++ callsAt n log := by
  cases value <;> rfl

/-- What a histogram gives is published at the hold count of the caller, the sum of the last frames and the arrays at
one more. -/
theorem callsAt_processPrvHstFrame {f : HstFrame} (hf : f.Published) (n : ℤ) :
    callsAt n (processPrvHstFrame f).log = f.outputs.map fun o => (o, n + heldAt o) := by
  have hlog : (processPrvHstFrame f).log =
      .lock :: ((HstFrame.waveform .histogramSumNFrames f.sumNFrames).log ++
        .unlock :: ((HstFrame.waveform .histogramTimeMs f.timeMs).log ++
          .call (.histogramData f.data) :: f.publishFrame.log)) := by
    unfold processPrvHstFrame HstFrame.publish
    rw [hf.accumulationEnable, hf.added, hf.throwsAt]
    rfl
  have hwaveform : ∀ (mk : List ℤ → Output) (k : ℤ) (value : Option (List ℤ)), (∀ v, heldAt (mk v) = k) →
      (value.toList.map fun v => (mk v, n + k)) = (value.toList.map mk).map fun o => (o, n + heldAt o) := by
    intro mk k value hk
    rw [List.map_map]
    refine List.map_congr_left fun v _ => ?_
    rw [← hk v]
    rfl
  rw [hlog]
  show callsAt (n + 1) _ = _
  rw [callsAt_waveform_append, hwaveform _ 1 _ fun _ => rfl]
  show _ ++ callsAt (n + 1 + -1) _ = _
  rw [Int.add_neg_cancel_right, callsAt_waveform_append]
  show _ ++ (_ ++ (Output.histogramData f.data, n) :: callsAt n f.publishFrame.log) = _
  rw [callsAt_publishFrame hf]
  have htime := hwaveform .histogramTimeMs 0 f.timeMs fun _ => rfl
  rw [Int.add_zero] at htime
  rw [htime]
  unfold HstFrame.outputs
  simp [heldAt]

/-- A histogram is published as the accumulation says, with the mutex held once more than by the caller for the sum of
the last frames and for the arrays. -/
theorem processPrvHstFrame_calls {frame : FrameHistogram}
    (hout : Hst.processAndPublish h frame arrayCallbacks pool = some (h', out)) :
    ∃ f : HstFrame, f.Published ∧ ∀ n, callsAt n (processPrvHstFrame f).log = out.map fun o => (o, n + heldAt o) := by
  unfold Hst.processAndPublish at hout
  rw [Hst.addFrame_eq] at hout
  dsimp only at hout
  unfold Hst.publishPrvHstFrame at hout
  obtain ⟨sum, hsum, -⟩ := Hst.processPrvHstFrame_sum h.state frame
  obtain ⟨sumN, hsumN, hout⟩ := Option.bind_eq_some_iff.mp hout
  rw [hsum] at hout
  obtain ⟨filled, -, hout⟩ := Option.bind_eq_some_iff.mp hout
  obtain ⟨waveforms, hwaveforms, hout⟩ := Option.bind_eq_some_iff.mp hout
  obtain ⟨arrays, harrays, hout⟩ := Option.bind_eq_some_iff.mp hout
  obtain ⟨sumN, rfl⟩ := sumNWaveform_outputs hsumN
  obtain ⟨time, data, current, rfl⟩ := frameWaveforms_outputs hwaveforms
  obtain ⟨arrays, rfl⟩ := frameArrays_outputs harrays
  let f : HstFrame :=
    { accumulationEnable := true
      added := true
      sumNFrames := sumN
      timeMs := some time
      data := data
      frame := current
      arrays := arrays
      throwsAt := none }
  have hf : f.Published := ⟨rfl, rfl, rfl⟩
  have houtputs : f.outputs = out := congrArg Prod.snd (Option.some.inj hout)
  refine ⟨f, hf, fun n => ?_⟩
  rw [callsAt_processPrvHstFrame hf, houtputs]

/-- So the arrays are never made with the mutex free, whoever calls. -/
theorem not_sound_of_arrays {f : HstFrame} (hf : f.Published) (harrays : f.arrays ≠ []) {n : ℤ} (hn : 0 ≤ n) :
    ¬Sound prvHstAfterUnlock n n (processPrvHstFrame f) := by
  rintro ⟨hcalls, -⟩
  obtain ⟨array, harray⟩ := List.exists_mem_of_ne_nil f.arrays harrays
  have hmem : (Output.ndArray array.1 array.2, n + 1) ∈ callsAt n (processPrvHstFrame f).log := by
    rw [callsAt_processPrvHstFrame hf]
    refine List.mem_map.mpr ⟨.ndArray array.1 array.2, ?_, rfl⟩
    exact List.mem_append_right _ (List.mem_map.mpr ⟨array, harray, rfl⟩)
  have hzero : n + 1 = 0 := hcalls _ hmem trivial
  omega

end Hst

end ADTimePix3.Stream.FrameLocks
