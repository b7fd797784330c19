import ADTimePix3.Img.Proofs.AccumulationProofs

/-!
# The two sum buffers

`imgSumArray64Buffer_` is grown only together with `imgSumArray64WorkBuffer_`, when the latter is too small;
a read of `ImgImageSumNFrames` grows the work buffer alone. So a later sum may find the work buffer large
enough and the other one too small. Everything else that is read from the buffers, at whatever time, was
stored there, and the buffers never shrink.

Main result: `sections_in_bounds_iff`.
-/

namespace ADTimePix3.Img

open Buffers Runs

/-- What is still to be published lies within the buffers, and the sum buffer is not larger than the work
buffer. -/
structure InBounds (y : System) : Prop where
  sum_le : y.img.imgSumArray64Buffer.length ≤ y.img.imgSumArray64WorkBuffer.length
  published : ∀ p ∈ y.published, p.InBuffers y.img
  recalculated : ∀ n ∈ y.recalculated, n ≤ y.img.imgSumArray64Buffer.length

theorem inBounds_init : InBounds .init := ⟨le_rfl, by simp [System.init], by simp [System.init]⟩

structure Grown (s t : ImgState) : Prop where
  data : s.imgArrayData64Buffer.length ≤ t.imgArrayData64Buffer.length
  frame : s.imgFrameArrayDataBuffer.length ≤ t.imgFrameArrayDataBuffer.length
  sum : s.imgSumArray64Buffer.length ≤ t.imgSumArray64Buffer.length

theorem Published.InBuffers.grown {p : Published} {s t : ImgState} (h : p.InBuffers s)
    (hst : Grown s t) : p.InBuffers t :=
  ⟨h.data.trans hst.data, h.frame.trans hst.frame, h.sum.trans hst.sum⟩

/-- New work is queued while the buffers grow. -/
theorem InBounds.grown {y : System} (h : InBounds y) {s : ImgState} (hs : Grown y.img s)
    (hle : s.imgSumArray64Buffer.length ≤ s.imgSumArray64WorkBuffer.length) {ps : List Published}
    (hps : ∀ p ∈ ps, p.InBuffers s) {ns : List ℕ} (hns : ∀ n ∈ ns, n ≤ s.imgSumArray64Buffer.length) :
    InBounds ⟨s, y.published ++ ps, y.recalculated ++ ns⟩ where
  sum_le := hle
  published p hp := by
    rcases List.mem_append.mp hp with hp | hp
    · exact (h.published p hp).grown hs
    · exact hps p hp
  recalculated n hn := by
    rcases List.mem_append.mp hn with hn | hn
    · exact (h.recalculated n hn).trans hs.sum
    · exact hns n hn

theorem InBounds.grown_nil {y : System} (h : InBounds y) {s : ImgState} (hs : Grown y.img s)
    (hle : s.imgSumArray64Buffer.length ≤ s.imgSumArray64WorkBuffer.length) :
    InBounds { y with img := s } := by
  have hnew := h.grown hs hle (List.forall_mem_nil _) (List.forall_mem_nil _)
  rwa [List.append_nil, List.append_nil] at hnew

/-! ## One section -/

/-- The section goes through and keeps the bounds. -/
def GoesThrough (y : System) (e : Section) : Prop := ∃ y', sectionStep y e = some y' ∧ InBounds y'

theorem goesThrough_frameCallbacks {y : System} (h : InBounds y) (i : ℕ) :
    GoesThrough y (.frameCallbacks i) := by
  simp only [GoesThrough, sectionStep]
  cases hp : y.published[i]? with
  | none => exact ⟨y, rfl, h⟩
  | some p =>
    obtain ⟨out, hout, -⟩ := processImgFrameCallbacks_spec (h.published p (List.mem_of_getElem? hp))
    refine ⟨{ y with published := y.published.eraseIdx i }, ?_, h.sum_le, fun q hq => ?_,
      h.recalculated⟩
    · simp only [hout, Option.map_some]
    · exact h.published q (List.mem_of_mem_eraseIdx hq)

theorem goesThrough_framesToSumCopy {y : System} (h : InBounds y) (i : ℕ) :
    GoesThrough y (.framesToSumCopy i) := by
  simp only [GoesThrough, sectionStep]
  cases hn : y.recalculated[i]? with
  | none => exact ⟨y, rfl, h⟩
  | some n =>
    have hle := h.recalculated n (List.mem_of_getElem? hn)
    refine ⟨{ y with recalculated := y.recalculated.eraseIdx i }, ?_, h.sum_le, h.published,
      fun k hk => ?_⟩
    · simp only [writeFramesToSumCopy, readFirst, if_pos hle, Option.map_some]
    · exact h.recalculated k (List.mem_of_mem_eraseIdx hk)

theorem goesThrough_frame {y : System} (h : InBounds y) {f : Frame} {pool : Pool}
    (hfit : OpFits y.img (.frame f pool)) : GoesThrough y (.op (.frame f pool)) := by
  obtain ⟨t, since, buf, work, p, hacc, hlocked, hst, hm, hn, hsize, -, -⟩ :=
    processImgFrameLocked_stored hfit
  obtain ⟨hsum, hle⟩ := hst.sum_le h.sum_le
  have hgrown : Grown y.img (t.withSum since buf work) := ⟨hacc.dataBuffer, hacc.frameArray, hsum⟩
  have hp : ∀ q ∈ [p], q.InBuffers (t.withSum since buf work) := by
    intro q hq
    rw [List.mem_singleton.mp hq]
    exact ⟨hm, hn, by rw [hsize]; exact hst.fits⟩
  refine ⟨_, ?_, h.grown hgrown hle hp (List.forall_mem_nil _)⟩
  simp only [sectionStep, hlocked, Option.bind_eq_bind, Option.bind_some, List.append_nil]

theorem goesThrough_framesToSum {y : System} (h : InBounds y) {value : ℤ}
    (hfit : OpFits y.img (.framesToSum value)) : GoesThrough y (.op (.framesToSum value)) := by
  obtain ⟨since, buf, work, n, hlocked, hst, hn⟩ := writeFramesToSumLocked_stored hfit
  obtain ⟨hsum, hle⟩ := hst.sum_le h.sum_le
  have hgrown : Grown y.img ((y.img.withFramesToSum value).withSum since buf work) :=
    ⟨le_rfl, le_rfl, hsum⟩
  have hns : ∀ k ∈ n.toList, k ≤ buf.length := by
    intro k hk
    rw [(hn k (Option.mem_toList.mp hk)).2]
    exact hst.fits
  refine ⟨_, ?_, h.grown hgrown hle (List.forall_mem_nil _) hns⟩
  simp only [sectionStep, hlocked, Option.bind_eq_bind, Option.bind_some, List.append_nil]

theorem goesThrough_imageDataReset {y : System} (h : InBounds y) (value : ℤ) :
    GoesThrough y (.op (.imageDataReset value)) := by
  refine ⟨_, rfl, h.grown_nil ?_ ?_⟩
  · unfold writeImageDataReset
    split
    · exact ⟨le_rfl, le_rfl, le_rfl⟩
    · exact ⟨le_rfl, le_rfl, le_rfl⟩
  · unfold writeImageDataReset
    split
    · exact h.sum_le
    · exact h.sum_le

theorem goesThrough_readSumN {y : System} (h : InBounds y) (n : ℕ) : GoesThrough y (.op (.readSumN n)) := by
  obtain ⟨work, value, hread, hwork, -, -⟩ := readImageSumNFrames_spec y.img n
  have hstep : stepState y.img (.readSumN n) = some { y.img with imgSumArray64WorkBuffer := work } := by
    have hfull : step y.img (.readSumN n) =
        some ({ y.img with imgSumArray64WorkBuffer := work }, [.readValue value]) := by
      rw [step, hread, Option.map_some]
    exact stepState_of_step hfull
  refine ⟨{ y with img := { y.img with imgSumArray64WorkBuffer := work } }, ?_, h.grown_nil ?_ ?_⟩
  · simp only [sectionStep, hstep, Option.map_some]
  · exact ⟨le_rfl, le_rfl, le_rfl⟩
  · exact h.sum_le.trans hwork

theorem goesThrough_push {y : System} (h : InBounds y) (outputType : ℤ) (arrayCallbacks : Bool)
    (pool : Pool) : GoesThrough y (.op (.push outputType arrayCallbacks pool)) := by
  obtain ⟨out, hout⟩ := Option.isSome_iff_exists.mp
    (pushProcessedImgToPlugins_isSome y.img outputType arrayCallbacks pool)
  have hstep : stepState y.img (.push outputType arrayCallbacks pool) = some y.img := by
    have hfull : step y.img (.push outputType arrayCallbacks pool) = some (y.img, out) := by
      rw [step, hout, Option.map_some]
    exact stepState_of_step hfull
  refine ⟨y, ?_, h⟩
  simp only [sectionStep, hstep, Option.map_some]

/-- A section goes through when its sum fits, and runs past the end of the sum buffer when it does not. -/
theorem sectionStep_spec {y : System} (h : InBounds y) (e : Section) :
    (SectionFits y e ∧ GoesThrough y e) ∨ (¬ SectionFits y e ∧ sectionStep y e = none) := by
  -- what sums no frames always fits
  have hfits : ∀ op, summedFrames y.img op = [] → ∀ first ∈ (summedFrames y.img op).head?,
      SumFits y.img first.pixelCount := by
    intro op hnil first hfirst
    rw [hnil] at hfirst
    cases hfirst
  cases e with
  | frameCallbacks i => exact .inl ⟨trivial, goesThrough_frameCallbacks h i⟩
  | framesToSumCopy i => exact .inl ⟨trivial, goesThrough_framesToSumCopy h i⟩
  | op op =>
    cases op with
    | frame f pool =>
      by_cases hfit : OpFits y.img (.frame f pool)
      · exact .inl ⟨hfit, goesThrough_frame h hfit⟩
      · refine .inr ⟨hfit, ?_⟩
        rw [sectionStep, processImgFrameLocked_none hfit]
        rfl
    | framesToSum value =>
      by_cases hfit : OpFits y.img (.framesToSum value)
      · exact .inl ⟨hfit, goesThrough_framesToSum h hfit⟩
      · refine .inr ⟨hfit, ?_⟩
        rw [sectionStep, writeFramesToSumLocked_none hfit]
        rfl
    | imageDataReset value => exact .inl ⟨hfits _ rfl, goesThrough_imageDataReset h value⟩
    | acquireStop =>
      exact .inl ⟨hfits .acquireStop rfl, _, rfl, h.grown_nil ⟨le_rfl, le_rfl, le_rfl⟩ h.sum_le⟩
    | sumUpdateInterval value =>
      exact .inl ⟨hfits (.sumUpdateInterval value) rfl, _, rfl, h.grown_nil ⟨le_rfl, le_rfl, le_rfl⟩ h.sum_le⟩
    | readSumN n => exact .inl ⟨trivial, goesThrough_readSumN h n⟩
    | push outputType arrayCallbacks pool =>
      exact .inl ⟨hfits _ rfl, goesThrough_push h outputType arrayCallbacks pool⟩

/-! ## All interleavings -/

/-- Over all interleavings of the critical sections: every access to the buffers is in bounds exactly as long
as every sum that is stored fits. -/
theorem sections_in_bounds_iff (events : List Section) :
    (run sectionStep .init events).isSome ↔ Guarded sectionStep SectionFits .init events := by
  refine run_isSome_iff (fun y e hy => ?_) (fun y e y' hy hstep => ?_) inBounds_init events
  · rcases sectionStep_spec hy e with ⟨hfit, y', hy', -⟩ | ⟨hfit, hnone⟩
    · simp [hfit, hy']
    · simp [hfit, hnone]
  · rcases sectionStep_spec hy e with ⟨-, y₁, hy₁, hin⟩ | ⟨-, hnone⟩
    · obtain rfl : y₁ = y' := Option.some.inj (hy₁.symm.trans hstep)
      exact hin
    · rw [hnone] at hstep
      exact absurd hstep (by simp)

/-- A frame of one pixel without an update of the sum, a read of the sum, and a frame with an update: the
read has grown the work buffer alone, and the update writes element `0` of the empty sum buffer. -/
theorem sections_out_of_bounds :
    ¬ ∀ events : List Section, (run sectionStep .init events).isSome := by
  intro hall
  have hnone : (run sectionStep .init
      [.op (.sumUpdateInterval 2), .op (.frame onePixel ⟨true, true⟩), .op (.readSumN 1),
        .op (.frame onePixel ⟨true, true⟩)]).isSome = false := by
    decide
  have hsome := hall [.op (.sumUpdateInterval 2), .op (.frame onePixel ⟨true, true⟩),
    .op (.readSumN 1), .op (.frame onePixel ⟨true, true⟩)]
  rw [hnone] at hsome
  exact absurd hsome (by decide)

end ADTimePix3.Img
