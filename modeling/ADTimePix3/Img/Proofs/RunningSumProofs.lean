import ADTimePix3.Img.Proofs.AccumulationProofs

/-!
# The running sum

`RunningSumOf s frames` says that the running sum and its two counters are those of `frames`. Each operation
keeps it, with `frames` moving along as `sinceRestart` says. The wrap test of `add_image` makes each pixel
the saturated sum whatever the order of the frames.

Main result: `runningSum_sinceRestart`.
-/

namespace ADTimePix3.Img

open Buffers Counts Runs

/-- The operations of a measurement: frames, resets and settings. -/
def Op.Accumulates : Op → Prop
  | .readSumN _ => False
  | .push .. => False
  | _ => True

/-- The running sum and its counters are those of `frames`: every pixel is the sum saturated at 64 bits, the
counters count modulo `2 ^ 64`. There is no running sum while there are no frames. -/
structure RunningSumOf (s : ImgState) (frames : List Frame) : Prop where
  absent : s.imgRunningSum = none ↔ frames = []
  present : ∀ sum ∈ s.imgRunningSum,
    (∀ g ∈ frames, g.width = sum.width ∧ g.height = sum.height) ∧
      sum.pixels = tabulate sum.pixelCount fun i => min (2 ^ 64 - 1) (pixelSum frames i)
  totalCounts : s.imgTotalCounts = (frames.map Frame.counts).sum % 2 ^ 64
  frameCount : s.imgAccumulatedFrameCount = frames.length % 2 ^ 64

theorem runningSumOf_init : RunningSumOf .init [] where
  absent := by simp [ImgState.init]
  present := by simp [ImgState.init]
  totalCounts := rfl
  frameCount := rfl

theorem runningSumOf_reset (s : ImgState) : RunningSumOf (resetImgAccumulation s) [] where
  absent := by simp [resetImgAccumulation]
  present := by simp [resetImgAccumulation]
  totalCounts := rfl
  frameCount := rfl

/-- The invariant reads the running sum and the counters only. -/
theorem RunningSumOf.congr {s t : ImgState} {frames : List Frame} (h : RunningSumOf s frames)
    (hsum : t.imgRunningSum = s.imgRunningSum) (htotal : t.imgTotalCounts = s.imgTotalCounts)
    (hcount : t.imgAccumulatedFrameCount = s.imgAccumulatedFrameCount) : RunningSumOf t frames where
  absent := by rw [hsum]; exact h.absent
  present := by rw [hsum]; exact h.present
  totalCounts := by rw [htotal]; exact h.totalCounts
  frameCount := by rw [hcount]; exact h.frameCount

/-- The frames that are kept when `frame` arrives. -/
def keptFrames (frames : List Frame) (frame : Frame) : List Frame :=
  if ∀ g ∈ frames, g.SameSize frame then frames else []

/-- The sum to which a frame is added is the sum of the frames that are kept. -/
theorem RunningSumOf.baseSum {s : ImgState} {frames : List Frame} (h : RunningSumOf s frames)
    (f : Frame) :
    (baseSum s f).1.pixels =
        tabulate f.pixelCount (fun i => min (2 ^ 64 - 1) (pixelSum (keptFrames frames f) i)) ∧
      (baseSum s f).2.1 = ((keptFrames frames f).map Frame.counts).sum % 2 ^ 64 ∧
      (baseSum s f).2.2 = (keptFrames frames f).length % 2 ^ 64 := by
  have hzero : (RunningSum.zero f.width f.height).pixels =
      tabulate f.pixelCount fun i => min (2 ^ 64 - 1) (pixelSum [] i) := by
    simp [RunningSum.zero, replicate_eq_tabulate, Frame.pixelCount]
  unfold Img.baseSum
  cases hs : s.imgRunningSum with
  | none =>
    obtain rfl : frames = [] := h.absent.mp hs
    have hkept : keptFrames [] f = [] := by simp [keptFrames]
    rw [hkept]
    exact ⟨hzero, h.totalCounts, h.frameCount⟩
  | some sum =>
    obtain ⟨hsize, hpix⟩ := h.present sum hs
    by_cases hsame : sum.width = f.width ∧ sum.height = f.height
    · have hkept : keptFrames frames f = frames := by
        refine if_pos fun g hg => ?_
        exact ⟨(hsize g hg).1.trans hsame.1, (hsize g hg).2.trans hsame.2⟩
      have hcount : sum.pixelCount = f.pixelCount := by
        rw [RunningSum.pixelCount, Frame.pixelCount, hsame.1, hsame.2]
      simp only [if_pos hsame]
      rw [hkept]
      exact ⟨hcount ▸ hpix, h.totalCounts, h.frameCount⟩
    · have hkept : keptFrames frames f = [] := by
        refine if_neg fun hall => hsame ?_
        -- the sum has frames, and they have its dimensions
        obtain ⟨g, hg⟩ : ∃ g, g ∈ frames := by
          refine List.exists_mem_of_ne_nil _ fun hnil => ?_
          rw [h.absent.mpr hnil] at hs
          exact absurd hs (by simp)
        exact ⟨(hsize g hg).1.symm.trans (hall g hg).1, (hsize g hg).2.symm.trans (hall g hg).2⟩
      simp only [if_neg hsame]
      rw [hkept]
      exact ⟨hzero, rfl, rfl⟩

/-- Step lemma for a frame. -/
theorem RunningSumOf.frame {s t : ImgState} {frames : List Frame} {f : Frame}
    (h : RunningSumOf s frames) (ht : Accumulated s f t) :
    RunningSumOf t (keptFrames frames f ++ [f]) := by
  obtain ⟨hpix, htotal, hcount⟩ := h.baseSum f
  obtain ⟨sum, hsum, hw, hh, hp⟩ := ht.runningSum
  have hpc : sum.pixelCount = f.pixelCount := by
    rw [RunningSum.pixelCount, Frame.pixelCount, hw, hh]
  constructor
  · rw [hsum]
    simp
  · intro sum' hsum'
    obtain rfl : sum = sum' := Option.some.inj (hsum.symm.trans hsum')
    refine ⟨fun g hg => ?_, ?_⟩
    · rw [hw, hh]
      rcases List.mem_append.mp hg with hg | hg
      · unfold keptFrames at hg
        split at hg
        · rename_i hall
          exact hall g hg
        · exact absurd hg (List.not_mem_nil)
      · rw [List.mem_singleton.mp hg]
        exact ⟨rfl, rfl⟩
    · rw [hp, hpix, hpc, f.pixels_eq, zipWith_tabulate]
      refine tabulate_congr fun i _ => ?_
      have hlt : f.pixel i < 2 ^ 64 := lt_trans (f.pixel_lt_two_pow i) (by decide)
      rw [satAdd_min (by decide) hlt, pixelSum_append, pixelSum_cons, pixelSum_nil, Nat.add_zero]
  · rw [ht.totalCounts, htotal, wrapAdd, frameTotal_eq, ← Nat.add_mod, List.map_append, List.sum_append]
    simp
  · rw [ht.frameCount, hcount, wrapAdd, Nat.mod_add_mod, List.length_append, List.length_singleton]

/-! ## Runs -/

/-- The invariant of a measurement: the running sum is right, and the work buffer is not larger than the sum
buffer, so that every sum fits. -/
structure Measuring (s : ImgState) (frames : List Frame) : Prop where
  sum : RunningSumOf s frames
  work_le : s.imgSumArray64WorkBuffer.length ≤ s.imgSumArray64Buffer.length

theorem Measuring.opFits {s : ImgState} {frames : List Frame} (h : Measuring s frames) (op : Op) :
    OpFits s op := by
  have hfits : ∀ n, SumFits s n := by
    intro n
    have hle := h.work_le
    unfold SumFits
    omega
  cases op with
  | readSumN n => trivial
  | _ => exact fun first _ => hfits first.pixelCount

/-- Step lemma: an operation of a measurement goes through and keeps the invariant. -/
theorem Measuring.step {s : ImgState} {frames : List Frame} (h : Measuring s frames) {op : Op}
    (hop : op.Accumulates) :
    ∃ s', stepState s op = some s' ∧ Measuring s' (sinceRestart frames op) := by
  cases op with
  | frame f pool =>
    obtain ⟨t, since, buf, work, out, hacc, hstep, hst, -⟩ := processImgFrame_stored (h.opFits _)
    refine ⟨_, stepState_of_step hstep, ?_, hst.work_le h.work_le⟩
    exact (h.sum.frame hacc).congr rfl rfl rfl
  | imageDataReset value =>
    refine ⟨_, rfl, ?_⟩
    simp only [sinceRestart, writeImageDataReset]
    by_cases hv : value = 1
    · rw [if_pos hv, if_pos hv]
      exact ⟨runningSumOf_reset s, h.work_le⟩
    · rw [if_neg hv, if_neg hv]
      exact h
  | acquireStop => exact ⟨_, rfl, runningSumOf_reset s, h.work_le⟩
  | framesToSum value =>
    obtain ⟨since, buf, work, out, hstep, hst, -⟩ := writeFramesToSum_stored (h.opFits (.framesToSum value))
    refine ⟨_, stepState_of_step hstep, ?_, hst.work_le h.work_le⟩
    exact h.sum.congr rfl rfl rfl
  | sumUpdateInterval value => exact ⟨_, rfl, h.sum.congr rfl rfl rfl, h.work_le⟩
  | readSumN n => exact hop.elim
  | push outputType arrayCallbacks pool => exact hop.elim

/-- Run lemma: a measurement goes through and keeps the invariant. -/
theorem measuring_run (ops : List Op) (h : ∀ op ∈ ops, op.Accumulates) :
    ∃ s, run stepState .init ops = some s ∧ Measuring s (ops.foldl sinceRestart []) := by
  have hinit : Measuring .init [] := ⟨runningSumOf_init, le_rfl⟩
  have hstep : ∀ s frames op, Measuring s frames → op.Accumulates →
      ∃ s', stepState s op = some s' ∧ Measuring s' (sinceRestart frames op) :=
    fun s frames op hs hop => hs.step hop
  have hguard : Guarded stepState (fun _ op => op.Accumulates) ImgState.init ops :=
    guarded_of_forall h _
  exact run_simulates hstep hinit hguard

/-- In every state that a measurement reaches, the running sum and its counters are those of the frames since
the last restart. -/
theorem runningSum_sinceRestart (ops : List Op) (h : ∀ op ∈ ops, op.Accumulates) :
    ∃ s, run stepState .init ops = some s ∧ RunningSumOf s (ops.foldl sinceRestart []) := by
  obtain ⟨s, hrun, hs⟩ := measuring_run ops h
  exact ⟨s, hrun, hs.sum⟩

theorem runningSum_sinceRestart_example :
    ∃ s, run stepState .init
        [.frame onePixel ⟨true, true⟩, .framesToSum 3, .frame twoPixels ⟨true, false⟩,
          .frame twoPixels ⟨false, true⟩, .sumUpdateInterval 2] = some s ∧
      RunningSumOf s ([.frame onePixel ⟨true, true⟩, .framesToSum 3, .frame twoPixels ⟨true, false⟩,
        .frame twoPixels ⟨false, true⟩, .sumUpdateInterval 2].foldl sinceRestart []) :=
  runningSum_sinceRestart _ (by simp [Op.Accumulates])

theorem sinceRestart_replicate (n : ℕ) (f : Frame) (pool : Pool) :
    (List.replicate n (Op.frame f pool)).foldl sinceRestart [] = List.replicate n f := by
  induction n with
  | zero => rfl
  | succ n ih =>
    rw [List.replicate_succ', List.foldl_append, ih, List.replicate_succ']
    have hsame : ∀ g ∈ List.replicate n f, g.SameSize f := by
      intro g hg
      rw [List.eq_of_mem_replicate hg]
      exact ⟨rfl, rfl⟩
    simp only [List.foldl_cons, List.foldl_nil, sinceRestart, if_pos hsame]

/-- The frame counter is a 64-bit one: after `2 ^ 64` frames without a restart it is back at `0`. -/
theorem frameCount_wraps :
    ¬ ∀ ops : List Op, (∀ op ∈ ops, op.Accumulates) → ∃ s, run stepState .init ops = some s ∧
      s.imgAccumulatedFrameCount = (ops.foldl sinceRestart []).length := by
  intro hall
  have hops : ∀ op ∈ List.replicate (2 ^ 64) (Op.frame onePixel ⟨true, true⟩), op.Accumulates := by
    intro op hop
    rw [List.eq_of_mem_replicate hop]
    trivial
  obtain ⟨s, hrun, hs⟩ := measuring_run _ hops
  obtain ⟨s', hrun', hcount⟩ := hall _ hops
  obtain rfl : s = s' := Option.some.inj (hrun.symm.trans hrun')
  rw [hs.sum.frameCount, sinceRestart_replicate, List.length_replicate] at hcount
  exact absurd hcount (by decide)

end ADTimePix3.Img
