import ADTimePix3.Img.Run

/-!
# Accumulation on the Img channel: what each operation does

One specification for each function of `Img.Accumulation`; the proofs about runs use these and unfold no
function of the model. A function either succeeds with the state given here or, where its sum does not fit
the sum buffer, runs past its end.
-/

namespace ADTimePix3.Img

open Buffers Counts

/-! ## Frames -/

theorem Frame.pixels_eq (f : Frame) : f.pixels = tabulate f.pixelCount f.pixel := by
  have h := eq_tabulate f.pixels 0
  rwa [f.length_eq] at h

theorem Frame.pixel_of_le (f : Frame) {i : ℕ} (h : f.pixelCount ≤ i) : f.pixel i = 0 := by
  have hlen : f.pixels.length ≤ i := by rw [f.length_eq]; exact h
  rw [Frame.pixel, List.getD_eq_getElem?_getD, List.getElem?_eq_none hlen, Option.getD_none]

theorem PixelFormat.bound_le (p : PixelFormat) : p.bound ≤ 2 ^ 32 := by
  cases p <;> decide

theorem Frame.pixel_lt_two_pow (f : Frame) (i : ℕ) : f.pixel i < 2 ^ 32 := by
  by_cases h : i < f.pixels.length
  · have hmem : f.pixel i ∈ f.pixels := by
      rw [Frame.pixel, List.getD_eq_getElem?_getD, List.getElem?_eq_getElem h, Option.getD_some]
      exact List.getElem_mem h
    exact lt_of_lt_of_le (f.pixel_lt _ hmem) f.format.bound_le
  · rw [f.pixel_of_le (by rw [Frame.pixelCount, ← f.length_eq]; omega)]
    decide

theorem Frame.SameSize.pixelCount_eq {f g : Frame} (h : f.SameSize g) : f.pixelCount = g.pixelCount := by
  rw [Frame.pixelCount, Frame.pixelCount, h.1, h.2]

@[simp] theorem pixelSum_nil (i : ℕ) : pixelSum [] i = 0 := rfl

theorem pixelSum_cons (f : Frame) (l : List Frame) (i : ℕ) :
    pixelSum (f :: l) i = f.pixel i + pixelSum l i := by
  simp [pixelSum]

theorem pixelSum_append (l l' : List Frame) (i : ℕ) :
    pixelSum (l ++ l') i = pixelSum l i + pixelSum l' i := by
  simp [pixelSum]

theorem pixelSum_le (l : List Frame) (i : ℕ) : pixelSum l i ≤ l.length * 2 ^ 32 := by
  induction l with
  | nil => simp
  | cons f l ih =>
    have hf := f.pixel_lt_two_pow i
    rw [pixelSum_cons, List.length_cons, Nat.add_mul]
    omega

theorem frameTotal_eq (f : Frame) : frameTotal f = f.counts % 2 ^ 64 := by
  rw [frameTotal, foldl_wrapAdd _ (by decide), Nat.zero_add, Frame.counts]

/-! ## The running sum -/

theorem RunningSum.addImage_spec {s : RunningSum} {f : Frame}
    (h : s.width = f.width ∧ s.height = f.height) :
    ∃ s', s.addImage f = some s' ∧ s'.width = f.width ∧ s'.height = f.height ∧
      s'.pixels = List.zipWith (satAdd (2 ^ 64)) s.pixels f.pixels := by
  unfold RunningSum.addImage
  rw [dif_pos ⟨h.1.symm, h.2.symm⟩]
  exact ⟨_, rfl, h.1, h.2, rfl⟩

/-- The sum and the two counters to which a frame is added. -/
def baseSum (s : ImgState) (f : Frame) : RunningSum × ℕ × ℕ :=
  match s.imgRunningSum with
  | none => (.zero f.width f.height, s.imgTotalCounts, s.imgAccumulatedFrameCount)
  | some sum =>
    if sum.width = f.width ∧ sum.height = f.height then
      (sum, s.imgTotalCounts, s.imgAccumulatedFrameCount)
    else (.zero f.width f.height, 0, 0)

theorem baseSum_size (s : ImgState) (f : Frame) :
    (baseSum s f).1.width = f.width ∧ (baseSum s f).1.height = f.height := by
  unfold baseSum
  split
  · exact ⟨rfl, rfl⟩
  · split
    · assumption
    · exact ⟨rfl, rfl⟩

/-- `add_image` never throws: the sum it adds to has the dimensions of the frame. -/
theorem addFrame_spec (s : ImgState) (f : Frame) :
    ∃ sum, addFrame (initRunningSum s f) f = some
        { s with
          imgRunningSum := some sum
          imgCurrentFrame := f
          imgTotalCounts := wrapAdd (2 ^ 64) (baseSum s f).2.1 (frameTotal f)
          imgAccumulatedFrameCount := wrapAdd (2 ^ 64) (baseSum s f).2.2 1 } ∧
      sum.width = f.width ∧ sum.height = f.height ∧
      sum.pixels = List.zipWith (satAdd (2 ^ 64)) (baseSum s f).1.pixels f.pixels := by
  obtain ⟨sum, hsum, hw, hh, hp⟩ := RunningSum.addImage_spec (baseSum_size s f)
  refine ⟨sum, ?_, hw, hh, hp⟩
  unfold baseSum at hsum ⊢
  unfold initRunningSum
  cases hs : s.imgRunningSum with
  | none =>
    simp only [hs] at hsum
    simp [addFrame, RunningSum.zero] at hsum ⊢
    simp [hsum]
  | some old =>
    simp only [hs] at hsum
    by_cases hsame : old.width = f.width ∧ old.height = f.height
    · rw [if_pos hsame] at hsum
      simp [addFrame, hsame, hsum]
    · rw [if_neg hsame] at hsum
      have hdiff : old.width ≠ f.width ∨ old.height ≠ f.height := by tauto
      simp [addFrame, hsame, hdiff, hsum]

/-! ## Copies for the callbacks -/

theorem copyRunningSum_spec {s : ImgState} {sum : RunningSum} (h : s.imgRunningSum = some sum) :
    ∃ buf, copyRunningSum s = some ({ s with imgArrayData64Buffer := buf }, sum.pixelCount) ∧
      sum.pixelCount ≤ buf.length ∧ s.imgArrayData64Buffer.length ≤ buf.length := by
  unfold copyRunningSum
  simp only [h]
  set buf := if s.imgArrayData64Buffer.length < sum.pixelCount then
    resize 0 s.imgArrayData64Buffer sum.pixelCount else s.imgArrayData64Buffer with hbuf
  have hlen : sum.pixelCount ≤ buf.length ∧ s.imgArrayData64Buffer.length ≤ buf.length := by
    rw [hbuf]
    split <;> simp <;> omega
  have hsrc : (sum.pixels.map toInt64).length = sum.pixelCount := by
    rw [List.length_map, sum.length_eq, RunningSum.pixelCount]
  have hov := overwrite_eq_some (v := buf) (by rw [hsrc]; exact hlen.1)
  have hl := (length_of_overwrite hov).1
  rw [hov, Option.bind_eq_bind, Option.bind_some]
  exact ⟨_, rfl, by rw [hl]; exact hlen.1, by rw [hl]; exact hlen.2⟩

theorem copyCurrentFrame_spec (s : ImgState) :
    ∃ buf size, copyCurrentFrame s = some ({ s with imgFrameArrayDataBuffer := buf }, size) ∧
      size ≤ buf.length ∧ s.imgFrameArrayDataBuffer.length ≤ buf.length := by
  unfold copyCurrentFrame
  simp only []
  by_cases hpos : s.imgCurrentFrame.pixelCount > 0
  · rw [if_pos hpos]
    set buf := if s.imgFrameArrayDataBuffer.length < s.imgCurrentFrame.pixelCount then
      resize 0 s.imgFrameArrayDataBuffer s.imgCurrentFrame.pixelCount
      else s.imgFrameArrayDataBuffer with hbuf
    have hlen : s.imgCurrentFrame.pixelCount ≤ buf.length ∧
        s.imgFrameArrayDataBuffer.length ≤ buf.length := by
      rw [hbuf]
      split <;> simp <;> omega
    have hsrc : (s.imgCurrentFrame.pixels.map fun p : ℕ => toInt32 p).length =
        s.imgCurrentFrame.pixelCount := by
      rw [List.length_map, s.imgCurrentFrame.length_eq, Frame.pixelCount]
    have hov := overwrite_eq_some (v := buf) (by rw [hsrc]; exact hlen.1)
    have hl := (length_of_overwrite hov).1
    rw [hov, Option.bind_eq_bind, Option.bind_some]
    exact ⟨_, _, rfl, by rw [hl]; exact hlen.1, by rw [hl]; exact hlen.2⟩
  · rw [if_neg hpos]
    exact ⟨s.imgFrameArrayDataBuffer, 0, rfl, Nat.zero_le _, le_rfl⟩

/-! ## The sum of the last frames -/

/-- The frames that `sumFrames` adds up. -/
def sameSizeFrames (first : Frame) (frames : List Frame) : List Frame :=
  frames.filter fun g => g.SameSize first

theorem sameSizeFrames_eq_self {first : Frame} {frames : List Frame}
    (h : ∀ g ∈ frames, g.SameSize first) : sameSizeFrames first frames = frames :=
  List.filter_eq_self.mpr fun g hg => decide_eq_true (h g hg)

/-- The loop over the frames, on a work buffer whose first pixels are `acc`. -/
theorem sumFrames_loop (first : Frame) (frames : List Frame) (acc : ℕ → ℕ) (rest : List ℕ) :
    frames.foldlM (fun work frame =>
        if frame.width = first.width ∧ frame.height = first.height then
          combine (wrapAdd (2 ^ 64)) work frame.pixels
        else some work) (tabulate first.pixelCount (fun i => acc i % 2 ^ 64) ++ rest) =
      some (tabulate first.pixelCount
        (fun i => (acc i + pixelSum (sameSizeFrames first frames) i) % 2 ^ 64) ++ rest) := by
  induction frames generalizing acc with
  | nil => simp [sameSizeFrames]
  | cons f frames ih =>
    rw [List.foldlM_cons]
    by_cases hf : f.SameSize first
    · have hstep : combine (wrapAdd (2 ^ 64))
          (tabulate first.pixelCount (fun i => acc i % 2 ^ 64) ++ rest) f.pixels =
          some (tabulate first.pixelCount (fun i => (acc i + f.pixel i) % 2 ^ 64) ++ rest) := by
        rw [f.pixels_eq, hf.pixelCount_eq, combine_tabulate]
        simp only [wrapAdd, Nat.mod_add_mod]
      have hcons : sameSizeFrames first (f :: frames) = f :: sameSizeFrames first frames :=
        List.filter_cons_of_pos (decide_eq_true hf)
      rw [if_pos (show f.width = first.width ∧ f.height = first.height from hf), hstep, Option.bind_eq_bind,
        Option.bind_some, ih (fun i => acc i + f.pixel i), hcons]
      simp only [pixelSum_cons, Nat.add_assoc]
    · have hcons : sameSizeFrames first (f :: frames) = sameSizeFrames first frames :=
        List.filter_cons_of_neg (by rw [decide_eq_true_eq]; exact hf)
      rw [if_neg (show ¬ (f.width = first.width ∧ f.height = first.height) from hf), Option.bind_eq_bind,
        Option.bind_some, ih acc, hcons]

theorem sumFrames_spec {work : List ℕ} {first : Frame} (frames : List Frame)
    (h : first.pixelCount ≤ work.length) :
    sumFrames work first frames = some
      (tabulate first.pixelCount (fun i => pixelSum (sameSizeFrames first frames) i % 2 ^ 64) ++
        work.drop first.pixelCount) := by
  unfold sumFrames
  have hzero : List.replicate first.pixelCount 0 =
      tabulate first.pixelCount fun i => (fun _ => 0 : ℕ → ℕ) i % 2 ^ 64 := by
    rw [replicate_eq_tabulate]
    rfl
  rw [overwrite_eq_some (by rwa [List.length_replicate]), Option.bind_eq_bind, Option.bind_some,
    List.length_replicate, hzero, sumFrames_loop first frames (fun _ => 0)]
  simp only [Nat.zero_add]

def ImgState.withSum (s : ImgState) (since : ℤ) (buf : List ℤ) (work : List ℕ) : ImgState :=
  { s with
    imgFramesSinceLastSumUpdate := since
    imgSumArray64Buffer := buf
    imgSumArray64WorkBuffer := work }

section withSum

variable (s : ImgState) (since : ℤ) (buf : List ℤ) (work : List ℕ)

@[simp] theorem withSum_sumBuffer : (s.withSum since buf work).imgSumArray64Buffer = buf := rfl

@[simp] theorem withSum_currentFrame :
    (s.withSum since buf work).imgCurrentFrame = s.imgCurrentFrame := rfl

@[simp] theorem withSum_workBuffer : (s.withSum since buf work).imgSumArray64WorkBuffer = work := rfl

end withSum

/-- The state with another number of frames to sum, its frame buffer trimmed. -/
def ImgState.withFramesToSum (s : ImgState) (value : ℤ) : ImgState :=
  { s with
    imgFramesToSum := clampTo 100000 value
    imgFrameBuffer := trim (clampTo 100000 value).toNat s.imgFrameBuffer }

/-- The number of pixels of the sum of `frames`: that of the oldest one. -/
def summedSize (frames : List Frame) : ℕ := (frames.head?.map Frame.pixelCount).getD 0

/-- The sum of `frames` is stored at the beginning of the sum buffer. The buffer that is not larger than the
other one stays so, and then it does not shrink. -/
structure Stored (s t : ImgState) (frames : List Frame) : Prop where
  fits : summedSize frames ≤ t.imgSumArray64Buffer.length
  value : ∀ first ∈ frames.head?, t.imgSumArray64Buffer.take (summedSize frames) =
    tabulate (summedSize frames) fun i => toInt64 (pixelSum (sameSizeFrames first frames) i % 2 ^ 64)
  work_le : s.imgSumArray64WorkBuffer.length ≤ s.imgSumArray64Buffer.length →
    t.imgSumArray64WorkBuffer.length ≤ t.imgSumArray64Buffer.length
  sum_le : s.imgSumArray64Buffer.length ≤ s.imgSumArray64WorkBuffer.length →
    s.imgSumArray64Buffer.length ≤ t.imgSumArray64Buffer.length ∧
      t.imgSumArray64Buffer.length ≤ t.imgSumArray64WorkBuffer.length

theorem recomputeSum_stored {s : ImgState} {first : Frame} {others : List Frame}
    (hb : s.imgFrameBuffer = first :: others) (h : SumFits s first.pixelCount) :
    ∃ buf work, recomputeSum s first =
        some { s with imgSumArray64Buffer := buf, imgSumArray64WorkBuffer := work } ∧
      ∀ since, Stored s (s.withSum since buf work) (first :: others) := by
  set n := first.pixelCount with hn
  set sum := fun i => pixelSum (sameSizeFrames first (first :: others)) i % 2 ^ 64 with hsum
  set small := s.imgSumArray64WorkBuffer.length < n with hsmall
  set oldWork := if small then resize 0 s.imgSumArray64WorkBuffer n else s.imgSumArray64WorkBuffer
    with hwork
  set oldBuf := if small then resize 0 s.imgSumArray64Buffer n else s.imgSumArray64Buffer with hbuf
  have hwl : oldWork.length = max n s.imgSumArray64WorkBuffer.length := by
    rw [hwork]
    split <;> simp <;> omega
  have hbl : oldBuf.length = if small then n else s.imgSumArray64Buffer.length := by
    rw [hbuf]
    split <;> simp
  have hfit : n ≤ oldBuf.length := by
    rw [hbl]
    split
    · exact le_rfl
    · exact h.resolve_left (by assumption)
  have hread := readFirst_append (tabulate n sum) (oldWork.drop n)
  rw [length_tabulate] at hread
  refine ⟨(tabulate n fun i => toInt64 (sum i)) ++ oldBuf.drop n, tabulate n sum ++ oldWork.drop n, ?_,
    ?_⟩
  · unfold recomputeSum
    simp only [← hn, ← hsmall, ← hwork, ← hbuf]
    rw [hb, sumFrames_spec _ (by omega), Option.bind_eq_bind, Option.bind_some, ← hn, hread,
      Option.bind_some, overwrite_eq_some (by simpa using hfit), Option.bind_eq_bind, Option.bind_some,
      map_tabulate, length_tabulate]
  · have hsize : summedSize (first :: others) = n := rfl
    intro since
    constructor
    · simp [hsize]
    · intro first' hfirst
      obtain rfl : first = first' := Option.some.inj hfirst
      simp [hsize, hsum]
    · intro hle
      simp only [withSum_sumBuffer, withSum_workBuffer, List.length_append, length_tabulate,
        List.length_drop, hwl, hbl]
      split <;> omega
    · intro hle
      simp only [withSum_sumBuffer, withSum_workBuffer, List.length_append, length_tabulate,
        List.length_drop, hwl, hbl]
      split <;> omega

/-- A recomputed sum that does not fit runs past the end of the sum buffer. -/
theorem recomputeSum_none {s : ImgState} {first : Frame} (h : ¬ SumFits s first.pixelCount) :
    recomputeSum s first = none := by
  obtain ⟨hwork, hbuf⟩ := not_or.mp h
  unfold recomputeSum
  simp only [if_neg hwork]
  rw [sumFrames_spec s.imgFrameBuffer (by omega), Option.bind_eq_bind, Option.bind_some]
  have hread := readFirst_append
    (tabulate first.pixelCount fun i =>
      pixelSum (sameSizeFrames first s.imgFrameBuffer) i % 2 ^ 64)
    (s.imgSumArray64WorkBuffer.drop first.pixelCount)
  rw [length_tabulate] at hread
  rw [hread, Option.bind_some, overwrite_eq_none (by simpa using hbuf), Option.bind_eq_bind,
    Option.bind_none]

/-- The frames that are summed at the end of a frame, if the sum is due. -/
def dueFrames (s : ImgState) : List Frame := if ShouldUpdateSum s then s.imgFrameBuffer else []

theorem updateSum_due {s : ImgState} {first : Frame} {others : List Frame}
    (h : dueFrames s = first :: others) :
    s.imgFrameBuffer = first :: others ∧
      updateSum s = (recomputeSum { s with imgFramesSinceLastSumUpdate := 0 } first).map
        fun t => (t, first.pixelCount) := by
  unfold dueFrames at h
  split at h
  · rename_i hdue
    refine ⟨h, ?_⟩
    unfold updateSum
    rw [if_pos hdue]
    split
    · rename_i hnil
      rw [hnil] at h
      exact absurd h (by simp)
    · rename_i hcons
      rw [hcons] at h
      rw [(List.cons.inj h).1]
      cases recomputeSum { s with imgFramesSinceLastSumUpdate := 0 } first <;> rfl
  · exact absurd h (by simp)

theorem updateSum_stored {s : ImgState} (h : ∀ first ∈ (dueFrames s).head?, SumFits s first.pixelCount) :
    ∃ since buf work, updateSum s = some
        (s.withSum since buf work, summedSize (dueFrames s)) ∧
      Stored s (s.withSum since buf work) (dueFrames s) := by
  cases hdue : dueFrames s with
  | nil =>
    refine ⟨s.imgFramesSinceLastSumUpdate, s.imgSumArray64Buffer, s.imgSumArray64WorkBuffer, ?_, ?_⟩
    · unfold updateSum
      split
      · rename_i hshould
        rw [dueFrames, if_pos hshould] at hdue
        exact absurd hdue hshould.2
      · rfl
    · exact ⟨Nat.zero_le _, by simp, id, fun hle => ⟨le_rfl, hle⟩⟩
  | cons first others =>
    obtain ⟨hb, hupd⟩ := updateSum_due hdue
    rw [hdue] at h
    have hfit : SumFits { s with imgFramesSinceLastSumUpdate := 0 } first.pixelCount := h first rfl
    obtain ⟨buf, work, hrec, hst⟩ := recomputeSum_stored
      (s := { s with imgFramesSinceLastSumUpdate := 0 }) hb hfit
    have hst0 := hst 0
    refine ⟨0, buf, work, ?_, ⟨hst0.fits, hst0.value, hst0.work_le, hst0.sum_le⟩⟩
    rw [hupd, hrec]
    rfl

theorem updateSum_none {s : ImgState} {first : Frame} (hfirst : first ∈ (dueFrames s).head?)
    (h : ¬ SumFits s first.pixelCount) : updateSum s = none := by
  cases hdue : dueFrames s with
  | nil =>
    rw [hdue] at hfirst
    exact absurd hfirst (by simp)
  | cons first' others =>
    rw [hdue] at hfirst
    obtain rfl : first' = first := Option.some.inj hfirst
    have hnone : recomputeSum { s with imgFramesSinceLastSumUpdate := 0 } first' = none :=
      recomputeSum_none h
    rw [(updateSum_due hdue).2, hnone]
    rfl

/-! ## `processImgFrame` -/

/-- What a frame does before the sum of the last frames is updated. -/
structure Accumulated (s : ImgState) (f : Frame) (t : ImgState) : Prop where
  runningSum : ∃ sum, t.imgRunningSum = some sum ∧ sum.width = f.width ∧ sum.height = f.height ∧
    sum.pixels = List.zipWith (satAdd (2 ^ 64)) (baseSum s f).1.pixels f.pixels
  totalCounts : t.imgTotalCounts = wrapAdd (2 ^ 64) (baseSum s f).2.1 (frameTotal f)
  frameCount : t.imgAccumulatedFrameCount = wrapAdd (2 ^ 64) (baseSum s f).2.2 1
  frameBuffer : t.imgFrameBuffer = trim s.imgFramesToSum.toNat (s.imgFrameBuffer ++ [f])
  currentFrame : t.imgCurrentFrame = f
  framesToSum : t.imgFramesToSum = s.imgFramesToSum
  interval : t.imgSumUpdateIntervalFrames = s.imgSumUpdateIntervalFrames
  sinceLast : t.imgFramesSinceLastSumUpdate = s.imgFramesSinceLastSumUpdate + 1
  sumBuffer : t.imgSumArray64Buffer = s.imgSumArray64Buffer
  workBuffer : t.imgSumArray64WorkBuffer = s.imgSumArray64WorkBuffer
  dataBuffer : s.imgArrayData64Buffer.length ≤ t.imgArrayData64Buffer.length
  frameArray : s.imgFrameArrayDataBuffer.length ≤ t.imgFrameArrayDataBuffer.length

/-- Only the sum of the last frames can go wrong in the locked section. -/
theorem processImgFrameLocked_eq (s : ImgState) (f : Frame) (pool : Pool) :
    ∃ t m n, Accumulated s f t ∧ m ≤ t.imgArrayData64Buffer.length ∧
      n ≤ t.imgFrameArrayDataBuffer.length ∧
      processImgFrameLocked s f pool = (updateSum t).map fun r =>
        (r.1, ⟨m, n, r.2, runningSumArray r.1 pool m, sumNArray r.1 pool r.2⟩) := by
  obtain ⟨sum, hadd, hw, hh, hp⟩ := addFrame_spec s f
  set a : ImgState := { s with
    imgRunningSum := some sum
    imgCurrentFrame := f
    imgTotalCounts := wrapAdd (2 ^ 64) (baseSum s f).2.1 (frameTotal f)
    imgAccumulatedFrameCount := wrapAdd (2 ^ 64) (baseSum s f).2.2 1 } with ha
  have hsum : (pushFrame a f).imgRunningSum = some sum := rfl
  obtain ⟨data, hdata, hdata1, hdata2⟩ := copyRunningSum_spec hsum
  obtain ⟨cur, n, hcur, hcur1, hcur2⟩ :=
    copyCurrentFrame_spec { pushFrame a f with imgArrayData64Buffer := data }
  refine ⟨{ pushFrame a f with imgArrayData64Buffer := data, imgFrameArrayDataBuffer := cur },
    sum.pixelCount, n, ?_, hdata1, hcur1, ?_⟩
  · exact ⟨⟨sum, rfl, hw, hh, hp⟩, rfl, rfl, rfl, rfl, rfl, rfl, rfl, rfl, rfl, hdata2, hcur2⟩
  · unfold processImgFrameLocked
    simp only [hadd, hdata, hcur, Option.bind_eq_bind, Option.bind_some]
    cases updateSum { pushFrame a f with imgArrayData64Buffer := data, imgFrameArrayDataBuffer := cur }
      <;> rfl

/-- The frames that a frame's update sums, seen from the state it has reached by then. -/
theorem Accumulated.summedFrames_eq {s t : ImgState} {f : Frame} (h : Accumulated s f t) (pool : Pool) :
    summedFrames s (.frame f pool) = dueFrames t := by
  have hiff : ShouldUpdateSum t ↔
      s.imgFramesSinceLastSumUpdate + 1 ≥ s.imgSumUpdateIntervalFrames ∧ t.imgFrameBuffer ≠ [] := by
    rw [ShouldUpdateSum, h.sinceLast, h.interval]
  simp only [summedFrames, dueFrames]
  rw [← h.frameBuffer]
  by_cases hdue : s.imgFramesSinceLastSumUpdate + 1 ≥ s.imgSumUpdateIntervalFrames
  · rw [if_pos hdue]
    by_cases hempty : t.imgFrameBuffer = []
    · rw [hempty, ite_self]
    · rw [if_pos (hiff.mpr ⟨hdue, hempty⟩)]
  · rw [if_neg hdue, if_neg (fun h' => hdue (hiff.mp h').1)]

theorem publishWaveform_spec {buf : List ℤ} {size : ℕ} (h : size ≤ buf.length)
    (mk : List ℤ → Output) :
    ∃ out, publishWaveform buf size mk = some out ∧ ∀ o ∈ out, 0 < size ∧ o = mk (buf.take size) := by
  unfold publishWaveform
  by_cases hpos : size > 0
  · rw [if_pos hpos, readFirst, if_pos h]
    exact ⟨_, rfl, fun o ho => ⟨hpos, List.mem_singleton.mp ho⟩⟩
  · rw [if_neg hpos]
    exact ⟨[], rfl, by simp⟩

/-- The sizes left to be published are within the buffers. -/
structure Published.InBuffers (p : Published) (s : ImgState) : Prop where
  data : p.imageDataSize ≤ s.imgArrayData64Buffer.length
  frame : p.imageFrameSize ≤ s.imgFrameArrayDataBuffer.length
  sum : p.imageSumSize ≤ s.imgSumArray64Buffer.length

theorem processImgFrameCallbacks_spec {s : ImgState} {p : Published} (h : p.InBuffers s) :
    ∃ out, processImgFrameCallbacks s p = some out ∧ ∀ o ∈ out,
      (∃ value, o = .imgImageData value) ∨ (∃ value, o = .imgImageFrame value) ∨
      (0 < p.imageSumSize ∧
        o = .imgImageSumNFrames (s.imgSumArray64Buffer.take p.imageSumSize)) ∨
      (∃ a ∈ p.pImgSumArray, o = .ndArray a) ∨ (∃ a ∈ p.pImgSumNArray, o = .ndArray a) := by
  obtain ⟨data, hdata, hd⟩ := publishWaveform_spec h.data .imgImageData
  obtain ⟨frame, hframe, hf⟩ := publishWaveform_spec h.frame .imgImageFrame
  obtain ⟨sum, hsum, hs⟩ := publishWaveform_spec h.sum .imgImageSumNFrames
  refine ⟨data ++ frame ++ sum ++ (p.pImgSumArray.toList ++ p.pImgSumNArray.toList).map .ndArray,
    ?_, fun o ho => ?_⟩
  · simp only [processImgFrameCallbacks, hdata, hframe, hsum, Option.bind_eq_bind, Option.bind_some]
  · simp only [List.mem_append, List.mem_map, Option.mem_toList] at ho
    rcases ho with ((ho | ho) | ho) | ⟨a, ha | ha, rfl⟩
    · exact .inl ⟨_, (hd o ho).2⟩
    · exact .inr (.inl ⟨_, (hf o ho).2⟩)
    · exact .inr (.inr (.inl (hs o ho)))
    · exact .inr (.inr (.inr (.inl ⟨a, ha, rfl⟩)))
    · exact .inr (.inr (.inr (.inr ⟨a, ha, rfl⟩)))

theorem runningSumArray_addr {s : ImgState} {pool : Pool} {m : ℕ} {a : NDArray}
    (h : a ∈ runningSumArray s pool m) : a.addr = 2 := by
  unfold runningSumArray at h
  split at h
  · exact absurd h (by simp)
  · split at h
    · rw [← Option.mem_some.mp h]
    · exact absurd h (by simp)

theorem mem_sumNArray {s : ImgState} {pool : Pool} {n : ℕ} {a : NDArray}
    (h : a ∈ sumNArray s pool n) :
    0 < n ∧ a.width = s.imgCurrentFrame.width ∧ a.height = s.imgCurrentFrame.height ∧
      a.data = (s.imgSumArray64Buffer.take s.imgCurrentFrame.pixelCount).map
        fun x => (toUInt64 x : ℤ) := by
  unfold sumNArray at h
  simp only [] at h
  split at h
  · rename_i hpos
    rw [← Option.mem_some.mp h]
    exact ⟨hpos.1, rfl, rfl, rfl⟩
  · exact absurd h (by simp)

/-- The locked section of a frame whose sum fits. -/
theorem processImgFrameLocked_stored {s : ImgState} {f : Frame} {pool : Pool}
    (h : OpFits s (.frame f pool)) :
    ∃ t since buf work p, Accumulated s f t ∧
      processImgFrameLocked s f pool = some
        (t.withSum since buf work, p) ∧
      Stored s (t.withSum since buf work) (summedFrames s (.frame f pool)) ∧
      p.imageDataSize ≤ t.imgArrayData64Buffer.length ∧
      p.imageFrameSize ≤ t.imgFrameArrayDataBuffer.length ∧
      p.imageSumSize = summedSize (summedFrames s (.frame f pool)) ∧
      (∀ a ∈ p.pImgSumArray, a.addr = 2) ∧
      ∀ a ∈ p.pImgSumNArray, 0 < summedSize (summedFrames s (.frame f pool)) ∧ a.width = f.width ∧
        a.height = f.height ∧
        a.data = (buf.take f.pixelCount).map fun x => (toUInt64 x : ℤ) := by
  obtain ⟨t, m, n, hacc, hm, hn, hlocked⟩ := processImgFrameLocked_eq s f pool
  have hsummed := hacc.summedFrames_eq pool
  have hfits : ∀ first ∈ (dueFrames t).head?, SumFits t first.pixelCount := by
    intro first hfirst
    unfold SumFits
    rw [hacc.sumBuffer, hacc.workBuffer]
    exact h first (by rwa [hsummed])
  obtain ⟨since, buf, work, hupd, hst⟩ := updateSum_stored hfits
  rw [hupd, Option.map_some] at hlocked
  rw [hsummed]
  refine ⟨t, since, buf, work, _, hacc, hlocked, ⟨hst.fits, hst.value, ?_, ?_⟩, hm, hn, rfl,
    fun a ha => runningSumArray_addr ha, fun a ha => ?_⟩
  · rw [← hacc.sumBuffer, ← hacc.workBuffer]
    exact hst.work_le
  · rw [← hacc.sumBuffer, ← hacc.workBuffer]
    exact hst.sum_le
  · obtain ⟨hpos, hw, hh, hdata⟩ := mem_sumNArray ha
    simp only [withSum_currentFrame, withSum_sumBuffer, hacc.currentFrame] at hw hh hdata
    exact ⟨hpos, hw, hh, hdata⟩

theorem processImgFrameLocked_none {s : ImgState} {f : Frame} {pool : Pool}
    (h : ¬ OpFits s (.frame f pool)) : processImgFrameLocked s f pool = none := by
  obtain ⟨t, m, n, hacc, -, -, hlocked⟩ := processImgFrameLocked_eq s f pool
  obtain ⟨first, hfirst, hnot⟩ : ∃ first ∈ (summedFrames s (.frame f pool)).head?,
      ¬ SumFits s first.pixelCount := by
    simpa only [OpFits, not_forall, exists_prop] using h
  rw [hacc.summedFrames_eq pool] at hfirst
  have hnot' : ¬ SumFits t first.pixelCount := by
    unfold SumFits at hnot ⊢
    rwa [hacc.sumBuffer, hacc.workBuffer]
  rw [hlocked, updateSum_none hfirst hnot', Option.map_none]

/-- A frame whose sum fits, from its call to its return. -/
theorem processImgFrame_stored {s : ImgState} {f : Frame} {pool : Pool}
    (h : OpFits s (.frame f pool)) :
    ∃ t since buf work out, Accumulated s f t ∧
      processImgFrame s f pool = some
        (t.withSum since buf work, out) ∧
      Stored s (t.withSum since buf work) (summedFrames s (.frame f pool)) ∧
      ∀ o ∈ out, (∃ value, o = .imgImageData value) ∨ (∃ value, o = .imgImageFrame value) ∨
        (∃ a : NDArray, a.addr = 2 ∧ o = .ndArray a) ∨
        0 < summedSize (summedFrames s (.frame f pool)) ∧
          (o = .imgImageSumNFrames (buf.take (summedSize (summedFrames s (.frame f pool)))) ∨
            ∃ a : NDArray, o = .ndArray a ∧ a.width = f.width ∧ a.height = f.height ∧
              a.data = (buf.take f.pixelCount).map fun x => (toUInt64 x : ℤ)) := by
  obtain ⟨t, since, buf, work, p, hacc, hlocked, hst, hm, hn, hsize, harr, hsumN⟩ :=
    processImgFrameLocked_stored h
  obtain ⟨out, hout, ho⟩ := processImgFrameCallbacks_spec (p := p)
    (s := t.withSum since buf work) ⟨hm, hn, by rw [hsize]; exact hst.fits⟩
  refine ⟨t, since, buf, work, out, hacc, ?_, hst, fun o hmem => ?_⟩
  · simp only [processImgFrame, hlocked, hout, Option.bind_eq_bind, Option.bind_some]
  · rcases ho o hmem with h1 | h1 | ⟨hpos, h1⟩ | ⟨a, ha, h1⟩ | ⟨a, ha, h1⟩
    · exact .inl h1
    · exact .inr (.inl h1)
    · rw [hsize] at hpos h1
      exact .inr (.inr (.inr ⟨hpos, .inl h1⟩))
    · exact .inr (.inr (.inl ⟨a, harr a ha, h1⟩))
    · obtain ⟨hpos, hw, hh, hdata⟩ := hsumN a ha
      exact .inr (.inr (.inr ⟨hpos, .inr ⟨a, h1, hw, hh, hdata⟩⟩))

/-! ## The other operations -/

theorem clampTo_range (value : ℤ) {hi : ℤ} (h : 1 ≤ hi) : 1 ≤ clampTo hi value ∧ clampTo hi value ≤ hi := by
  simp only [clampTo]
  split_ifs <;> omega

/-- A write of `ImgFramesToSum` with frames left in the buffer. -/
theorem writeFramesToSumLocked_eq {s : ImgState} {value : ℤ} {first : Frame} {others : List Frame}
    (h : trim (clampTo 100000 value).toNat s.imgFrameBuffer = first :: others) :
    writeFramesToSumLocked s value =
      (recomputeSum
        { s with imgFramesToSum := clampTo 100000 value, imgFrameBuffer := first :: others }
        first).map fun t =>
          ({ t with imgFramesSinceLastSumUpdate := t.imgSumUpdateIntervalFrames },
            if first.pixelCount > 0 then some first.pixelCount else none) := by
  unfold writeFramesToSumLocked
  simp only [h]
  cases recomputeSum
    { s with imgFramesToSum := clampTo 100000 value, imgFrameBuffer := first :: others } first <;> rfl

/-- The locked section of a write of `ImgFramesToSum` whose sum fits. -/
theorem writeFramesToSumLocked_stored {s : ImgState} {value : ℤ} (h : OpFits s (.framesToSum value)) :
    ∃ since buf work n, writeFramesToSumLocked s value = some
        ((s.withFramesToSum value).withSum since buf work, n) ∧
      Stored s ((s.withFramesToSum value).withSum since buf work)
        (summedFrames s (.framesToSum value)) ∧
      ∀ k ∈ n, 0 < k ∧ k = summedSize (summedFrames s (.framesToSum value)) := by
  have hsummed : summedFrames s (.framesToSum value) =
    trim (clampTo 100000 value).toNat s.imgFrameBuffer := rfl
  rw [hsummed]
  cases hb : trim (clampTo 100000 value).toNat s.imgFrameBuffer with
  | nil =>
    refine ⟨s.imgFramesSinceLastSumUpdate, s.imgSumArray64Buffer, s.imgSumArray64WorkBuffer, none, ?_,
      ⟨Nat.zero_le _, by simp, id, fun hle => ⟨le_rfl, hle⟩⟩, by simp⟩
    unfold writeFramesToSumLocked ImgState.withFramesToSum
    simp only [hb]
    rfl
  | cons first others =>
    have hfit : SumFits
        { s with imgFramesToSum := clampTo 100000 value, imgFrameBuffer := first :: others }
        first.pixelCount := by
      refine h first ?_
      rw [hsummed, hb]
      rfl
    obtain ⟨buf, work, hrec, hst⟩ := recomputeSum_stored
      (s := { s with imgFramesToSum := clampTo 100000 value, imgFrameBuffer := first :: others })
      rfl hfit
    have hst0 := hst s.imgSumUpdateIntervalFrames
    refine ⟨s.imgSumUpdateIntervalFrames, buf, work,
      if first.pixelCount > 0 then some first.pixelCount else none, ?_,
      ⟨hst0.fits, hst0.value, hst0.work_le, hst0.sum_le⟩, fun k hk => ?_⟩
    · rw [writeFramesToSumLocked_eq hb, hrec, ImgState.withFramesToSum, hb]
      rfl
    · split at hk
      · rename_i hpos
        obtain rfl := Option.some.inj hk
        exact ⟨hpos, rfl⟩
      · exact absurd hk (by simp)

theorem writeFramesToSumLocked_none {s : ImgState} {value : ℤ}
    (h : ¬ OpFits s (.framesToSum value)) : writeFramesToSumLocked s value = none := by
  obtain ⟨first, hfirst, hnot⟩ : ∃ first ∈ (summedFrames s (.framesToSum value)).head?,
      ¬ SumFits s first.pixelCount := by
    simpa only [OpFits, not_forall, exists_prop] using h
  cases hb : trim (clampTo 100000 value).toNat s.imgFrameBuffer with
  | nil =>
    simp only [summedFrames, hb] at hfirst
    exact absurd hfirst (by simp)
  | cons first' others =>
    simp only [summedFrames, hb] at hfirst
    obtain rfl : first' = first := Option.some.inj hfirst
    have hnone : recomputeSum
        { s with imgFramesToSum := clampTo 100000 value, imgFrameBuffer := first' :: others } first' =
        none := recomputeSum_none hnot
    rw [writeFramesToSumLocked_eq hb, hnone]
    rfl

/-- A write of `ImgFramesToSum` whose sum fits, from its call to its return. -/
theorem writeFramesToSum_stored {s : ImgState} {value : ℤ} (h : OpFits s (.framesToSum value)) :
    ∃ since buf work out, writeFramesToSum s value = some
        ((s.withFramesToSum value).withSum since buf work, out) ∧
      Stored s ((s.withFramesToSum value).withSum since buf work)
        (summedFrames s (.framesToSum value)) ∧
      ∀ o ∈ out, 0 < summedSize (summedFrames s (.framesToSum value)) ∧
        o = .imgImageSumNFrames (buf.take (summedSize (summedFrames s (.framesToSum value)))) := by
  obtain ⟨since, buf, work, n, hlocked, hst, hn⟩ := writeFramesToSumLocked_stored h
  cases n with
  | none =>
    refine ⟨since, buf, work, [], ?_, hst, by simp⟩
    rw [writeFramesToSum, hlocked]
    rfl
  | some k =>
    obtain ⟨hpos, rfl⟩ := hn k rfl
    refine ⟨since, buf, work, [.imgImageSumNFrames (buf.take _)], ?_, hst, fun o ho =>
      ⟨hpos, List.mem_singleton.mp ho⟩⟩
    have hfits : summedSize (summedFrames s (.framesToSum value)) ≤ buf.length := hst.fits
    rw [writeFramesToSum, hlocked, Option.bind_eq_bind, Option.bind_some]
    simp only [writeFramesToSumCopy, withSum_sumBuffer, readFirst_of_le hfits, Option.map_some,
      Option.bind_eq_bind, Option.bind_some]

/-- A read grows the work buffer only, and returns the sum cut or padded to the requested length. -/
theorem readImageSumNFrames_spec (s : ImgState) (n : ℕ) :
    ∃ work value, readImageSumNFrames s n = some ({ s with imgSumArray64WorkBuffer := work }, value) ∧
      s.imgSumArray64WorkBuffer.length ≤ work.length ∧ value.length = n ∧
      value = tabulate n fun i => match s.imgFrameBuffer.head? with
        | none => 0
        | some first =>
          if i < first.pixelCount then
            toInt64 (pixelSum (sameSizeFrames first s.imgFrameBuffer) i % 2 ^ 64)
          else 0 := by
  obtain ⟨_, frames, _, _, _, _, _, _, _, _, _, oldWork⟩ := s
  unfold readImageSumNFrames
  cases frames with
  | nil =>
    refine ⟨oldWork, List.replicate n 0, rfl, le_rfl, by simp, ?_⟩
    exact replicate_eq_tabulate n 0
  | cons first others =>
    simp only [List.head?_cons]
    set work := if oldWork.length < first.pixelCount then
      resize 0 oldWork first.pixelCount else oldWork with hwork
    have hlen : first.pixelCount ≤ work.length ∧ oldWork.length ≤ work.length := by
      rw [hwork]
      split <;> simp <;> omega
    set sum := fun i => pixelSum (sameSizeFrames first (first :: others)) i % 2 ^ 64 with hsum
    have hread : readFirst (tabulate first.pixelCount sum ++ work.drop first.pixelCount)
        (min n first.pixelCount) = some (tabulate (min n first.pixelCount) sum) := by
      have hle : min n first.pixelCount ≤ first.pixelCount := Nat.min_le_right _ _
      unfold readFirst
      rw [if_pos (by simp), List.take_append_of_le_length (by simp)]
      simp [tabulate, ← List.map_take, List.take_range]
    rw [sumFrames_spec _ hlen.1, Option.bind_eq_bind, Option.bind_some, hread, Option.bind_some]
    refine ⟨_, _, rfl, by simp; omega, by simp, ?_⟩
    rw [map_tabulate]
    refine List.ext_getElem (by simp) fun i h1 h2 => ?_
    by_cases hi : i < min n first.pixelCount
    · have hi' : i < first.pixelCount := by omega
      rw [List.getElem_append_left (by simpa using hi)]
      simp [tabulate, hi', hsum]
    · have hi' : ¬ i < first.pixelCount := by
        rw [length_tabulate] at h2
        omega
      rw [List.getElem_append_right (by rw [length_tabulate]; omega)]
      simp [tabulate, hi']

theorem stepState_of_step {s s' : ImgState} {op : Op} {out : List Output}
    (h : step s op = some (s', out)) : stepState s op = some s' := by
  rw [stepState, h, Option.map_some]

theorem pushProcessedImgToPlugins_isSome (s : ImgState) (outputType : ℤ) (arrayCallbacks : Bool)
    (pool : Pool) : (pushProcessedImgToPlugins s outputType arrayCallbacks pool).isSome := by
  unfold pushProcessedImgToPlugins
  cases s.imgRunningSum with
  | none => rfl
  | some sum =>
    simp only []
    by_cases hcb : arrayCallbacks = true
    · rw [if_pos hcb]
      split
      · rename_i h
        rw [readFirst, if_pos h.2.1]
        rfl
      · rfl
    · rw [if_neg hcb]
      rfl

end ADTimePix3.Img
