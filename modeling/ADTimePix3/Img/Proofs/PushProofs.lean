import ADTimePix3.Img.Proofs.RunningSumProofs
import ADTimePix3.Img.Proofs.WindowProofs

/-!
# Pushes of the sums

A push at address 3 reads the sum buffer, and divides by the number of buffered frames. `Caching` says which
frames the sum in the buffer is of: those that were summed last. They are the buffered ones unless a frame has
come without its sum being due, or a reset has emptied the frame buffer.

Main result: `push_reports_cached`.
-/

namespace ADTimePix3.Img

open Buffers Counts Runs

/-! ## The sum buffer -/

/-- The sum buffer holds the sum of the frames of `cached` that have the size of the first. -/
def SumBufferOf (s : ImgState) (cached : List Frame) : Prop :=
  ∀ first ∈ cached.head?, first.pixelCount ≤ s.imgSumArray64Buffer.length ∧
    s.imgSumArray64Buffer.take first.pixelCount =
      tabulate first.pixelCount fun i => toInt64 (pixelSum (sameSizeFrames first cached) i % 2 ^ 64)

theorem Stored.sumBufferOf {s t : ImgState} {frames : List Frame} (h : Stored s t frames) :
    SumBufferOf t frames := by
  intro first hfirst
  have hsize : summedSize frames = first.pixelCount := by
    rw [summedSize, Option.mem_def.mp hfirst]
    rfl
  rw [← hsize]
  exact ⟨h.fits, h.value first hfirst⟩

theorem SumBufferOf.congr {s t : ImgState} {cached : List Frame} (h : SumBufferOf s cached)
    (heq : t.imgSumArray64Buffer = s.imgSumArray64Buffer) : SumBufferOf t cached := by
  unfold SumBufferOf
  rw [heq]
  exact h

/-- A frame whose sum is not due leaves the sum buffer alone. -/
theorem processImgFrame_sumBuffer {s s' : ImgState} {f : Frame} {pool : Pool} {out : List Output}
    (hnone : summedFrames s (.frame f pool) = []) (hstep : processImgFrame s f pool = some (s', out)) :
    s'.imgSumArray64Buffer = s.imgSumArray64Buffer := by
  obtain ⟨t, m, n, hacc, -, -, hlocked⟩ := processImgFrameLocked_eq s f pool
  have hupd : updateSum t = some (t, 0) := by
    unfold updateSum
    by_cases hdue : ShouldUpdateSum t
    · have hframes := (hacc.summedFrames_eq pool).symm.trans hnone
      rw [dueFrames, if_pos hdue] at hframes
      exact absurd hframes hdue.2
    · rw [if_neg hdue]
  rw [hupd, Option.map_some] at hlocked
  simp only [processImgFrame, hlocked, Option.bind_eq_bind, Option.bind_some] at hstep
  obtain ⟨out', -, hs'⟩ := Option.bind_eq_some_iff.mp hstep
  obtain ⟨rfl, -⟩ := Prod.mk.inj (Option.some.inj hs')
  exact hacc.sumBuffer

/-- An operation that goes through has found room for its sum. -/
theorem opFits_of_step {s s' : ImgState} {op : Op} {out : List Output} (hstep : step s op = some (s', out)) :
    OpFits s op := by
  by_contra hnot
  cases op with
  | frame f pool =>
    have hnone : processImgFrame s f pool = none := by
      rw [processImgFrame, processImgFrameLocked_none hnot]
      rfl
    exact Option.some_ne_none _ (hstep.symm.trans hnone)
  | framesToSum value =>
    have hnone : writeFramesToSum s value = none := by
      rw [writeFramesToSum, writeFramesToSumLocked_none hnot]
      rfl
    exact Option.some_ne_none _ (hstep.symm.trans hnone)
  | readSumN n => exact hnot trivial
  | _ => exact hnot fun first hfirst => by cases hfirst

/-! ## The invariant -/

/-- The window of the reference is followed, the running sum is that of `frames`, and the sum buffer holds the
sum of the cached frames. -/
structure Caching (c : Cached) (r : RefWindow) (frames : List Frame) : Prop where
  windowed : Windowed c.img r
  sum : RunningSumOf c.img frames
  buffer : SumBufferOf c.img c.cached

theorem caching_init : Caching .init .init [] := ⟨windowed_init, runningSumOf_init, fun first hfirst => by cases hfirst⟩

theorem RunningSumOf.step {s s' : ImgState} {frames : List Frame} (h : RunningSumOf s frames) {op : Op}
    {out : List Output} (hstep : Img.step s op = some (s', out)) : RunningSumOf s' (sinceRestart frames op) := by
  have hfits := opFits_of_step hstep
  cases op with
  | frame f pool =>
    obtain ⟨t, since, buf, work, out', hacc, hframe, -, -⟩ := processImgFrame_stored hfits
    obtain ⟨rfl, -⟩ := Prod.mk.inj (Option.some.inj (hframe.symm.trans hstep))
    exact (h.frame hacc).congr rfl rfl rfl
  | imageDataReset value =>
    obtain ⟨rfl, -⟩ := Prod.mk.inj (Option.some.inj hstep)
    simp only [sinceRestart, writeImageDataReset]
    by_cases hv : value = 1
    · rw [if_pos hv, if_pos hv]
      exact runningSumOf_reset s
    · rw [if_neg hv, if_neg hv]
      exact h
  | acquireStop =>
    obtain ⟨rfl, -⟩ := Prod.mk.inj (Option.some.inj hstep)
    exact runningSumOf_reset s
  | framesToSum value =>
    obtain ⟨since, buf, work, out', hwrite, -, -⟩ := writeFramesToSum_stored hfits
    obtain ⟨rfl, -⟩ := Prod.mk.inj (Option.some.inj (hwrite.symm.trans hstep))
    exact h.congr rfl rfl rfl
  | sumUpdateInterval value =>
    obtain ⟨rfl, -⟩ := Prod.mk.inj (Option.some.inj hstep)
    exact h.congr rfl rfl rfl
  | readSumN n =>
    obtain ⟨work, value, hread, -, -, -⟩ := readImageSumNFrames_spec s n
    rw [Img.step, hread] at hstep
    obtain ⟨rfl, -⟩ := Prod.mk.inj (Option.some.inj hstep)
    exact h.congr rfl rfl rfl
  | push outputType arrayCallbacks pool =>
    obtain ⟨out', -, hpush⟩ := Option.map_eq_some_iff.mp hstep
    obtain ⟨rfl, -⟩ := Prod.mk.inj hpush
    exact h

theorem SumBufferOf.step {s s' : ImgState} {cached : List Frame} (h : SumBufferOf s cached) {op : Op}
    {out : List Output} (hstep : Img.step s op = some (s', out)) : SumBufferOf s' (cachedFrames s cached op) := by
  have hfits := opFits_of_step hstep
  cases op with
  | frame f pool =>
    obtain ⟨t, since, buf, work, out', -, hframe, hst, -⟩ := processImgFrame_stored hfits
    obtain ⟨rfl, -⟩ := Prod.mk.inj (Option.some.inj (hframe.symm.trans hstep))
    show SumBufferOf _ (if summedFrames s (.frame f pool) = [] then cached else summedFrames s (.frame f pool))
    by_cases hnil : summedFrames s (.frame f pool) = []
    · rw [if_pos hnil]
      exact h.congr (processImgFrame_sumBuffer hnil hframe)
    · rw [if_neg hnil]
      exact hst.sumBufferOf
  | imageDataReset value =>
    obtain ⟨rfl, -⟩ := Prod.mk.inj (Option.some.inj hstep)
    refine h.congr ?_
    unfold writeImageDataReset
    split
    · rfl
    · rfl
  | acquireStop =>
    obtain ⟨rfl, -⟩ := Prod.mk.inj (Option.some.inj hstep)
    exact h.congr rfl
  | framesToSum value =>
    obtain ⟨since, buf, work, out', hwrite, hst, -⟩ := writeFramesToSum_stored hfits
    obtain ⟨rfl, -⟩ := Prod.mk.inj (Option.some.inj (hwrite.symm.trans hstep))
    show SumBufferOf _ (if summedFrames s (.framesToSum value) = [] then cached else
      summedFrames s (.framesToSum value))
    by_cases hnil : summedFrames s (.framesToSum value) = []
    · rw [if_pos hnil]
      refine h.congr ?_
      -- nothing is left in the buffer, and nothing is summed
      have hlocked : writeFramesToSum s value = some (s.withFramesToSum value, []) := by
        unfold writeFramesToSum writeFramesToSumLocked
        simp only
        split
        · rfl
        · rename_i hcons
          exact absurd (hnil.symm.trans hcons) (by simp)
      obtain ⟨hstate, -⟩ := Prod.mk.inj (Option.some.inj (hlocked.symm.trans hwrite))
      rw [← hstate]
      rfl
    · rw [if_neg hnil]
      exact hst.sumBufferOf
  | sumUpdateInterval value =>
    obtain ⟨rfl, -⟩ := Prod.mk.inj (Option.some.inj hstep)
    exact h.congr rfl
  | readSumN n =>
    obtain ⟨work, value, hread, -, -, -⟩ := readImageSumNFrames_spec s n
    rw [Img.step, hread] at hstep
    obtain ⟨rfl, -⟩ := Prod.mk.inj (Option.some.inj hstep)
    exact h.congr rfl
  | push outputType arrayCallbacks pool =>
    obtain ⟨out', -, hpush⟩ := Option.map_eq_some_iff.mp hstep
    obtain ⟨rfl, -⟩ := Prod.mk.inj hpush
    exact h

theorem Caching.step {c : Cached} {r : RefWindow} {frames : List Frame} (h : Caching c r frames) {op : Op}
    {c' : Cached} (hstep : c.step op = some c') : Caching c' (r.step op) (sinceRestart frames op) := by
  obtain ⟨s, hs, rfl⟩ := Option.map_eq_some_iff.mp hstep
  obtain ⟨⟨s', out⟩, hfull, rfl⟩ := Option.map_eq_some_iff.mp hs
  obtain ⟨s₁, out₁, hs₁, hw, -⟩ := h.windowed.step (opFits_of_step hfull)
  obtain ⟨rfl, rfl⟩ := Prod.mk.inj (Option.some.inj (hs₁.symm.trans hfull))
  exact ⟨hw, h.sum.step hfull, h.buffer.step hfull⟩

theorem Caching.run {ops : List Op} {c c' : Cached} {r : RefWindow} {frames : List Frame}
    (h : Caching c r frames) (hrun : Runs.run Cached.step c ops = some c') :
    Caching c' (ops.foldl RefWindow.step r) (ops.foldl sinceRestart frames) := by
  have hstep : ∀ (past : List Op) (c : Cached) (op : Op) (c' : Cached),
      Caching c (past.foldl RefWindow.step r) (past.foldl sinceRestart frames) → c.step op = some c' →
        Caching c' ((past ++ [op]).foldl RefWindow.step r) ((past ++ [op]).foldl sinceRestart frames) := by
    intro past c op c' hc hop
    rw [List.foldl_concat, List.foldl_concat]
    exact hc.step hop
  exact Runs.run_along hstep h hrun

/-! ## Pushes -/

theorem averagePixel_eq {n x : ℕ} (hn : 0 < n) (h : x / n < 2 ^ 31) : averagePixel n x = (x / n : ℕ) := by
  have hdiv : (x : ℤ).tdiv n = (x / n : ℕ) := rfl
  unfold averagePixel
  rw [if_pos hn, hdiv]
  unfold toInt32
  generalize x / n = q at h
  omega

/-- The value of a pushed sum. -/
theorem pushed_eq {outputType : ℤ} {n x : ℕ} (hn : 0 < n) (h : PushFits outputType n x) {y : ℤ}
    (hy : outputType ≠ 1 → x < 2 ^ 63 → y = x) :
    (if outputType = 1 then averagePixel n x else y) = pushed outputType n x := by
  unfold PushFits at h
  unfold pushed
  by_cases ht : outputType = 1
  · rw [if_pos ht] at h
    rw [if_pos ht, if_pos ht, averagePixel_eq hn h]
  · rw [if_neg ht] at h
    rw [if_neg ht, if_neg ht, hy ht h]

/-- The number by which a pushed running sum is divided. -/
def pushFrames (s : ImgState) : ℕ :=
  if s.imgAccumulatedFrameCount > 0 then s.imgAccumulatedFrameCount % 2 ^ 32 else 1

/-- What a push gives out. -/
theorem mem_push {s : ImgState} {outputType : ℤ} {arrayCallbacks : Bool} {pool : Pool} {out : List Output}
    (hpush : pushProcessedImgToPlugins s outputType arrayCallbacks pool = some out) {o : Output} (ho : o ∈ out) :
    ∃ sum, s.imgRunningSum = some sum ∧
      (o = .ndArray ⟨2, sum.width, sum.height, sum.pixels.map fun x : ℕ =>
          if outputType = 1 then averagePixel (pushFrames s) x else toInt64 x⟩ ∨
        0 < s.imgFrameBuffer.length ∧ o = .ndArray ⟨3, sum.width, sum.height,
          (s.imgSumArray64Buffer.take sum.pixelCount).map fun x =>
            if outputType = 1 then averagePixel (s.imgFrameBuffer.length % 2 ^ 32) x else x⟩) := by
  unfold pushProcessedImgToPlugins at hpush
  split at hpush
  · obtain rfl := Option.some.inj hpush
    exact absurd ho List.not_mem_nil
  · rename_i sum hsum
    refine ⟨sum, hsum, ?_⟩
    have harr2 : ∀ {o : Output}, o ∈ (if pool.sum = true then [Output.ndArray ⟨2, sum.width, sum.height,
        sum.pixels.map fun x : ℕ => if outputType = 1 then averagePixel (pushFrames s) x else toInt64 x⟩] else []) →
        o = .ndArray ⟨2, sum.width, sum.height, sum.pixels.map fun x : ℕ =>
          if outputType = 1 then averagePixel (pushFrames s) x else toInt64 x⟩ := by
      intro o ho
      split at ho
      · exact List.mem_singleton.mp ho
      · exact absurd ho List.not_mem_nil
    by_cases hon : arrayCallbacks = true
    · simp only [if_pos hon] at hpush
      split at hpush
      · rename_i hbuf
        rw [readFirst_of_le hbuf.2.1, Option.bind_eq_bind, Option.bind_some] at hpush
        obtain rfl := Option.some.inj hpush
        rcases List.mem_append.mp ho with ho | ho
        · exact .inl (harr2 ho)
        · exact .inr ⟨hbuf.1, List.mem_singleton.mp ho⟩
      · obtain rfl := Option.some.inj hpush
        exact .inl (harr2 ho)
    · rw [if_neg hon] at hpush
      obtain rfl := Option.some.inj hpush
      exact absurd ho List.not_mem_nil

/-- The array of the running sum. -/
theorem Caching.running {c : Cached} {r : RefWindow} {frames : List Frame} (h : Caching c r frames)
    {sum : RunningSum} (hsum : c.img.imgRunningSum = some sum) {outputType : ℤ}
    (hcount : outputType = 1 → frames.length < 2 ^ 32)
    (hfits : ∀ x ∈ sum.pixels, PushFits outputType frames.length x) :
    (sum.pixels.map fun x : ℕ => if outputType = 1 then averagePixel (pushFrames c.img) x else toInt64 x) =
      sum.pixels.map (pushed outputType frames.length) := by
  have hpos : 0 < frames.length := by
    refine List.length_pos_of_ne_nil fun hnil => ?_
    rw [h.sum.absent.mpr hnil] at hsum
    cases hsum
  refine List.map_congr_left fun x hx => ?_
  have hvalue := pushed_eq hpos (hfits x hx) (y := toInt64 x) fun _ hlt => if_pos hlt
  rw [← hvalue]
  by_cases ht : outputType = 1
  · have hframes : pushFrames c.img = frames.length := by
      have hlt := hcount ht
      unfold pushFrames
      rw [h.sum.frameCount, Nat.mod_eq_of_lt (by omega), if_pos hpos, Nat.mod_eq_of_lt hlt]
    rw [if_pos ht, if_pos ht, hframes]
  · rw [if_neg ht, if_neg ht]

/-- The array of the sum of the last frames. -/
theorem Caching.lastFrames {c : Cached} {r : RefWindow} {frames : List Frame} (h : Caching c r frames)
    {sum : RunningSum} (hpos : 0 < c.img.imgFrameBuffer.length) {outputType : ℤ}
    (hcached : c.cached = c.img.imgFrameBuffer)
    (hfits : ∀ i < sum.pixelCount,
      PushFits outputType c.img.imgFrameBuffer.length (pixelSum c.img.imgFrameBuffer i))
    (hsame : ∀ g ∈ c.img.imgFrameBuffer, g.width = sum.width ∧ g.height = sum.height) :
    ((c.img.imgSumArray64Buffer.take sum.pixelCount).map fun x =>
      if outputType = 1 then averagePixel (c.img.imgFrameBuffer.length % 2 ^ 32) x else x) =
      tabulate sum.pixelCount fun i =>
        pushed outputType c.img.imgFrameBuffer.length (pixelSum c.img.imgFrameBuffer i) := by
  have hlen := h.windowed.length_le_100000
  have hbuffer := h.buffer
  rw [hcached] at hbuffer
  cases hb : c.img.imgFrameBuffer with
  | nil =>
    rw [hb] at hpos
    exact absurd hpos (lt_irrefl 0)
  | cons first others =>
    rw [hb] at hlen hfits hsame hbuffer hpos
    have hfirst := hsame first List.mem_cons_self
    have hcount : first.pixelCount = sum.pixelCount := by
      rw [Frame.pixelCount, RunningSum.pixelCount, hfirst.1, hfirst.2]
    have hall : sameSizeFrames first (first :: others) = first :: others := by
      refine sameSizeFrames_eq_self fun g hg => ?_
      exact ⟨(hsame g hg).1.trans hfirst.1.symm, (hsame g hg).2.trans hfirst.2.symm⟩
    obtain ⟨-, htake⟩ := hbuffer first rfl
    rw [hcount, hall] at htake
    rw [htake, map_tabulate]
    refine tabulate_congr fun i hi => ?_
    rw [toInt64_pixelSum hlen, Nat.mod_eq_of_lt (by omega)]
    exact pushed_eq hpos (hfits i hi) fun _ _ => rfl

/-- In every reachable state a push reports the buffered frames when these were summed last, and the running
sum, as far as the values fit. -/
theorem push_reports_cached {ops : List Op} {c : Cached} (hrun : run Cached.step .init ops = some c)
    (outputType : ℤ) (arrayCallbacks : Bool) (pool : Pool) :
    ∃ out, step c.img (.push outputType arrayCallbacks pool) = some (c.img, out) ∧
      ∀ o ∈ out, CanReport c (ops.foldl sinceRestart []).length outputType o →
        ReportsBuffered c.img (ops.foldl sinceRestart []).length outputType o := by
  have hcaching := caching_init.run hrun
  obtain ⟨out, hout⟩ := Option.isSome_iff_exists.mp
    (pushProcessedImgToPlugins_isSome c.img outputType arrayCallbacks pool)
  refine ⟨out, by rw [Img.step, hout, Option.map_some], fun o ho hcan => ?_⟩
  obtain ⟨sum, hsum, rfl | ⟨hpos, rfl⟩⟩ := mem_push hout ho
  · intro sum' hsum'
    obtain rfl : sum = sum' := Option.some.inj (hsum.symm.trans hsum')
    refine ⟨fun h3 => absurd h3 (show (2 : ℕ) ≠ 3 by decide), fun _ => ?_⟩
    obtain ⟨hcount, hfits⟩ := (hcan sum hsum).2 rfl
    exact hcaching.running hsum hcount hfits
  · intro sum' hsum'
    obtain rfl : sum = sum' := Option.some.inj (hsum.symm.trans hsum')
    refine ⟨fun _ hsame => ?_, fun h2 => absurd h2 (show (3 : ℕ) ≠ 2 by decide)⟩
    obtain ⟨hcached, hfits⟩ := (hcan sum hsum).1 rfl
    exact hcaching.lastFrames hpos hcached hfits hsame

end ADTimePix3.Img
