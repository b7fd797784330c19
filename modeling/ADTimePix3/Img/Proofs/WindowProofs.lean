import ADTimePix3.Img.Proofs.AccumulationProofs

/-!
# The sum of the last frames

The frame buffer is not emptied when the dimensions change, the reference window is. `Windowed` says how they
compare: the buffer is the window, preceded by older frames of which the newest has other dimensions. So the
two are the same as soon as all frames of the buffer have the dimensions of the current one, and then the sum
that is published is that of the window.

Main result: `outputs_show_refWindow`.
-/

namespace ADTimePix3.Img

open Buffers Counts Runs

/-! ## Frames of one size -/

theorem Frame.SameSize.refl (f : Frame) : f.SameSize f := ⟨rfl, rfl⟩

theorem Frame.SameSize.symm {f g : Frame} (h : f.SameSize g) : g.SameSize f := ⟨h.1.symm, h.2.symm⟩

theorem Frame.SameSize.trans {f g h : Frame} (h1 : f.SameSize g) (h2 : g.SameSize h) : f.SameSize h :=
  ⟨h1.1.trans h2.1, h1.2.trans h2.2⟩

/-! ## Sums that fit 64 bits -/

theorem toInt64_pixelSum {frames : List Frame} (h : frames.length ≤ 100000) (i : ℕ) :
    toInt64 (pixelSum frames i % 2 ^ 64) = pixelSum frames i := by
  have hle := pixelSum_le frames i
  have hlt : pixelSum frames i < 2 ^ 63 := by
    calc pixelSum frames i ≤ frames.length * 2 ^ 32 := hle
      _ ≤ 100000 * 2 ^ 32 := Nat.mul_le_mul_right _ h
      _ < 2 ^ 63 := by decide
  rw [Nat.mod_eq_of_lt (by omega), toInt64, if_pos hlt]

theorem toUInt64_pixelSum {frames : List Frame} (h : frames.length ≤ 100000) (i : ℕ) :
    (toUInt64 (pixelSum frames i) : ℤ) = pixelSum frames i := by
  have hle := pixelSum_le frames i
  have hlt : pixelSum frames i < 2 ^ 64 := by
    calc pixelSum frames i ≤ frames.length * 2 ^ 32 := hle
      _ ≤ 100000 * 2 ^ 32 := Nat.mul_le_mul_right _ h
      _ < 2 ^ 64 := by decide
  unfold toUInt64
  omega

/-- A stored sum of frames of one size, as integers. -/
theorem Stored.take_eq {s t : ImgState} {frames : List Frame} {f : Frame} (h : Stored s t frames)
    (hpos : 0 < summedSize frames) (hlen : frames.length ≤ 100000) (hsame : ∀ g ∈ frames, g.SameSize f) :
    summedSize frames = f.pixelCount ∧
      t.imgSumArray64Buffer.take f.pixelCount = sumImage frames f.pixelCount := by
  cases frames with
  | nil => exact absurd hpos (by simp [summedSize])
  | cons first others =>
    have hfirst := hsame first (List.mem_cons_self ..)
    have hsize : summedSize (first :: others) = f.pixelCount := hfirst.pixelCount_eq
    have hall : sameSizeFrames first (first :: others) = first :: others :=
      sameSizeFrames_eq_self fun g hg => (hsame g hg).trans hfirst.symm
    have hvalue := h.value first rfl
    rw [hsize, hall] at hvalue
    refine ⟨hsize, hvalue.trans (tabulate_congr fun i _ => ?_)⟩
    exact toInt64_pixelSum hlen i

/-! ## The window and the buffer -/

/-- The frame buffer is the reference window, preceded by older frames of which the newest has other
dimensions than the current frame. -/
structure Windowed (s : ImgState) (r : RefWindow) : Prop where
  framesToSum : r.framesToSum = s.imgFramesToSum
  range : 1 ≤ s.imgFramesToSum ∧ s.imgFramesToSum ≤ 100000
  length_le : s.imgFrameBuffer.length ≤ s.imgFramesToSum.toNat
  previous : ∀ p ∈ r.previous, p = s.imgCurrentFrame
  untouched : r.previous = none → s.imgFrameBuffer = []
  sameSize : ∀ g ∈ r.frames, g.SameSize s.imgCurrentFrame
  window : ∃ old, s.imgFrameBuffer = old ++ r.frames ∧
    (∀ g ∈ old.getLast?, ¬ g.SameSize s.imgCurrentFrame) ∧ (r.frames = [] → old = [])

theorem windowed_init : Windowed .init .init where
  framesToSum := rfl
  range := by decide
  length_le := by decide
  previous := by simp [RefWindow.init]
  untouched _ := rfl
  sameSize := by simp [RefWindow.init]
  window := ⟨[], rfl, by simp, fun _ => rfl⟩

/-- When all buffered frames have the current dimensions, the buffer is the window. -/
theorem Windowed.buffer_eq {s : ImgState} {r : RefWindow} (h : Windowed s r)
    (hsame : ∀ g ∈ s.imgFrameBuffer, g.SameSize s.imgCurrentFrame) : s.imgFrameBuffer = r.frames := by
  obtain ⟨old, hbuf, hold, -⟩ := h.window
  rcases List.eq_nil_or_concat old with rfl | ⟨init, g, rfl⟩
  · exact hbuf
  · refine absurd (hsame g ?_) (hold g (by simp))
    rw [hbuf]
    simp

/-- The newest frame of the buffer has the current dimensions. -/
theorem Windowed.getLast_sameSize {s : ImgState} {r : RefWindow} (h : Windowed s r) {g : Frame}
    (hg : g ∈ s.imgFrameBuffer.getLast?) : g.SameSize s.imgCurrentFrame := by
  obtain ⟨old, hbuf, -, hnil⟩ := h.window
  by_cases hframes : r.frames = []
  · rw [hbuf, hnil hframes, hframes] at hg
    exact absurd hg (by simp)
  · rw [hbuf, List.getLast?_append_of_ne_nil _ hframes] at hg
    exact h.sameSize g (List.mem_of_getLast? hg)

theorem mem_getLast?_trim {n : ℕ} {l : List Frame} {g : Frame} (h : g ∈ (trim n l).getLast?) :
    g ∈ l.getLast? := by
  unfold trim List.rtake at h
  rw [List.getLast?_drop] at h
  split at h
  · exact absurd h (by simp)
  · exact h

theorem trim_append_singleton_ne_nil {n : ℕ} (hn : 0 < n) (l : List Frame) (f : Frame) :
    trim n (l ++ [f]) ≠ [] := by
  intro hnil
  have hlen := length_trim n (l ++ [f])
  rw [hnil, List.length_nil, List.length_append, List.length_singleton] at hlen
  omega

/-- A frame is put behind the frames `base` of its dimensions that the buffer ends with. -/
theorem Windowed.push {s t : ImgState} {r : RefWindow} (h : Windowed s r) {f : Frame}
    (ht : Accumulated s f t) {old base : List Frame} (hbuf : s.imgFrameBuffer = old ++ base)
    (hold : ∀ g ∈ old.getLast?, ¬ g.SameSize f) (hbase : ∀ g ∈ base, g.SameSize f) :
    Windowed t { r with frames := trim r.framesToSum.toNat (base ++ [f]), previous := some f } := by
  have hpos : 0 < s.imgFramesToSum.toNat := by
    have := h.range.1
    omega
  rw [h.framesToSum]
  constructor
  · exact ht.framesToSum.symm
  · rw [ht.framesToSum]
    exact h.range
  · rw [ht.framesToSum, ht.frameBuffer, length_trim]
    exact Nat.min_le_left _ _
  · intro p hp
    rw [ht.currentFrame]
    exact (Option.some.inj hp).symm
  · simp
  · intro g hg
    rw [ht.currentFrame]
    rcases List.mem_append.mp (mem_of_mem_trim hg) with hg | hg
    · exact hbase g hg
    · rw [List.mem_singleton.mp hg]
      exact .refl f
  · refine ⟨trim (s.imgFramesToSum.toNat - (base ++ [f]).length) old, ?_, ?_, ?_⟩
    · rw [ht.frameBuffer, hbuf, List.append_assoc, trim_append]
    · intro g hg
      rw [ht.currentFrame]
      exact hold g (mem_getLast?_trim hg)
    · intro hempty
      exact absurd hempty (trim_append_singleton_ne_nil hpos _ _)

theorem Windowed.frame {s t : ImgState} {r : RefWindow} (h : Windowed s r) {f : Frame} (pool : Pool)
    (ht : Accumulated s f t) : Windowed t (r.step (.frame f pool)) := by
  obtain ⟨old, hbuf, hold, -⟩ := h.window
  by_cases hsame : ∀ p ∈ r.previous, p.SameSize f
  · -- the frame has the dimensions of the current one, and goes on with its window
    simp only [RefWindow.step, if_pos hsame]
    cases hprev : r.previous with
    | none =>
      have hempty := h.untouched hprev
      rw [hbuf] at hempty
      obtain ⟨hold', hframes⟩ := List.append_eq_nil_iff.mp hempty
      refine h.push ht hbuf ?_ ?_
      · simp [hold']
      · simp [hframes]
    | some p =>
      have hp := h.previous p hprev
      have hcur : s.imgCurrentFrame.SameSize f := hp ▸ hsame p hprev
      refine h.push ht hbuf ?_ ?_
      · intro g hg hgf
        exact hold g hg (hgf.trans hcur.symm)
      · intro g hg
        exact (h.sameSize g hg).trans hcur
  · -- the frame starts a window of its own
    simp only [RefWindow.step, if_neg hsame]
    refine h.push ht (List.append_nil _).symm ?_ (by simp)
    intro g hg hgf
    have hlast := h.getLast_sameSize hg
    refine hsame fun p hp => ?_
    rw [h.previous p hp]
    exact hlast.symm.trans hgf

theorem Windowed.reset {s : ImgState} {r : RefWindow} (h : Windowed s r) :
    Windowed (resetImgAccumulation s) { r with frames := [] } where
  framesToSum := h.framesToSum
  range := h.range
  length_le := Nat.zero_le _
  previous := h.previous
  untouched _ := rfl
  sameSize := by simp
  window := ⟨[], rfl, by simp, fun _ => rfl⟩

theorem Windowed.writeFramesToSum {s : ImgState} {r : RefWindow} (h : Windowed s r) (value : ℤ) :
    Windowed (s.withFramesToSum value) (r.step (.framesToSum value)) := by
  obtain ⟨old, hbuf, hold, hnil⟩ := h.window
  have hrange := clampTo_range value (show (1 : ℤ) ≤ 100000 by decide)
  constructor
  · rfl
  · exact hrange
  · exact (length_trim _ _).trans_le (Nat.min_le_left _ _)
  · exact h.previous
  · intro hprev
    have hempty := h.untouched hprev
    simp only [ImgState.withFramesToSum, hempty, trim_nil]
  · intro g hg
    exact h.sameSize g (mem_of_mem_trim hg)
  · refine ⟨trim ((clampTo 100000 value).toNat - r.frames.length) old, ?_, ?_, ?_⟩
    · simp only [ImgState.withFramesToSum, RefWindow.step, hbuf, trim_append]
    · intro g hg
      exact hold g (mem_getLast?_trim hg)
    · intro hempty
      have hlen := length_trim (clampTo 100000 value).toNat r.frames
      simp only [RefWindow.step] at hempty
      rw [hempty, List.length_nil] at hlen
      have hframes : r.frames = [] := List.length_eq_zero_iff.mp (by omega)
      rw [hnil hframes, trim_nil]

/-- The invariant reads the frames and the settings only. -/
theorem Windowed.congr {s t : ImgState} {r : RefWindow} (h : Windowed s r)
    (hbuf : t.imgFrameBuffer = s.imgFrameBuffer) (hcur : t.imgCurrentFrame = s.imgCurrentFrame)
    (hn : t.imgFramesToSum = s.imgFramesToSum) : Windowed t r where
  framesToSum := by rw [hn]; exact h.framesToSum
  range := by rw [hn]; exact h.range
  length_le := by rw [hbuf, hn]; exact h.length_le
  previous := by rw [hcur]; exact h.previous
  untouched := by rw [hbuf]; exact h.untouched
  sameSize := by rw [hcur]; exact h.sameSize
  window := by rw [hbuf, hcur]; exact h.window

theorem Windowed.length_le_100000 {s : ImgState} {r : RefWindow} (h : Windowed s r) :
    s.imgFrameBuffer.length ≤ 100000 := by
  have h1 := h.length_le
  have h2 := h.range.2
  omega

/-! ## Outputs -/

/-- The operation goes through and keeps the window; if the frames it sums have the current dimensions, it
shows the sum over the window. -/
def ShowsWindow (s : ImgState) (r : RefWindow) (op : Op) : Prop :=
  ∃ s' out, Img.step s op = some (s', out) ∧ Windowed s' (r.step op) ∧
    (OneSize s op → OutputShowsSum (r.step op).frames (currentFrame s op) op out)

/-- A sum that a frame publishes is that of the whole buffer. -/
theorem Accumulated.summedFrames_of_pos {s t : ImgState} {f : Frame} (h : Accumulated s f t) {pool : Pool}
    (hpos : 0 < summedSize (summedFrames s (.frame f pool))) :
    summedFrames s (.frame f pool) = t.imgFrameBuffer := by
  rw [h.summedFrames_eq pool] at hpos ⊢
  unfold dueFrames at hpos ⊢
  by_cases hdue : ShouldUpdateSum t
  · rw [if_pos hdue]
  · rw [if_neg hdue] at hpos
    exact absurd hpos (by decide)

theorem Windowed.showsWindow_frame {s : ImgState} {r : RefWindow} (h : Windowed s r) {f : Frame}
    {pool : Pool} (hfit : OpFits s (.frame f pool)) : ShowsWindow s r (.frame f pool) := by
  obtain ⟨t, since, buf, work, out, hacc, hstep, hst, hout⟩ := processImgFrame_stored hfit
  have hw : Windowed (t.withSum since buf work) (r.step (.frame f pool)) :=
    (h.frame pool hacc).congr rfl rfl rfl
  refine ⟨_, out, hstep, hw, fun hone o ho => ?_⟩
  rcases hout o ho with ⟨v, rfl⟩ | ⟨v, rfl⟩ | ⟨a, ha, rfl⟩ | ⟨hpos, hsum⟩
  · trivial
  · trivial
  · intro h3
    rw [ha] at h3
    exact absurd h3 (by decide)
  · have hsummed := hacc.summedFrames_of_pos hpos
    have hcur : t.imgCurrentFrame = f := hacc.currentFrame
    have hsame : ∀ g ∈ t.imgFrameBuffer, g.SameSize f := by
      rw [← hsummed]
      exact hone
    have hframes : t.imgFrameBuffer = (r.step (.frame f pool)).frames :=
      hw.buffer_eq (by rwa [withSum_currentFrame, hcur])
    rw [hsummed] at hst hpos hsum
    have hlen : t.imgFrameBuffer.length ≤ 100000 := hw.length_le_100000
    obtain ⟨hsize, htake⟩ := hst.take_eq hpos hlen hsame
    rw [withSum_sumBuffer] at htake
    rw [hsize] at hsum
    rw [← hframes]
    rcases hsum with rfl | ⟨a, rfl, haw, hah, hdata⟩
    · exact htake
    · intro _
      refine ⟨haw, hah, ?_⟩
      rw [hdata, htake, sumImage, map_tabulate]
      exact tabulate_congr fun i _ => toUInt64_pixelSum hlen i

theorem Windowed.showsWindow_framesToSum {s : ImgState} {r : RefWindow} (h : Windowed s r) {value : ℤ}
    (hfit : OpFits s (.framesToSum value)) : ShowsWindow s r (.framesToSum value) := by
  obtain ⟨since, buf, work, out, hstep, hst, hout⟩ := writeFramesToSum_stored hfit
  have hw : Windowed ((s.withFramesToSum value).withSum since buf work) (r.step (.framesToSum value)) :=
    (h.writeFramesToSum value).congr rfl rfl rfl
  refine ⟨_, out, hstep, hw, fun hone o ho => ?_⟩
  obtain ⟨hpos, rfl⟩ := hout o ho
  have hframes : summedFrames s (.framesToSum value) = (r.step (.framesToSum value)).frames :=
    hw.buffer_eq hone
  obtain ⟨hsize, htake⟩ := hst.take_eq hpos hw.length_le_100000 hone
  rw [withSum_sumBuffer] at htake
  rw [hsize, ← hframes]
  exact htake

theorem Windowed.showsWindow_readSumN {s : ImgState} {r : RefWindow} (h : Windowed s r) (n : ℕ) :
    ShowsWindow s r (.readSumN n) := by
  obtain ⟨work, value, hread, -, -, hvalue⟩ := readImageSumNFrames_spec s n
  refine ⟨{ s with imgSumArray64WorkBuffer := work }, [.readValue value], ?_, h.congr rfl rfl rfl,
    fun hone => ?_⟩
  · rw [Img.step, hread, Option.map_some]
  have hframes : s.imgFrameBuffer = r.frames := h.buffer_eq hone
  show [Output.readValue value] = [.readValue (tabulate n fun i =>
    if i < s.imgCurrentFrame.pixelCount then (pixelSum r.frames i : ℤ) else 0)]
  rw [hvalue, ← hframes]
  congr 2
  refine tabulate_congr fun i _ => ?_
  cases hb : s.imgFrameBuffer with
  | nil => simp
  | cons first others =>
    have hfirst : first.SameSize s.imgCurrentFrame := by
      refine hone first ?_
      simp only [summedFrames, hb]
      exact List.mem_cons_self ..
    have hall : sameSizeFrames first (first :: others) = first :: others := by
      refine sameSizeFrames_eq_self fun g hg => ?_
      rw [← hb] at hg
      exact (hone g hg).trans hfirst.symm
    have hlen : (first :: others).length ≤ 100000 := hb ▸ h.length_le_100000
    simp only [List.head?_cons, hfirst.pixelCount_eq, hall, toInt64_pixelSum hlen]

/-- Step lemma: an operation whose sum fits shows the window. -/
theorem Windowed.step {s : ImgState} {r : RefWindow} (h : Windowed s r) {op : Op} (hfit : OpFits s op) :
    ShowsWindow s r op := by
  cases op with
  | frame f pool => exact h.showsWindow_frame hfit
  | imageDataReset value =>
    refine ⟨_, [], rfl, ?_, fun _ o ho => absurd ho List.not_mem_nil⟩
    simp only [RefWindow.step, writeImageDataReset]
    by_cases hv : value = 1
    · rw [if_pos hv, if_pos hv]
      exact h.reset
    · rw [if_neg hv, if_neg hv]
      exact h
  | acquireStop => exact ⟨_, [], rfl, h.reset, fun _ o ho => absurd ho List.not_mem_nil⟩
  | framesToSum value => exact h.showsWindow_framesToSum hfit
  | sumUpdateInterval value =>
    exact ⟨_, [], rfl, h.congr rfl rfl rfl, fun _ o ho => absurd ho List.not_mem_nil⟩
  | readSumN n => exact h.showsWindow_readSumN n
  | push outputType arrayCallbacks pool =>
    obtain ⟨out, hout⟩ := Option.isSome_iff_exists.mp
      (pushProcessedImgToPlugins_isSome s outputType arrayCallbacks pool)
    exact ⟨s, out, by rw [Img.step, hout, Option.map_some], h, fun _ => trivial⟩

/-- In every run in which the sums fit and sum frames of the current dimensions only, everything published
or returned for the sum of the last frames shows the sum over the reference window, in the dimensions of the
current frame. -/
theorem outputs_show_refWindow (ops : List Op) (op : Op)
    (h : Guarded stepState (fun s op => OpFits s op ∧ OneSize s op) .init (ops ++ [op])) :
    ∃ s s' out, run stepState .init ops = some s ∧ step s op = some (s', out) ∧
      OutputShowsSum ((ops ++ [op]).foldl RefWindow.step .init).frames (currentFrame s op) op out := by
  have hstep : ∀ s r op, Windowed s r → OpFits s op ∧ OneSize s op →
      ∃ s', stepState s op = some s' ∧ Windowed s' (r.step op) := by
    rintro s r op hs ⟨hfit, -⟩
    obtain ⟨s', out, hs', hw, -⟩ := hs.step hfit
    exact ⟨s', stepState_of_step hs', hw⟩
  obtain ⟨s, hrun, hs⟩ := run_simulates hstep windowed_init h.init
  obtain ⟨hfit, hone⟩ := h.last hrun
  obtain ⟨s', out, hs', -, hshow⟩ := hs.step hfit
  rw [List.foldl_append]
  exact ⟨s, s', out, hrun, hs', hshow hone⟩

/-- A restart at a frame of two pixels, two more of them, and a read of the sum of the last three. -/
def readHistory : List Op :=
  [.frame onePixel ⟨true, true⟩, .imageDataReset 1, .frame twoPixels ⟨true, true⟩, .frame twoPixels ⟨true, true⟩,
    .frame twoPixels ⟨true, true⟩]

theorem outputs_show_refWindow_read :
    ∃ s s' out, run stepState .init readHistory = some s ∧ step s (.readSumN 3) = some (s', out) ∧
      OutputShowsSum ((readHistory ++ [Op.readSumN 3]).foldl RefWindow.step .init).frames
        (currentFrame s (.readSumN 3)) (.readSumN 3) out := by
  refine outputs_show_refWindow readHistory (.readSumN 3) ?_
  decide +kernel

/-- A frame of one pixel and a frame of two: the waveform published for the second one is the sum of the
first alone, in its size. -/
theorem outputs_mix_sizes :
    ¬ ∀ ops op s s' out, run stepState .init ops = some s → step s op = some (s', out) →
      OutputShowsSum ((ops ++ [op]).foldl RefWindow.step .init).frames (currentFrame s op) op out := by
  intro hall
  have hshow := hall [.frame onePixel ⟨true, true⟩] (.frame twoPixels ⟨true, true⟩) _ _ _ rfl rfl
  have hfive : [5] = sumImage _ twoPixels.pixelCount := hshow (.imgImageSumNFrames [5]) (by decide)
  exact absurd hfive (by decide)

end ADTimePix3.Img
