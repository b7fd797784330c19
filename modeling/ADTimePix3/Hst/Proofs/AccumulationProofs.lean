import ADTimePix3.Hst.Run
import ADTimePix3.Hst.Proofs.RunningSumProofs

/-!
# The accumulated histograms

`Follows s r` says that the running sum, its counters and the frame buffer are those of the reference `r`. The
frame buffer is emptied together with the running sum, so it holds frames of one bin size, and the sum that is
published is that of the whole window.

Main result: `accumulation_follows_reference`.
-/

namespace ADTimePix3.Hst

open Buffers Counts Runs
open Img (toInt64 toUInt64 clampTo)

/-! ## Sums of bins -/

/-- The sums of the first `n` bins. -/
def sumBins (frames : List FrameHistogram) (n : ℕ) : List ℤ := tabulate n fun i => (binSum frames i : ℤ)

theorem FrameHistogram.bin_lt_two_pow (f : FrameHistogram) (i : ℕ) : f.bin i < 2 ^ 32 := by
  unfold bin
  rcases Nat.lt_or_ge i f.bin_values_32.length with hlt | hge
  · rw [List.getD_eq_getElem _ _ hlt]
    exact f.value_lt _ (List.getElem_mem hlt)
  · rw [List.getD_eq_default _ _ hge]
    decide

theorem binSum_cons (f : FrameHistogram) (frames : List FrameHistogram) (i : ℕ) :
    binSum (f :: frames) i = f.bin i + binSum frames i := by
  rw [binSum, List.map_cons, List.sum_cons, binSum]

theorem binSum_lt {frames : List FrameHistogram} (h : frames.length ≤ 100000) (i : ℕ) :
    binSum frames i < 2 ^ 63 := by
  have hle : binSum frames i ≤ frames.length * 2 ^ 32 := by
    clear h
    induction frames with
    | nil => exact Nat.zero_le _
    | cons f frames ih =>
      have hf := f.bin_lt_two_pow i
      rw [binSum_cons, List.length_cons]
      omega
  calc binSum frames i ≤ frames.length * 2 ^ 32 := hle
    _ ≤ 100000 * 2 ^ 32 := Nat.mul_le_mul_right _ h
    _ < 2 ^ 63 := by decide

theorem toInt64_of_lt {x : ℕ} (h : x < 2 ^ 63) : toInt64 x = x := if_pos h

/-- The loop over the frames, on sums that start as `g`. -/
theorem foldl_bins {n : ℕ} {frames : List FrameHistogram} (hsize : ∀ f ∈ frames, f.bin_size = n) {g : ℕ → ℕ}
    (hg : ∀ i < n, g i < 2 ^ 64) :
    frames.foldl (fun sums f => List.zipWith (wrapAdd (2 ^ 64)) sums f.bin_values_32) (tabulate n g) =
      tabulate n fun i => (g i + binSum frames i) % 2 ^ 64 := by
  induction frames generalizing g with
  | nil =>
    refine tabulate_congr fun i hi => ?_
    exact (Nat.mod_eq_of_lt (hg i hi)).symm
  | cons f frames ih =>
    have hstep : List.zipWith (wrapAdd (2 ^ 64)) (tabulate n g) f.bin_values_32 =
        tabulate n fun i => wrapAdd (2 ^ 64) (g i) (f.bin i) := by
      rw [f.values_eq, hsize f List.mem_cons_self, zipWith_tabulate]
    rw [List.foldl_cons, hstep, ih fun f' hf' => hsize f' (List.mem_cons_of_mem f hf')]
    · refine tabulate_congr fun i _ => ?_
      rw [binSum_cons, wrapAdd, Nat.mod_add_mod, Nat.add_assoc]
    · intro i _
      exact Nat.mod_lt _ (by decide)

/-! ## `processPrvHstFrame`, step by step -/

/-- The data are started over when there is a running sum of another size. -/
def Restarts (s : PrvHstState) (frame : FrameHistogram) : Prop :=
  ∃ sum ∈ s.prvHstRunningSum, sum.bin_size ≠ frame.bin_size

theorem initRunningSum_restart {s : PrvHstState} {frame : FrameHistogram} (h : Restarts s frame) :
    initRunningSum s frame =
      { s with
        prvHstRunningSum := some (.zero frame)
        prvHstFrameCount := 0
        prvHstTotalCounts := 0
        prvHstFrameBuffer := []
        prvHstFramesSinceLastSumUpdate := 0 } := by
  obtain ⟨sum, hsum, hsize⟩ := h
  unfold initRunningSum
  rw [hsum]
  exact if_pos hsize

theorem initRunningSum_continue {s : PrvHstState} {frame : FrameHistogram} (h : ¬ Restarts s frame) :
    initRunningSum s frame = { s with prvHstRunningSum := some (baseSum s frame) } := by
  have hsum := initRunningSum_sum s frame
  have hsame : ¬ (s.prvHstRunningSum.getD (.zero frame)).bin_size ≠ frame.bin_size := by
    intro hne
    cases hs : s.prvHstRunningSum with
    | none =>
      rw [hs] at hne
      exact hne (bin_size_zero frame)
    | some sum =>
      rw [hs] at hne
      exact h ⟨sum, hs, hne⟩
  unfold initRunningSum at hsum ⊢
  rw [if_neg hsame] at hsum ⊢
  rw [← hsum]

/-- The running sum with the frame. -/
def addedSum (s : PrvHstState) (frame : FrameHistogram) : SumHistogram :=
  { baseSum s frame with
    bin_values_64 := List.zipWith (satAdd (2 ^ 64)) (baseSum s frame).bin_values_64 frame.bin_values_32 }

theorem add_histogram_baseSum (s : PrvHstState) (frame : FrameHistogram) :
    (baseSum s frame).add_histogram frame = some (addedSum s frame) := if_pos (baseSum_bin_size s frame).symm

theorem addedSum_bin_size (s : PrvHstState) (frame : FrameHistogram) :
    (addedSum s frame).bin_size = frame.bin_size := by
  show (List.zipWith _ _ _).length = frame.bin_values_32.length
  rw [List.length_zipWith]
  exact Nat.min_eq_right (baseSum_bin_size s frame).ge

/-- The state of a frame before the sum of the last frames is updated. -/
def added (s : PrvHstState) (frame : FrameHistogram) : PrvHstState :=
  pushFrame (initRunningSum s frame) (addedSum s frame) frame

/-- A frame is never dropped: the sum it is added to has its bin size. -/
theorem addFrame_eq (s : PrvHstState) (frame : FrameHistogram) : addFrame s frame = some (added s frame) := by
  show ((initRunningSum s frame).prvHstRunningSum.bind fun sum => sum.add_histogram frame).map
    (fun sum => pushFrame (initRunningSum s frame) sum frame) = _
  rw [initRunningSum_sum, Option.bind_some, add_histogram_baseSum, Option.map_some]
  rfl

theorem processPrvHstFrame_eq (s : PrvHstState) (frame : FrameHistogram) :
    processPrvHstFrame true s frame = updateSum (added s frame) :=
  processPrvHstFrame_of_add (add_histogram_baseSum s frame)

/-- A state whose sum of the last frames is another one. -/
def PrvHstState.withSum (s : PrvHstState) (since : ℤ) (buf : List ℤ) (work : List ℕ) : PrvHstState :=
  { s with
    prvHstFramesSinceLastSumUpdate := since
    prvHstSumArray64Buffer := buf
    prvHstSumArray64WorkBuffer := work }

theorem updateSum_of_not_due {s : PrvHstState} (h : ¬ ShouldUpdateSum s) : updateSum s = s := by
  unfold updateSum
  cases hbuf : s.prvHstFrameBuffer with
  | nil => rfl
  | cons first rest =>
    have hnot : ¬ s.prvHstFramesSinceLastSumUpdate ≥ s.prvHstSumUpdateIntervalFrames := by
      intro hdue
      exact h ⟨hdue, by rw [hbuf]; exact List.cons_ne_nil _ _⟩
    exact if_neg hnot

/-- A sum that is due is that of the buffered frames, when they have one bin size. It is stored at the
beginning of the two sum buffers, which stay of one length. -/
theorem updateSum_of_due {s : PrvHstState} (h : ShouldUpdateSum s) {n : ℕ}
    (hsize : ∀ f ∈ s.prvHstFrameBuffer, f.bin_size = n) (hlen : s.prvHstFrameBuffer.length ≤ 100000)
    (hwork : s.prvHstSumArray64WorkBuffer.length = s.prvHstSumArray64Buffer.length) :
    ∃ buf work, updateSum s = s.withSum 0 (sumBins s.prvHstFrameBuffer n ++ buf) work ∧
      work.length = (sumBins s.prvHstFrameBuffer n ++ buf).length := by
  obtain ⟨hdue, hne⟩ := h
  unfold updateSum
  split
  · rename_i hnil
    exact absurd hnil hne
  · rename_i first rest hbuf
    obtain rfl : first.bin_size = n := hsize first (by rw [hbuf]; exact List.mem_cons_self)
    have hfilter : s.prvHstFrameBuffer.filter (fun f => f.bin_size = first.bin_size) = s.prvHstFrameBuffer :=
      List.filter_eq_self.mpr fun f hf => decide_eq_true (hsize f hf)
    have hsums : (s.prvHstFrameBuffer.filter (fun f => f.bin_size = first.bin_size)).foldl
        (fun sums f => List.zipWith (wrapAdd (2 ^ 64)) sums f.bin_values_32)
        (List.replicate first.bin_size 0) =
        tabulate first.bin_size fun i => binSum s.prvHstFrameBuffer i := by
      rw [hfilter, replicate_eq_tabulate, foldl_bins hsize fun i _ => by decide]
      refine tabulate_congr fun i _ => ?_
      have hlt := binSum_lt hlen i
      rw [Nat.zero_add, Nat.mod_eq_of_lt (by omega)]
    have hout : (tabulate first.bin_size fun i => binSum s.prvHstFrameBuffer i).map toInt64 =
        sumBins s.prvHstFrameBuffer first.bin_size := by
      rw [map_tabulate]
      exact tabulate_congr fun i _ => toInt64_of_lt (binSum_lt hlen i)
    rw [if_pos hdue]
    simp only [hsums, hout]
    refine ⟨_, _, rfl, ?_⟩
    rw [List.length_append, List.length_append, List.length_drop, List.length_drop, length_tabulate, sumBins,
      length_tabulate]
    by_cases hgrow : s.prvHstSumArray64WorkBuffer.length < first.bin_size
    · rw [if_pos hgrow, if_pos hgrow, length_resize, length_resize]
    · rw [if_neg hgrow, if_neg hgrow, hwork]

/-! ## The invariant -/

/-- The sum of all bins of a frame. -/
def FrameHistogram.counts (f : FrameHistogram) : ℕ := f.bin_values_32.sum

/-- The running sum and its counters are those of `frames`: every bin is the sum saturated at 64 bits, the
counters count modulo `2 ^ 64`. -/
structure AccumulationOf (s : PrvHstState) (frames : List FrameHistogram) : Prop where
  sum : SumOf s frames
  totalCounts : s.prvHstTotalCounts = (frames.map FrameHistogram.counts).sum % 2 ^ 64
  frameCount : s.prvHstFrameCount = frames.length % 2 ^ 64

structure Follows (h : PrvHst) (r : Reference) : Prop where
  accumulation : AccumulationOf h.state r.summed
  buffer : h.state.prvHstFrameBuffer = r.windowed
  window_mem : ∀ f ∈ r.window, f ∈ r.frames
  framesToSum : h.state.prvHstFramesToSum = r.framesToSum
  range : 1 ≤ r.framesToSum ∧ r.framesToSum ≤ 100000
  length_le : r.window.length ≤ r.framesToSum.toNat
  work_length : h.state.prvHstSumArray64WorkBuffer.length = h.state.prvHstSumArray64Buffer.length
  time_length : ∀ sum ∈ h.state.prvHstRunningSum, sum.bin_size ≤ h.prvHstTimeMsBuffer.length

theorem accumulationOf_nil {s : PrvHstState} (hsum : s.prvHstRunningSum = none) (htotal : s.prvHstTotalCounts = 0)
    (hcount : s.prvHstFrameCount = 0) : AccumulationOf s [] where
  sum := by
    refine ⟨iff_of_true hsum rfl, fun sum hmem => ?_⟩
    rw [hsum] at hmem
    cases hmem
  totalCounts := htotal
  frameCount := hcount

theorem follows_init : Follows .init .init where
  accumulation := accumulationOf_nil rfl rfl rfl
  buffer := rfl
  window_mem f hf := absurd hf List.not_mem_nil
  framesToSum := rfl
  range := by decide
  length_le := by decide
  work_length := rfl
  time_length sum hsum := by cases hsum

/-- Frames are left out of the reference exactly when the data are started over. -/
theorem SumOf.kept_cases {s : PrvHstState} {r : Reference} (h : SumOf s r.summed) (f : JsonFrame) :
    (¬ Restarts s f.histogram ∧ r.kept f = r) ∨
      (Restarts s f.histogram ∧ r.kept f = { r with frames := [], window := [] }) := by
  by_cases hrestart : Restarts s f.histogram
  · right
    refine ⟨hrestart, if_neg fun hsame => ?_⟩
    obtain ⟨sum, hsum, hsize⟩ := hrestart
    have hne : r.frames ≠ [] := by
      intro hnil
      have hnone := h.absent.mpr (by rw [Reference.summed, hnil, List.map_nil])
      rw [hnone] at hsum
      cases hsum
    obtain ⟨g, hg⟩ := List.exists_mem_of_ne_nil _ hne
    have hgsum := (h.present sum hsum).1 g.histogram (List.mem_map_of_mem hg)
    exact hsize (hgsum.symm.trans (hsame g hg))
  · left
    refine ⟨hrestart, if_pos fun g hg => ?_⟩
    cases hsum : s.prvHstRunningSum with
    | none =>
      have hnil := List.map_eq_nil_iff.mp (h.absent.mp hsum)
      rw [hnil] at hg
      exact absurd hg List.not_mem_nil
    | some sum =>
      have hsize : sum.bin_size = f.histogram.bin_size := by
        by_contra hne
        exact hrestart ⟨sum, hsum, hne⟩
      rw [(h.present sum hsum).1 g.histogram (List.mem_map_of_mem hg), hsize]

theorem Reference.keptFrames_eq (r : Reference) (f : JsonFrame) :
    keptFrames r.summed f.histogram = (r.kept f).summed := by
  unfold keptFrames Reference.kept Reference.summed
  by_cases hsame : r.SameBinSize f
  · rw [if_pos hsame, if_pos]
    intro g hg
    obtain ⟨g, hmem, rfl⟩ := List.mem_map.mp hg
    exact hsame g hmem
  · rw [if_neg hsame, if_neg]
    · rfl
    · intro hall
      exact hsame fun g hg => hall g.histogram (List.mem_map_of_mem hg)

theorem toUInt64_of_range {x : ℤ} (h : 1 ≤ x ∧ x ≤ 100000) : toUInt64 x = x.toNat := by
  unfold toUInt64
  omega

/-- The frames of the reference have the bin size of the newest. -/
theorem Reference.kept_bin_size (r : Reference) {f g : JsonFrame} (hg : g ∈ (r.kept f).frames ++ [f]) :
    g.histogram.bin_size = f.histogram.bin_size := by
  rcases List.mem_append.mp hg with hg | hg
  · unfold Reference.kept at hg
    by_cases hsame : r.SameBinSize f
    · rw [if_pos hsame] at hg
      exact hsame g hg
    · rw [if_neg hsame] at hg
      exact absurd hg List.not_mem_nil
  · rw [List.mem_singleton.mp hg]

theorem Reference.step_framesToSum (r : Reference) (f : JsonFrame) (arrayCallbacks : Bool) (pool : Pool) :
    (r.step (.frame f arrayCallbacks pool)).framesToSum = r.framesToSum := by
  show (r.kept f).framesToSum = _
  unfold Reference.kept
  split
  · rfl
  · rfl

/-- What a frame does to the counters and the frame buffer. -/
structure Added (s : PrvHstState) (r : Reference) (t : PrvHstState) : Prop where
  totalCounts : t.prvHstTotalCounts = (r.summed.map FrameHistogram.counts).sum % 2 ^ 64
  frameCount : t.prvHstFrameCount = r.frames.length % 2 ^ 64
  buffer : t.prvHstFrameBuffer = r.windowed
  framesToSum : t.prvHstFramesToSum = s.prvHstFramesToSum
  sumBuffer : t.prvHstSumArray64Buffer = s.prvHstSumArray64Buffer
  workBuffer : t.prvHstSumArray64WorkBuffer = s.prvHstSumArray64WorkBuffer

theorem trim_map (n : ℕ) (l : List JsonFrame) :
    trim n (l.map JsonFrame.histogram) = (trim n l).map JsonFrame.histogram := by
  unfold trim List.rtake
  rw [List.length_map, List.map_drop]

theorem Follows.added {h : PrvHst} {r : Reference} (hf : Follows h r) (f : JsonFrame) (arrayCallbacks : Bool)
    (pool : Pool) :
    Added h.state (r.step (.frame f arrayCallbacks pool)) (added (h.state.withHeader f.header) f.histogram) := by
  have hsum : SumOf (h.state.withHeader f.header) r.summed := hf.accumulation.sum.withHeader f.header
  have hN : toUInt64 h.state.prvHstFramesToSum = r.framesToSum.toNat := by
    rw [hf.framesToSum]
    exact toUInt64_of_range hf.range
  have htrim : ∀ l : List JsonFrame,
      trim (toUInt64 h.state.prvHstFramesToSum) (l.map JsonFrame.histogram ++ [f.histogram]) =
        (trim r.framesToSum.toNat (l ++ [f])).map JsonFrame.histogram := by
    intro l
    rw [hN, ← trim_map, List.map_append, List.map_singleton]
  have hcounts : ∀ l : List JsonFrame,
      wrapAdd (2 ^ 64) (((l.map JsonFrame.histogram).map FrameHistogram.counts).sum % 2 ^ 64)
        (f.histogram.counts % 2 ^ 64) =
      (((l ++ [f]).map JsonFrame.histogram).map FrameHistogram.counts).sum % 2 ^ 64 := by
    intro l
    rw [wrapAdd, ← Nat.add_mod, List.map_append, List.map_append, List.sum_append, List.map_singleton,
      List.map_singleton, List.sum_singleton]
  have hlength : ∀ l : List JsonFrame, (l.length % 2 ^ 64 + 1) % 2 ^ 64 = (l ++ [f]).length % 2 ^ 64 := by
    intro l
    rw [Nat.mod_add_mod, List.length_append, List.length_singleton]
  rcases hsum.kept_cases f with ⟨hcont, hkept⟩ | ⟨hrestart, hkept⟩
  · unfold Hst.added
    rw [initRunningSum_continue hcont]
    constructor
    · show wrapAdd (2 ^ 64) h.state.prvHstTotalCounts (f.histogram.counts % 2 ^ 64) =
        ((((r.kept f).frames ++ [f]).map JsonFrame.histogram).map FrameHistogram.counts).sum % 2 ^ 64
      rw [hkept, hf.accumulation.totalCounts]
      exact hcounts r.frames
    · show wrapAdd (2 ^ 64) h.state.prvHstFrameCount 1 = ((r.kept f).frames ++ [f]).length % 2 ^ 64
      rw [hkept, hf.accumulation.frameCount, Reference.summed, List.length_map]
      exact hlength r.frames
    · show trim (toUInt64 h.state.prvHstFramesToSum) (h.state.prvHstFrameBuffer ++ [f.histogram]) =
        (trim r.framesToSum.toNat ((r.kept f).window ++ [f])).map JsonFrame.histogram
      rw [hkept, hf.buffer]
      exact htrim r.window
    · rfl
    · rfl
    · rfl
  · unfold Hst.added
    rw [initRunningSum_restart hrestart]
    constructor
    · show wrapAdd (2 ^ 64) 0 (f.histogram.counts % 2 ^ 64) =
        ((((r.kept f).frames ++ [f]).map JsonFrame.histogram).map FrameHistogram.counts).sum % 2 ^ 64
      rw [hkept]
      exact hcounts []
    · show wrapAdd (2 ^ 64) 0 1 = ((r.kept f).frames ++ [f]).length % 2 ^ 64
      rw [hkept]
      exact hlength []
    · show trim (toUInt64 h.state.prvHstFramesToSum) ([] ++ [f.histogram]) =
        (trim r.framesToSum.toNat ((r.kept f).window ++ [f])).map JsonFrame.histogram
      rw [hkept]
      exact htrim []
    · rfl
    · rfl
    · rfl

/-! ## A frame -/

theorem mem_kept {r : Reference} {f g : JsonFrame} (hsub : ∀ g ∈ r.window, g ∈ r.frames)
    (hg : g ∈ (r.kept f).window) : g ∈ (r.kept f).frames := by
  unfold Reference.kept at hg ⊢
  by_cases hsame : r.SameBinSize f
  · rw [if_pos hsame] at hg ⊢
    exact hsub g hg
  · rw [if_neg hsame] at hg
    exact absurd hg List.not_mem_nil

/-- The window after a frame is part of the frames that are summed. -/
theorem Follows.window_step {h : PrvHst} {r : Reference} (hf : Follows h r) (f : JsonFrame)
    (arrayCallbacks : Bool) (pool : Pool) {g : JsonFrame}
    (hg : g ∈ (r.step (.frame f arrayCallbacks pool)).window) : g ∈ (r.kept f).frames ++ [f] := by
  rcases List.mem_append.mp (mem_of_mem_trim hg) with hg | hg
  · exact List.mem_append_left _ (mem_kept hf.window_mem hg)
  · exact List.mem_append_right _ hg

/-- The state after a frame: the sum of the last frames is that of the window, if it was due. -/
theorem Follows.processed {h : PrvHst} {r : Reference} (hf : Follows h r) (f : JsonFrame)
    (arrayCallbacks : Bool) (pool : Pool) :
    ∃ since buf work,
      processPrvHstFrame true (h.state.withHeader f.header) f.histogram =
        (Hst.added (h.state.withHeader f.header) f.histogram).withSum since buf work ∧
      work.length = buf.length ∧
      (ShouldUpdateSum (Hst.added (h.state.withHeader f.header) f.histogram) →
        ∃ rest, buf = sumBins (r.step (.frame f arrayCallbacks pool)).windowed f.histogram.bin_size ++ rest) ∧
      (¬ ShouldUpdateSum (Hst.added (h.state.withHeader f.header) f.histogram) →
        buf = h.state.prvHstSumArray64Buffer) := by
  have hadded := hf.added f arrayCallbacks pool
  have hlength : (r.step (.frame f arrayCallbacks pool)).windowed.length ≤ 100000 := by
    have hrange := hf.range
    have htrim := length_trim r.framesToSum.toNat ((r.kept f).window ++ [f])
    show (List.map _ (trim _ _)).length ≤ _
    rw [List.length_map]
    omega
  have hsize : ∀ g ∈ (r.step (.frame f arrayCallbacks pool)).windowed,
      g.bin_size = f.histogram.bin_size := by
    intro g hg
    obtain ⟨g, hmem, rfl⟩ := List.mem_map.mp hg
    exact r.kept_bin_size (hf.window_step f arrayCallbacks pool hmem)
  rw [processPrvHstFrame_eq]
  by_cases hdue : ShouldUpdateSum (Hst.added (h.state.withHeader f.header) f.histogram)
  · rw [← hadded.buffer] at hlength hsize
    obtain ⟨rest, work, heq, hwork⟩ := updateSum_of_due hdue hsize hlength (by
      rw [hadded.workBuffer, hadded.sumBuffer, hf.work_length])
    rw [hadded.buffer] at heq hwork
    exact ⟨_, _, _, heq, hwork, fun _ => ⟨rest, rfl⟩, fun hnot => absurd hdue hnot⟩
  · refine ⟨_, _, _, updateSum_of_not_due hdue, ?_, fun hnot => absurd hnot hdue, fun _ => hadded.sumBuffer⟩
    exact (congrArg List.length hadded.workBuffer).trans
      (hf.work_length.trans (congrArg List.length hadded.sumBuffer).symm)

/-- The time axis that the members give, with the time of a bin given by `tick`. -/
def PrvHstState.timeAxis (s : PrvHstState) (tick : ℤ → ℤ → ℕ → ℤ) (n : ℕ) : List ℤ :=
  tabulate n (tick s.prvHstFrameBinWidth s.prvHstFrameBinOffset)

/-- What a frame gives out: the sum of the last frames from its buffer and only when it was updated, the time
axis, and the running sum. -/
def FromState (s : PrvHstState) (sum : SumHistogram) (updated : Bool) : Output → Prop
  | .histogramSumNFrames value => updated = true ∧ ∃ first ∈ s.prvHstFrameBuffer.head?,
    value = s.prvHstSumArray64Buffer.take first.bin_size
  | .histogramTimeMs value => value = s.timeAxis timeTick sum.bin_size
  | .histogramData value => value = sum.bin_values_64.map toInt64
  | .ndArray 4 data => updated = true ∧ data = s.prvHstSumArray64Buffer.take sum.bin_size
  | .ndArray 5 data => data = sum.bin_values_64.map toInt64
  | .ndArray 7 data => data = s.timeAxis timeTick sum.bin_size
  | _ => True

theorem length_timeAxis (s : PrvHstState) (tick : ℤ → ℤ → ℕ → ℤ) (n : ℕ) : (s.timeAxis tick n).length = n :=
  length_tabulate _ _

/-- The time axis is written to a vector that is large enough. -/
theorem overwrite_timeAxis {v : List ℤ} {n : ℕ} (h : n ≤ v.length) (s : PrvHstState) (tick : ℤ → ℤ → ℕ → ℤ) :
    overwrite v (tabulate n (tick s.prvHstFrameBinWidth s.prvHstFrameBinOffset)) =
      some (s.timeAxis tick n ++ v.drop n) := by
  rw [overwrite_eq_some (by rwa [length_tabulate]), length_tabulate]
  rfl

theorem fillTimeMs_spec (h : PrvHst) (n : ℕ) :
    ∃ rest, fillTimeMs h n = some { h with prvHstTimeMsBuffer := h.state.timeAxis timeTick n ++ rest } := by
  unfold fillTimeMs
  by_cases hsmall : h.prvHstTimeMsBuffer.length < n + 1
  · have hroom : n ≤ (resize 0 h.prvHstTimeMsBuffer (n + 1)).length := by
      rw [length_resize]
      exact Nat.le_succ n
    simp only [if_pos hsmall, overwrite_timeAxis hroom, Option.map_some]
    exact ⟨_, rfl⟩
  · have hroom : n ≤ h.prvHstTimeMsBuffer.length := by omega
    simp only [if_neg hsmall, overwrite_timeAxis hroom, Option.map_some]
    exact ⟨_, rfl⟩

theorem readFirst_timeAxis (s : PrvHstState) (tick : ℤ → ℤ → ℕ → ℤ) (n : ℕ) (rest : List ℤ) :
    readFirst (s.timeAxis tick n ++ rest) n = some (s.timeAxis tick n) := by
  have h := readFirst_append (s.timeAxis tick n) rest
  rwa [length_timeAxis] at h

theorem frameWaveforms_spec {h : PrvHst} {sum : SumHistogram} {rest : List ℤ}
    (htime : h.prvHstTimeMsBuffer = h.state.timeAxis timeTick sum.bin_size ++ rest) (updated : Bool) :
    ∃ out, frameWaveforms h sum = some out ∧ ∀ o ∈ out, FromState h.state sum updated o := by
  unfold frameWaveforms
  rw [htime, readFirst_timeAxis]
  refine ⟨_, rfl, fun o ho => ?_⟩
  rcases List.mem_append.mp ho with ho | ho
  · rcases List.mem_pair.mp ho with rfl | rfl
    · rfl
    · rfl
  · obtain ⟨g, -, rfl⟩ := List.mem_map.mp ho
    trivial

theorem frameArray_spec {h : PrvHst} {sum : SumHistogram} {pool : Pool} {o : Output}
    (ho : o ∈ frameArray h sum pool) : ∃ data, o = .ndArray 6 data := by
  unfold frameArray at ho
  by_cases hpool : pool.frame = true
  · simp only [if_pos hpool] at ho
    obtain ⟨g, -, rfl⟩ := List.mem_map.mp ho
    exact ⟨_, rfl⟩
  · simp only [if_neg hpool] at ho
    exact absurd ho List.not_mem_nil

theorem timeArray_spec {h : PrvHst} {sum : SumHistogram} {rest : List ℤ}
    (htime : h.prvHstTimeMsBuffer = h.state.timeAxis timeTick sum.bin_size ++ rest) (pool : Pool)
    (updated : Bool) :
    ∃ out, timeArray h sum pool = some out ∧ ∀ o ∈ out, FromState h.state sum updated o := by
  unfold timeArray
  split
  · rw [htime, readFirst_timeAxis]
    refine ⟨_, rfl, fun o ho => ?_⟩
    rw [List.mem_singleton.mp ho]
    rfl
  · exact ⟨[], rfl, List.forall_mem_nil _⟩

theorem sumNArray_spec (h : PrvHst) (sum : SumHistogram) (pool : Pool) (updated : Bool) :
    ∃ out, sumNArray h sum pool updated = some out ∧ ∀ o ∈ out, FromState h.state sum updated o := by
  unfold sumNArray
  split
  · rename_i hupd
    rw [readFirst_of_le hupd.2.1]
    refine ⟨_, rfl, fun o ho => ?_⟩
    rw [List.mem_singleton.mp ho]
    exact ⟨hupd.1, rfl⟩
  · exact ⟨[], rfl, List.forall_mem_nil _⟩

theorem frameArrays_spec {h : PrvHst} {sum : SumHistogram} {rest : List ℤ}
    (htime : h.prvHstTimeMsBuffer = h.state.timeAxis timeTick sum.bin_size ++ rest) (arrayCallbacks : Bool)
    (pool : Pool) (updated : Bool) :
    ∃ out, frameArrays h sum arrayCallbacks pool updated = some out ∧
      ∀ o ∈ out, FromState h.state sum updated o := by
  unfold frameArrays
  by_cases hon : arrayCallbacks = true ∧ sum.bin_size > 0
  · rw [if_pos hon]
    obtain ⟨time7, htime7, hmem7⟩ := timeArray_spec htime pool updated
    obtain ⟨sum4, hsum4, hmem4⟩ := sumNArray_spec h sum pool updated
    simp only [htime7, hsum4, Option.bind_eq_bind, Option.bind_some]
    refine ⟨_, rfl, fun o ho => ?_⟩
    rcases List.mem_append.mp ho with ho | ho
    · rcases List.mem_append.mp ho with ho | ho
      · rcases List.mem_append.mp ho with ho | ho
        · split at ho
          · rw [List.mem_singleton.mp ho]
            rfl
          · exact absurd ho List.not_mem_nil
        · exact hmem7 o ho
      · obtain ⟨data, rfl⟩ := frameArray_spec ho
        trivial
    · exact hmem4 o ho
  · rw [if_neg hon]
    exact ⟨[], rfl, List.forall_mem_nil _⟩

/-- A frame is published without running past the end of a buffer, when the sum that was updated is in its
buffer. -/
theorem publishPrvHstFrame_spec {h : PrvHst} {sum : SumHistogram} (hsum : h.state.prvHstRunningSum = some sum)
    {updated : Bool} (hroom : updated = true → ∀ first ∈ h.state.prvHstFrameBuffer.head?,
      first.bin_size ≤ h.state.prvHstSumArray64Buffer.length) (arrayCallbacks : Bool) (pool : Pool) :
    ∃ h' out, publishPrvHstFrame h arrayCallbacks pool updated = some (h', out) ∧ h'.state = h.state ∧
      sum.bin_size ≤ h'.prvHstTimeMsBuffer.length ∧ ∀ o ∈ out, FromState h.state sum updated o := by
  obtain ⟨sumN, hsumN, hmemN⟩ : ∃ sumN, sumNWaveform h.state updated = some sumN ∧
      ∀ o ∈ sumN, FromState h.state sum updated o := by
    unfold sumNWaveform
    split
    · exact ⟨[], rfl, List.forall_mem_nil _⟩
    · rename_i first rest hbuf
      by_cases hupd : updated = true
      · have hfirst : first ∈ h.state.prvHstFrameBuffer.head? := by rw [hbuf]; rfl
        rw [if_pos hupd, readFirst_of_le (hroom hupd first hfirst)]
        refine ⟨_, rfl, fun o ho => ?_⟩
        rw [List.mem_singleton.mp ho]
        exact ⟨hupd, first, hfirst, rfl⟩
      · rw [if_neg hupd]
        exact ⟨[], rfl, List.forall_mem_nil _⟩
  obtain ⟨rest, hfill⟩ := fillTimeMs_spec h sum.bin_size
  obtain ⟨waveforms, hwaveforms, hmemW⟩ := frameWaveforms_spec
    (h := { h with prvHstTimeMsBuffer := h.state.timeAxis timeTick sum.bin_size ++ rest }) rfl updated
  obtain ⟨arrays, harrays, hmemA⟩ := frameArrays_spec
    (h := { h with prvHstTimeMsBuffer := h.state.timeAxis timeTick sum.bin_size ++ rest }) rfl
    arrayCallbacks pool updated
  refine ⟨{ h with prvHstTimeMsBuffer := h.state.timeAxis timeTick sum.bin_size ++ rest },
    sumN ++ waveforms ++ arrays, ?_, rfl, ?_, fun o ho => ?_⟩
  · unfold publishPrvHstFrame
    simp only [hsumN, hsum, hfill, hwaveforms, harrays, Option.bind_eq_bind, Option.bind_some]
  · rw [List.length_append, length_timeAxis]
    exact Nat.le_add_right _ _
  · rcases List.mem_append.mp ho with ho | ho
    · rcases List.mem_append.mp ho with ho | ho
      · exact hmemN o ho
      · exact hmemW o ho
    · exact hmemA o ho

/-- The state and the outputs of a frame. -/
structure FrameDone (h : PrvHst) (r : Reference) (f : JsonFrame) (h' : PrvHst) (out : List Output) : Prop where
  follows : Follows h' r
  runningSum : h'.state.prvHstRunningSum = some (addedSum (h.state.withHeader f.header) f.histogram)
  binWidth : h'.state.prvHstFrameBinWidth = f.header.bin_width
  binOffset : h'.state.prvHstFrameBinOffset = f.header.bin_offset
  bin_size : ∀ g ∈ r.windowed, g.bin_size = f.histogram.bin_size
  due : ShouldUpdateSum (Hst.added (h.state.withHeader f.header) f.histogram) →
    ∃ rest, h'.state.prvHstSumArray64Buffer = sumBins r.windowed f.histogram.bin_size ++ rest
  not_due : ¬ ShouldUpdateSum (Hst.added (h.state.withHeader f.header) f.histogram) →
    h'.state.prvHstSumArray64Buffer = h.state.prvHstSumArray64Buffer
  out : ∀ o ∈ out, FromState h'.state (addedSum (h.state.withHeader f.header) f.histogram)
    (ShouldUpdateSum (Hst.added (h.state.withHeader f.header) f.histogram)) o

theorem initRunningSum_header (s : PrvHstState) (frame : FrameHistogram) :
    (initRunningSum s frame).prvHstFrameBinWidth = s.prvHstFrameBinWidth ∧
      (initRunningSum s frame).prvHstFrameBinOffset = s.prvHstFrameBinOffset := by
  by_cases hrestart : Restarts s frame
  · rw [initRunningSum_restart hrestart]
    exact ⟨rfl, rfl⟩
  · rw [initRunningSum_continue hrestart]
    exact ⟨rfl, rfl⟩

/-- Step lemma for a frame. -/
theorem Follows.frame {h : PrvHst} {r : Reference} (hf : Follows h r) (f : JsonFrame) (arrayCallbacks : Bool)
    (pool : Pool) :
    ∃ h' out, step h (.frame f arrayCallbacks pool) = some (h', out) ∧
      FrameDone h (r.step (.frame f arrayCallbacks pool)) f h' out := by
  have hadded := hf.added f arrayCallbacks pool
  obtain ⟨since, buf, work, hstate, hwork, hdue, hnot⟩ := hf.processed f arrayCallbacks pool
  have hsize : ∀ g ∈ (r.step (.frame f arrayCallbacks pool)).windowed, g.bin_size = f.histogram.bin_size := by
    intro g hg
    obtain ⟨g, hmem, rfl⟩ := List.mem_map.mp hg
    exact r.kept_bin_size (hf.window_step f arrayCallbacks pool hmem)
  have hroom : ∀ t : PrvHstState, t = (Hst.added (h.state.withHeader f.header) f.histogram).withSum since buf work →
      decide (ShouldUpdateSum (Hst.added (h.state.withHeader f.header) f.histogram)) = true →
      ∀ first ∈ t.prvHstFrameBuffer.head?, first.bin_size ≤ t.prvHstSumArray64Buffer.length := by
    rintro t rfl hupd first hfirst
    obtain ⟨rest, hbuf⟩ := hdue (of_decide_eq_true hupd)
    have hmem : first ∈ (r.step (.frame f arrayCallbacks pool)).windowed := by
      rw [← hadded.buffer]
      exact List.mem_of_mem_head? hfirst
    show first.bin_size ≤ buf.length
    rw [hbuf, hsize first hmem, List.length_append, sumBins, length_tabulate]
    exact Nat.le_add_right _ _
  have hsome : (processPrvHstFrame true (h.state.withHeader f.header) f.histogram).prvHstRunningSum =
      some (addedSum (h.state.withHeader f.header) f.histogram) := by
    rw [hstate]
    rfl
  obtain ⟨h', out, hpublish, hstate', htime, hout⟩ := publishPrvHstFrame_spec
    (h := { h with state := processPrvHstFrame true (h.state.withHeader f.header) f.histogram }) hsome
    (hroom _ hstate) arrayCallbacks pool
  have hsum : SumOf h'.state (r.step (.frame f arrayCallbacks pool)).summed := by
    have hkept := (hf.accumulation.sum.withHeader f.header).frame f.histogram
    rw [r.keptFrames_eq] at hkept
    rw [hstate', Reference.summed]
    show SumOf _ (((r.kept f).frames ++ [f]).map JsonFrame.histogram)
    rw [List.map_append, List.map_singleton]
    exact hkept
  have hheader := initRunningSum_header (h.state.withHeader f.header) f.histogram
  have hstate'' := hstate'.trans hstate
  refine ⟨h', out, ?_, ?_⟩
  · show processAndPublish _ _ _ _ = _
    unfold processAndPublish
    rw [addFrame_eq]
    exact hpublish
  · constructor
    · constructor
      · refine ⟨hsum, ?_, ?_⟩
        · rw [hstate'']
          exact hadded.totalCounts
        · rw [hstate'', Reference.summed, List.length_map]
          exact hadded.frameCount
      · rw [hstate'']
        exact hadded.buffer
      · intro g hg
        exact hf.window_step f arrayCallbacks pool hg
      · rw [hstate'', r.step_framesToSum]
        exact hadded.framesToSum.trans hf.framesToSum
      · rw [r.step_framesToSum]
        exact hf.range
      · rw [r.step_framesToSum]
        exact (length_trim _ _).trans_le (Nat.min_le_left _ _)
      · rw [hstate'']
        exact hwork
      · intro sum hmem
        rw [hstate''] at hmem
        rw [← Option.some.inj hmem]
        exact htime
    · rw [hstate'']
      rfl
    · rw [hstate'']
      exact hheader.1
    · rw [hstate'']
      exact hheader.2
    · exact hsize
    · rw [hstate'']
      exact hdue
    · rw [hstate'']
      exact hnot
    · rw [hstate']
      exact hout

/-! ## The other operations -/

theorem Follows.congr {h h' : PrvHst} {r : Reference} (hf : Follows h r) (hstate : h'.state = h.state)
    (htime : ∀ sum ∈ h'.state.prvHstRunningSum, sum.bin_size ≤ h'.prvHstTimeMsBuffer.length) : Follows h' r where
  accumulation := by rw [hstate]; exact hf.accumulation
  buffer := by rw [hstate]; exact hf.buffer
  window_mem := hf.window_mem
  framesToSum := by rw [hstate]; exact hf.framesToSum
  range := hf.range
  length_le := hf.length_le
  work_length := by rw [hstate]; exact hf.work_length
  time_length := htime

theorem Follows.header {h : PrvHst} {r : Reference} (hf : Follows h r) (header : HistHeader) :
    Follows { h with state := h.state.withHeader header } (r.step (.header header)) where
  accumulation := ⟨hf.accumulation.sum.withHeader header, hf.accumulation.totalCounts, hf.accumulation.frameCount⟩
  buffer := hf.buffer
  window_mem := hf.window_mem
  framesToSum := hf.framesToSum
  range := hf.range
  length_le := hf.length_le
  work_length := hf.work_length
  time_length := hf.time_length

theorem Follows.dataReset {h : PrvHst} {r : Reference} (hf : Follows h r) (value : ℤ) :
    Follows (writeDataReset h value).1 (r.step (.dataReset value)) := by
  unfold writeDataReset
  simp only [Reference.step]
  by_cases hv : value = 1
  · rw [if_pos hv, if_pos hv]
    constructor
    · exact accumulationOf_nil rfl rfl rfl
    · rfl
    · intro f hmem
      exact absurd hmem List.not_mem_nil
    · exact hf.framesToSum
    · exact hf.range
    · exact Nat.zero_le _
    · rfl
    · intro sum hsum
      cases hsum
  · rw [if_neg hv, if_neg hv]
    exact hf

theorem clampTo_bounds (value : ℤ) : 1 ≤ clampTo 100000 value ∧ clampTo 100000 value ≤ 100000 := by
  unfold clampTo
  dsimp only
  split_ifs <;> omega

theorem Follows.writeFramesToSum {h : PrvHst} {r : Reference} (hf : Follows h r) (value : ℤ) :
    Follows { h with state := writeFramesToSum h.state value } (r.step (.framesToSum value)) where
  accumulation := ⟨⟨hf.accumulation.sum.absent, hf.accumulation.sum.present⟩, hf.accumulation.totalCounts,
    hf.accumulation.frameCount⟩
  buffer := by
    show trim (toUInt64 (clampTo 100000 value)) h.state.prvHstFrameBuffer = _
    rw [toUInt64_of_range (clampTo_bounds value), hf.buffer]
    exact trim_map _ _
  window_mem g hg := hf.window_mem g (mem_of_mem_trim hg)
  framesToSum := rfl
  range := clampTo_bounds value
  length_le := (length_trim _ _).trans_le (Nat.min_le_left _ _)
  work_length := hf.work_length
  time_length := hf.time_length

theorem Follows.writeSumUpdateInterval {h : PrvHst} {r : Reference} (hf : Follows h r) (value : ℤ) :
    Follows { h with state := writeSumUpdateInterval h.state value } r where
  accumulation := ⟨⟨hf.accumulation.sum.absent, hf.accumulation.sum.present⟩, hf.accumulation.totalCounts,
    hf.accumulation.frameCount⟩
  buffer := hf.buffer
  window_mem := hf.window_mem
  framesToSum := hf.framesToSum
  range := hf.range
  length_le := hf.length_le
  work_length := hf.work_length
  time_length := hf.time_length

/-- The number by which a pushed sum of the last frames is divided. -/
def nForSumN (s : PrvHstState) : ℕ :=
  if s.prvHstFrameBuffer.length % 2 ^ 32 > 0 then s.prvHstFrameBuffer.length % 2 ^ 32 else 1

/-- The number by which a pushed running sum is divided. -/
def nFrames (s : PrvHstState) : ℕ := if s.prvHstFrameCount > 0 then s.prvHstFrameCount else 1

/-- What a push gives out. -/
def Pushed (s : PrvHstState) (sum : SumHistogram) (outputType : ℤ) : Output → Prop
  | .ndArray 4 data => s.prvHstFrameBuffer ≠ [] ∧
    data = (s.prvHstSumArray64Buffer.take sum.bin_size).map (pushedSumN outputType (nForSumN s))
  | .ndArray 5 data => data = sum.bin_values_64.map (pushedSum outputType (nFrames s))
  | .ndArray 6 _ => True
  | .ndArray 7 data => data = s.timeAxis pushTimeTick sum.bin_size
  | _ => False

theorem pushedTimeArray_spec {h : PrvHst} {sum : SumHistogram} {rest : List ℤ}
    (htime : h.prvHstTimeMsBuffer = h.state.timeAxis pushTimeTick sum.bin_size ++ rest) (pool : Pool)
    (outputType : ℤ) :
    ∃ out, pushedTimeArray h sum pool = some out ∧ ∀ o ∈ out, Pushed h.state sum outputType o := by
  unfold pushedTimeArray
  split
  · rw [htime, readFirst_timeAxis]
    refine ⟨_, rfl, fun o ho => ?_⟩
    rw [List.mem_singleton.mp ho]
    rfl
  · exact ⟨[], rfl, List.forall_mem_nil _⟩

theorem pushedSumNArray_spec (h : PrvHst) (sum : SumHistogram) (pool : Pool) (outputType : ℤ) :
    ∃ out, pushedSumNArray h sum pool outputType = some out ∧ ∀ o ∈ out, Pushed h.state sum outputType o := by
  unfold pushedSumNArray
  dsimp only
  split
  · rename_i hbuf
    rw [readFirst_of_le hbuf.2.1]
    refine ⟨_, rfl, fun o ho => ?_⟩
    rw [List.mem_singleton.mp ho]
    exact ⟨hbuf.1, rfl⟩
  · exact ⟨[], rfl, List.forall_mem_nil _⟩

/-- The state with the time axis of a push. -/
def PrvHst.refreshed (h : PrvHst) (n : ℕ) : PrvHst :=
  { h with prvHstTimeMsBuffer := h.state.timeAxis pushTimeTick n ++ h.prvHstTimeMsBuffer.drop n }

theorem refreshTimeMs_eq {h : PrvHst} {n : ℕ} (hpos : 0 < n) (hroom : n ≤ h.prvHstTimeMsBuffer.length) :
    refreshTimeMs h n = some (h.refreshed n) := by
  unfold refreshTimeMs
  rw [if_pos ⟨hpos, hroom⟩, overwrite_timeAxis hroom, Option.map_some]
  rfl

/-- A push leaves the state alone, but for the time axis, and does not run past the end of a buffer. -/
theorem pushProcessedHstToPlugins_spec {h : PrvHst}
    (htime : ∀ sum ∈ h.state.prvHstRunningSum, sum.bin_size ≤ h.prvHstTimeMsBuffer.length) (outputType : ℤ)
    (arrayCallbacks : Bool) (pool : Pool) :
    ∃ h' out, pushProcessedHstToPlugins h outputType arrayCallbacks pool = some (h', out) ∧
      h'.state = h.state ∧ (∀ sum ∈ h.state.prvHstRunningSum, sum.bin_size ≤ h'.prvHstTimeMsBuffer.length) ∧
      ∀ o ∈ out, ∃ sum ∈ h.state.prvHstRunningSum, Pushed h.state sum outputType o := by
  unfold pushProcessedHstToPlugins
  split
  · rename_i hsum
    refine ⟨h, [], rfl, rfl, fun sum hmem => ?_, List.forall_mem_nil _⟩
    rw [hsum] at hmem
    cases hmem
  · rename_i sum hsum
    have hroom := htime sum hsum
    by_cases hon : arrayCallbacks = true
    · by_cases hpos : sum.bin_size > 0
      · obtain ⟨time7, htime7, hmem7⟩ :=
          @pushedTimeArray_spec (h.refreshed sum.bin_size) sum _ rfl pool outputType
        obtain ⟨sum4, hsum4, hmem4⟩ :=
          pushedSumNArray_spec (h.refreshed sum.bin_size) sum pool outputType
        simp only [if_pos hon, refreshTimeMs_eq hpos hroom, if_pos hpos, htime7, hsum4, Option.bind_eq_bind,
          Option.bind_some]
        refine ⟨_, _, rfl, rfl, fun sum' hsum' => ?_, fun o ho => ⟨sum, hsum, ?_⟩⟩
        · obtain rfl : sum = sum' := Option.some.inj (hsum.symm.trans hsum')
          show _ ≤ (h.state.timeAxis _ _ ++ _).length
          rw [List.length_append, length_timeAxis]
          exact Nat.le_add_right _ _
        · rcases List.mem_append.mp ho with ho | ho
          · rcases List.mem_append.mp ho with ho | ho
            · rcases List.mem_append.mp ho with ho | ho
              · split at ho
                · rw [List.mem_singleton.mp ho]
                  rfl
                · exact absurd ho List.not_mem_nil
              · exact hmem7 o ho
            · obtain ⟨data, rfl⟩ := frameArray_spec ho
              trivial
          · exact hmem4 o ho
      · have hrefresh : refreshTimeMs h sum.bin_size = some h := if_neg fun hboth => hpos hboth.1
        simp only [if_pos hon, hrefresh, if_neg hpos, Option.bind_eq_bind, Option.bind_some]
        exact ⟨h, [], rfl, rfl, htime, List.forall_mem_nil _⟩
    · simp only [if_neg hon]
      exact ⟨h, [], rfl, rfl, htime, List.forall_mem_nil _⟩

/-! ## Runs -/

/-- Step lemma: every operation goes through and keeps the invariant. -/
theorem Follows.step {h : PrvHst} {r : Reference} (hf : Follows h r) (op : Op) :
    ∃ h' out, Hst.step h op = some (h', out) ∧ Follows h' (r.step op) := by
  cases op with
  | header header => exact ⟨_, [], rfl, hf.header header⟩
  | frame f arrayCallbacks pool =>
    obtain ⟨h', out, hstep, hdone⟩ := hf.frame f arrayCallbacks pool
    exact ⟨h', out, hstep, hdone.follows⟩
  | dataReset value => exact ⟨_, _, rfl, hf.dataReset value⟩
  | acquireStart => exact ⟨h, [], rfl, hf⟩
  | acquireStop => exact ⟨h, [], rfl, hf⟩
  | framesToSum value => exact ⟨_, [], rfl, hf.writeFramesToSum value⟩
  | sumUpdateInterval value => exact ⟨_, [], rfl, hf.writeSumUpdateInterval value⟩
  | push outputType arrayCallbacks pool =>
    obtain ⟨h', out, hpush, hstate, htime, -⟩ :=
      pushProcessedHstToPlugins_spec hf.time_length outputType arrayCallbacks pool
    refine ⟨h', out, hpush, hf.congr hstate ?_⟩
    rw [hstate]
    exact htime

theorem stepState_of_step {h h' : PrvHst} {op : Op} {out : List Output} (hstep : step h op = some (h', out)) :
    stepState h op = some h' := by
  rw [stepState, hstep, Option.map_some]

/-- Run lemma: every run goes through and keeps the invariant. -/
theorem follows_run (ops : List Op) : ∃ h, run stepState .init ops = some h ∧ Follows h (.after ops) := by
  refine run_follows (fun h r op hf => ?_) follows_init ops
  obtain ⟨h', out, hstep, hf'⟩ := hf.step op
  exact ⟨h', stepState_of_step hstep, hf'⟩

/-- An output of a frame shows the sum over the window, in the bin size of the frame. -/
def ShowsWindow (window : List FrameHistogram) (frame : FrameHistogram) : Output → Prop
  | .histogramSumNFrames value => value = sumBins window frame.bin_size
  | .ndArray 4 data => data = sumBins window frame.bin_size
  | _ => True

/-- The sum of the last frames is published when it was updated, and then it is that of the window. -/
theorem FrameDone.showsWindow {h h' : PrvHst} {r : Reference} {f : JsonFrame} {out : List Output}
    (hdone : FrameDone h r f h' out) {o : Output} (ho : o ∈ out) : ShowsWindow r.windowed f.histogram o := by
  have hfrom := hdone.out o ho
  have htake : ∀ n, n = f.histogram.bin_size →
      ShouldUpdateSum (Hst.added (h.state.withHeader f.header) f.histogram) →
      h'.state.prvHstSumArray64Buffer.take n = sumBins r.windowed f.histogram.bin_size := by
    rintro n rfl hdue
    obtain ⟨rest, hbuf⟩ := hdone.due hdue
    rw [hbuf]
    exact List.take_left' (length_tabulate _ _)
  unfold ShowsWindow
  split
  · obtain ⟨hupd, first, hfirst, rfl⟩ := hfrom
    have hmem : first ∈ r.windowed := by
      rw [← hdone.follows.buffer]
      exact List.mem_of_mem_head? hfirst
    exact htake first.bin_size (hdone.bin_size first hmem) (of_decide_eq_true hupd)
  · obtain ⟨hupd, rfl⟩ := hfrom
    exact htake _ (addedSum_bin_size _ _) (of_decide_eq_true hupd)
  · trivial

/-- In every reachable state the running sum and its counters are those of the frames since the last restart,
and every sum of the last frames that a frame publishes next is that of the window. -/
theorem accumulation_follows_reference (ops : List Op) :
    ∃ h, run stepState .init ops = some h ∧ AccumulationOf h.state (Reference.after ops).summed ∧
      ∀ f arrayCallbacks pool, ∃ h' out, step h (.frame f arrayCallbacks pool) = some (h', out) ∧
        ∀ o ∈ out, ShowsWindow (Reference.after (ops ++ [.frame f arrayCallbacks pool])).windowed
          f.histogram o := by
  obtain ⟨h, hrun, hf⟩ := follows_run ops
  refine ⟨h, hrun, hf.accumulation, fun f arrayCallbacks pool => ?_⟩
  obtain ⟨h', out, hstep, hdone⟩ := hf.frame f arrayCallbacks pool
  refine ⟨h', out, hstep, fun o ho => ?_⟩
  rw [Reference.after, List.foldl_append]
  exact hdone.showsWindow ho

/-! ### A counter that wraps -/

/-- A frame of one bin. -/
def oneBin (binWidth : ℤ) (payload : List UInt8) : JsonFrame :=
  .ofPayload ⟨1, binWidth, 0, 0, 0⟩ rfl payload

theorem after_replicate (n : ℕ) (f : JsonFrame) (arrayCallbacks : Bool) (pool : Pool) :
    (Reference.after (List.replicate n (.frame f arrayCallbacks pool))).frames = List.replicate n f := by
  induction n with
  | zero => rfl
  | succ n ih =>
    rw [List.replicate_succ', Reference.after, List.foldl_append, List.replicate_succ']
    have hsame : (Reference.after (List.replicate n (.frame f arrayCallbacks pool))).SameBinSize f := by
      intro g hg
      rw [ih] at hg
      rw [List.eq_of_mem_replicate hg]
    show ((Reference.after _).kept f).frames ++ [f] = _
    rw [Reference.kept, if_pos hsame, ih]

/-- The frame counter is a 64-bit one: after `2 ^ 64` frames of one bin size it is back at `0`. -/
theorem prvHstFrameCount_wraps :
    ¬ ∀ ops : List Op, ∃ h, run stepState .init ops = some h ∧
      h.state.prvHstFrameCount = (Reference.after ops).frames.length := by
  intro hall
  obtain ⟨h, hrun, hf⟩ :=
    follows_run (List.replicate (2 ^ 64) (.frame (oneBin 8 [0, 0, 0, 5]) true ⟨true, true, true, true⟩))
  obtain ⟨h', hrun', hcount⟩ := hall _
  obtain rfl : h = h' := Option.some.inj (hrun.symm.trans hrun')
  rw [hf.accumulation.frameCount, Reference.summed, List.length_map, after_replicate,
    List.length_replicate] at hcount
  exact absurd hcount (by decide)

end ADTimePix3.Hst
