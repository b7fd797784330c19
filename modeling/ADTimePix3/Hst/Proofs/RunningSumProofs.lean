import ADTimePix3.Hst.PrvHst

/-!
# The running sum of the histograms

`SumOf s frames` says that the running sum is the bin-wise sum of `frames`. `processPrvHstFrame` keeps it: a
frame is added to those that are kept, and none are kept when the bin size changes.
-/

namespace ADTimePix3.Hst

open Buffers Counts

/-- Bin `i` of a frame; `0` beyond the histogram. -/
def FrameHistogram.bin (f : FrameHistogram) (i : ℕ) : ℕ := f.bin_values_32.getD i 0

/-- The sum of bin `i` over a list of frames. -/
def binSum (frames : List FrameHistogram) (i : ℕ) : ℕ := (frames.map fun f => f.bin i).sum

/-- The running sum is that of `frames`, every bin saturated at 64 bits. There is none while there are no
frames. -/
structure SumOf (s : PrvHstState) (frames : List FrameHistogram) : Prop where
  absent : s.prvHstRunningSum = none ↔ frames = []
  present : ∀ sum ∈ s.prvHstRunningSum,
    (∀ g ∈ frames, g.bin_size = sum.bin_size) ∧
      sum.bin_values_64 = tabulate sum.bin_size fun i => min (2 ^ 64 - 1) (binSum frames i)

/-- The frames that are kept when `frame` arrives. -/
def keptFrames (frames : List FrameHistogram) (frame : FrameHistogram) : List FrameHistogram :=
  if ∀ g ∈ frames, g.bin_size = frame.bin_size then frames else []

def baseSum (s : PrvHstState) (frame : FrameHistogram) : SumHistogram :=
  match s.prvHstRunningSum with
  | some sum => if sum.bin_size = frame.bin_size then sum else .zero frame
  | none => .zero frame

theorem bin_size_zero (frame : FrameHistogram) : (SumHistogram.zero frame).bin_size = frame.bin_size :=
  List.length_replicate

theorem baseSum_bin_size (s : PrvHstState) (frame : FrameHistogram) :
    (baseSum s frame).bin_size = frame.bin_size := by
  unfold baseSum
  cases s.prvHstRunningSum with
  | none => exact bin_size_zero frame
  | some sum =>
    show (if sum.bin_size = frame.bin_size then sum else SumHistogram.zero frame).bin_size = _
    by_cases hsame : sum.bin_size = frame.bin_size
    · rw [if_pos hsame, hsame]
    · rw [if_neg hsame, bin_size_zero]

theorem initRunningSum_sum (s : PrvHstState) (frame : FrameHistogram) :
    (initRunningSum s frame).prvHstRunningSum = some (baseSum s frame) := by
  unfold initRunningSum baseSum
  cases hsum : s.prvHstRunningSum with
  | none =>
    show (if (SumHistogram.zero frame).bin_size ≠ frame.bin_size then _ else _ : PrvHstState).prvHstRunningSum = _
    rw [if_neg (not_not_intro (bin_size_zero frame))]
    rfl
  | some sum =>
    show (if sum.bin_size ≠ frame.bin_size then _ else _ : PrvHstState).prvHstRunningSum =
      some (if sum.bin_size = frame.bin_size then sum else _)
    by_cases hsame : sum.bin_size = frame.bin_size
    · rw [if_neg (not_not_intro hsame), if_pos hsame]
      rfl
    · rw [if_pos hsame, if_neg hsame]

/-- The sum of the frame buffer is kept apart from the running sum. -/
theorem updateSum_sum (s : PrvHstState) : (updateSum s).prvHstRunningSum = s.prvHstRunningSum := by
  unfold updateSum
  cases s.prvHstFrameBuffer with
  | nil => rfl
  | cons first rest =>
    show (if _ then _ else s : PrvHstState).prvHstRunningSum = _
    by_cases hdue : s.prvHstFramesSinceLastSumUpdate ≥ s.prvHstSumUpdateIntervalFrames
    · rw [if_pos hdue]
    · rw [if_neg hdue]

theorem processPrvHstFrame_of_add {s : PrvHstState} {frame : FrameHistogram} {sum : SumHistogram}
    (hadd : (baseSum s frame).add_histogram frame = some sum) :
    processPrvHstFrame true s frame = updateSum (pushFrame (initRunningSum s frame) sum frame) := by
  unfold processPrvHstFrame
  rw [if_pos rfl]
  dsimp only
  rw [initRunningSum_sum, Option.bind_some, hadd]

theorem processPrvHstFrame_sum (s : PrvHstState) (frame : FrameHistogram) :
    ∃ sum, (processPrvHstFrame true s frame).prvHstRunningSum = some sum ∧
      sum.bin_values_64 =
        List.zipWith (satAdd (2 ^ 64)) (baseSum s frame).bin_values_64 frame.bin_values_32 := by
  have hadd : (baseSum s frame).add_histogram frame = some
      { baseSum s frame with
        bin_values_64 := List.zipWith (satAdd (2 ^ 64)) (baseSum s frame).bin_values_64
          frame.bin_values_32 } := if_pos (baseSum_bin_size s frame).symm
  refine ⟨{ baseSum s frame with
    bin_values_64 := List.zipWith (satAdd (2 ^ 64)) (baseSum s frame).bin_values_64
      frame.bin_values_32 }, ?_, rfl⟩
  rw [processPrvHstFrame_of_add hadd]
  exact updateSum_sum _

theorem FrameHistogram.values_eq (f : FrameHistogram) : f.bin_values_32 = tabulate f.bin_size f.bin :=
  eq_tabulate f.bin_values_32 0

theorem FrameHistogram.bin_lt (f : FrameHistogram) (i : ℕ) : f.bin i < 2 ^ 64 := by
  unfold bin
  rcases Nat.lt_or_ge i f.bin_values_32.length with hlt | hge
  · rw [List.getD_eq_getElem _ _ hlt]
    exact Nat.lt_trans (f.value_lt _ (List.getElem_mem hlt)) (by decide)
  · rw [List.getD_eq_default _ _ hge]
    decide

theorem binSum_append (frames : List FrameHistogram) (f : FrameHistogram) (i : ℕ) :
    binSum (frames ++ [f]) i = binSum frames i + f.bin i := by
  unfold binSum
  rw [List.map_append, List.sum_append, List.map_singleton, List.sum_singleton]

/-- A frame is added to the sum of the frames that are kept. -/
theorem SumOf.baseSum {s : PrvHstState} {frames : List FrameHistogram} (h : SumOf s frames)
    (f : FrameHistogram) :
    (Hst.baseSum s f).bin_values_64 =
      tabulate f.bin_size fun i => min (2 ^ 64 - 1) (binSum (keptFrames frames f) i) := by
  have hzero : (SumHistogram.zero f).bin_values_64 =
      tabulate f.bin_size fun i => min (2 ^ 64 - 1) (binSum [] i) := replicate_eq_tabulate f.bin_size 0
  unfold Hst.baseSum
  cases hs : s.prvHstRunningSum with
  | none =>
    obtain rfl : frames = [] := h.absent.mp hs
    have hkept : keptFrames [] f = [] := ite_self []
    rw [hkept]
    exact hzero
  | some sum =>
    obtain ⟨hsize, hbins⟩ := h.present sum hs
    show (if sum.bin_size = f.bin_size then sum else SumHistogram.zero f).bin_values_64 = _
    by_cases hsame : sum.bin_size = f.bin_size
    · have hkept : keptFrames frames f = frames := if_pos fun g hg => (hsize g hg).trans hsame
      rw [if_pos hsame, hkept, hbins, hsame]
    · have hne : frames ≠ [] := fun hnil => Option.some_ne_none sum (hs ▸ h.absent.mpr hnil)
      obtain ⟨g, hg⟩ := List.exists_mem_of_ne_nil frames hne
      have hkept : keptFrames frames f = [] :=
        if_neg fun hall => hsame ((hsize g hg).symm.trans (hall g hg))
      rw [if_neg hsame, hkept, hzero]

/-- Step lemma: a frame is added. -/
theorem SumOf.frame {s : PrvHstState} {frames : List FrameHistogram} (h : SumOf s frames)
    (f : FrameHistogram) : SumOf (processPrvHstFrame true s f) (keptFrames frames f ++ [f]) := by
  obtain ⟨sum, hsum, hbins⟩ := processPrvHstFrame_sum s f
  rw [h.baseSum, f.values_eq, zipWith_tabulate] at hbins
  have hsize : sum.bin_size = f.bin_size := by rw [SumHistogram.bin_size, hbins, length_tabulate]
  constructor
  · rw [hsum]
    constructor
    · intro hnone
      cases hnone
    · intro hnil
      exact absurd hnil (List.append_ne_nil_of_right_ne_nil _ (List.cons_ne_nil f []))
  · intro sum' hsum'
    obtain rfl : sum = sum' := Option.some.inj (hsum.symm.trans hsum')
    constructor
    · intro g hg
      rw [hsize]
      rcases List.mem_append.mp hg with hg | hg
      · unfold keptFrames at hg
        by_cases hall : ∀ g ∈ frames, g.bin_size = f.bin_size
        · rw [if_pos hall] at hg
          exact hall g hg
        · rw [if_neg hall] at hg
          exact absurd hg List.not_mem_nil
      · rw [List.mem_singleton.mp hg]
    · rw [hbins, hsize]
      refine tabulate_congr fun i _ => ?_
      rw [satAdd_min (by decide) (f.bin_lt i), binSum_append]

/-- The members of the header play no part in the running sum. -/
theorem SumOf.withHeader {s : PrvHstState} {frames : List FrameHistogram} (h : SumOf s frames)
    (header : HistHeader) : SumOf (s.withHeader header) frames := ⟨h.absent, h.present⟩

theorem keptFrames_of_size {frames : List FrameHistogram} {f : FrameHistogram} {size : ℕ}
    (hframes : ∀ g ∈ frames, g.bin_size = size) (hf : f.bin_size = size) : keptFrames frames f = frames :=
  if_pos fun g hg => (hframes g hg).trans hf.symm

end ADTimePix3.Hst
