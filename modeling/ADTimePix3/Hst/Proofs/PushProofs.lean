import ADTimePix3.Hst.Proofs.AccumulationProofs
import ADTimePix3.Img.Proofs.PushProofs

/-!
# Pushes of the sums of histograms

A push at address 4 reads the sum buffer, and divides by the number of buffered frames. The sum in the buffer
is of the frames that were summed last, which are the buffered ones unless a frame has come without its sum
being due, or the frame buffer has been trimmed.

Main result: `push_reports_buffered`, for both channels.
-/

namespace ADTimePix3.Hst

open Buffers Counts Runs
open Img (toInt32 toInt64 pushed PushFits averagePixel)

/-! ## What a push should report -/

/-- The array at address 4 shows the buffered frames, which are all of the size of the running sum, and the
array at address 5 shows the running sum, which is one of `n` frames. -/
def ArrayReports (s : PrvHstState) (n : ℕ) (outputType : ℤ) (addr : ℕ) (data : List ℤ) (sum : SumHistogram) :
    Prop :=
  (addr = 4 → (∀ f ∈ s.prvHstFrameBuffer, f.bin_size = sum.bin_size) ∧
    data = tabulate sum.bin_size fun i =>
      pushed outputType s.prvHstFrameBuffer.length (binSum s.prvHstFrameBuffer i)) ∧
  (addr = 5 → data = sum.bin_values_64.map (pushed outputType n))

instance (s : PrvHstState) (n : ℕ) (outputType : ℤ) (addr : ℕ) (data : List ℤ) (sum : SumHistogram) :
    Decidable (ArrayReports s n outputType addr data sum) := inferInstanceAs (Decidable (_ ∧ _))

def ReportsBuffered (s : PrvHstState) (n : ℕ) (outputType : ℤ) : Output → Prop
  | .ndArray addr data => ∀ sum ∈ s.prvHstRunningSum, ArrayReports s n outputType addr data sum
  | _ => True

instance (s : PrvHstState) (n : ℕ) (outputType : ℤ) :
    (o : Output) → Decidable (ReportsBuffered s n outputType o)
  | .ndArray addr data =>
    inferInstanceAs (Decidable (∀ sum ∈ s.prvHstRunningSum, ArrayReports s n outputType addr data sum))
  | .histogramSumNFrames _ | .histogramTimeMs _ | .histogramData _ | .histogramFrame _ => instDecidableTrue

/-- The array at address 4 is right when the buffered frames are those that were summed last, the array at
address 5 when the frames are counted with 64 bits; and the values have to fit. -/
def ArrayFits (c : Cached) (n : ℕ) (outputType : ℤ) (addr : ℕ) (sum : SumHistogram) : Prop :=
  (addr = 4 → c.cached = c.hst.state.prvHstFrameBuffer ∧
    ∀ i < sum.bin_size,
      PushFits outputType c.hst.state.prvHstFrameBuffer.length (binSum c.hst.state.prvHstFrameBuffer i)) ∧
  (addr = 5 → (outputType = 1 → n < 2 ^ 64) ∧ ∀ v ∈ sum.bin_values_64, PushFits outputType n v)

instance (c : Cached) (n : ℕ) (outputType : ℤ) (addr : ℕ) (sum : SumHistogram) :
    Decidable (ArrayFits c n outputType addr sum) := inferInstanceAs (Decidable (_ ∧ _))

def CanReport (c : Cached) (n : ℕ) (outputType : ℤ) : Output → Prop
  | .ndArray addr _ => ∀ sum ∈ c.hst.state.prvHstRunningSum, ArrayFits c n outputType addr sum
  | _ => True

instance (c : Cached) (n : ℕ) (outputType : ℤ) : (o : Output) → Decidable (CanReport c n outputType o)
  | .ndArray addr _ =>
    inferInstanceAs (Decidable (∀ sum ∈ c.hst.state.prvHstRunningSum, ArrayFits c n outputType addr sum))
  | .histogramSumNFrames _ | .histogramTimeMs _ | .histogramData _ | .histogramFrame _ => instDecidableTrue

/-! ## The sum buffer -/

/-- The reference is followed, and the sum buffer holds the sum of the cached frames. -/
structure Caching (c : Cached) (r : Reference) : Prop where
  follows : Follows c.hst r
  buffer : c.cached ≠ [] → ∀ n, (∀ f ∈ c.cached, f.bin_size = n) →
    c.hst.state.prvHstSumArray64Buffer.take n = sumBins c.cached n

theorem caching_init : Caching .init .init := ⟨follows_init, fun hne => absurd rfl hne⟩

theorem Caching.frame {c : Cached} {r : Reference} (h : Caching c r) {f : JsonFrame} {arrayCallbacks : Bool}
    {pool : Pool} {h' : PrvHst} {out : List Output}
    (hdone : FrameDone c.hst (r.step (.frame f arrayCallbacks pool)) f h' out) :
    Caching ⟨h', cachedFrames c.hst c.cached (.frame f arrayCallbacks pool)⟩
      (r.step (.frame f arrayCallbacks pool)) := by
  refine ⟨hdone.follows, ?_⟩
  have hadded := h.follows.added f arrayCallbacks pool
  have hcached : cachedFrames c.hst c.cached (.frame f arrayCallbacks pool) =
      if ShouldUpdateSum (added (c.hst.state.withHeader f.header) f.histogram) then
        (r.step (.frame f arrayCallbacks pool)).windowed
      else c.cached := by
    unfold cachedFrames
    dsimp only
    rw [addFrame_eq, ← hadded.buffer]
  rw [hcached]
  by_cases hdue : ShouldUpdateSum (added (c.hst.state.withHeader f.header) f.histogram)
  · simp only [if_pos hdue]
    intro hne n hn
    obtain ⟨rest, hbuf⟩ := hdone.due hdue
    obtain ⟨g, hg⟩ := List.exists_mem_of_ne_nil _ hne
    obtain rfl : f.histogram.bin_size = n := (hdone.bin_size g hg).symm.trans (hn g hg)
    rw [hbuf]
    exact List.take_left' (length_tabulate _ _)
  · simp only [if_neg hdue]
    rw [hdone.not_due hdue]
    exact h.buffer

/-- Step lemma. -/
theorem Caching.step {c c' : Cached} {r : Reference} (h : Caching c r) {op : Op} (hstep : c.step op = some c') :
    Caching c' (r.step op) := by
  obtain ⟨h', hs, rfl⟩ := Option.map_eq_some_iff.mp hstep
  obtain ⟨⟨h₁, out⟩, hfull, rfl⟩ := Option.map_eq_some_iff.mp hs
  cases op with
  | header header =>
    obtain ⟨rfl, -⟩ := Prod.mk.inj (Option.some.inj hfull)
    exact ⟨h.follows.header header, h.buffer⟩
  | frame f arrayCallbacks pool =>
    obtain ⟨h₂, out₂, hstep₂, hdone⟩ := h.follows.frame f arrayCallbacks pool
    obtain ⟨rfl, rfl⟩ := Prod.mk.inj (Option.some.inj (hstep₂.symm.trans hfull))
    exact h.frame hdone
  | dataReset value =>
    have hfollows := h.follows.dataReset value
    have hpair : writeDataReset c.hst value = (h₁, out) := Option.some.inj hfull
    rw [hpair] at hfollows
    refine ⟨hfollows, ?_⟩
    show (if value = 1 then [] else c.cached) ≠ [] → _
    unfold writeDataReset at hpair
    by_cases hv : value = 1
    · rw [if_pos hv]
      intro hne
      exact absurd rfl hne
    · rw [if_neg hv] at hpair ⊢
      obtain ⟨rfl, -⟩ := Prod.mk.inj hpair
      intro hne n
      show (∀ f ∈ (if value = 1 then [] else c.cached), _) → _ = sumBins (if value = 1 then [] else c.cached) n
      rw [if_neg hv]
      exact h.buffer hne n
  | acquireStart =>
    obtain ⟨rfl, -⟩ := Prod.mk.inj (Option.some.inj hfull)
    exact h
  | acquireStop =>
    obtain ⟨rfl, -⟩ := Prod.mk.inj (Option.some.inj hfull)
    exact h
  | framesToSum value =>
    obtain ⟨rfl, -⟩ := Prod.mk.inj (Option.some.inj hfull)
    exact ⟨h.follows.writeFramesToSum value, h.buffer⟩
  | sumUpdateInterval value =>
    obtain ⟨rfl, -⟩ := Prod.mk.inj (Option.some.inj hfull)
    exact ⟨h.follows.writeSumUpdateInterval value, h.buffer⟩
  | push outputType arrayCallbacks pool =>
    obtain ⟨h₂, out₂, hpush, hstate, htime, -⟩ :=
      pushProcessedHstToPlugins_spec h.follows.time_length outputType arrayCallbacks pool
    obtain ⟨rfl, rfl⟩ := Prod.mk.inj (Option.some.inj (hpush.symm.trans hfull))
    refine ⟨h.follows.congr hstate ?_, ?_⟩
    · rw [hstate]
      exact htime
    · show c.cached ≠ [] → ∀ n, (∀ f ∈ c.cached, f.bin_size = n) →
        h₂.state.prvHstSumArray64Buffer.take n = sumBins c.cached n
      rw [hstate]
      exact h.buffer

theorem Caching.run {ops : List Op} {c c' : Cached} {r : Reference} (h : Caching c r)
    (hrun : Runs.run Cached.step c ops = some c') : Caching c' (ops.foldl Reference.step r) := by
  have hstep : ∀ (past : List Op) (c : Cached) (op : Op) (c' : Cached),
      Caching c (past.foldl Reference.step r) → c.step op = some c' →
        Caching c' ((past ++ [op]).foldl Reference.step r) := by
    intro past c op c' hc hop
    rw [List.foldl_concat]
    exact hc.step hop
  exact Runs.run_along hstep h hrun

/-! ## Pushes -/

theorem toInt32_of_lt {x : ℕ} (h : x < 2 ^ 31) : toInt32 x = x := by
  unfold toInt32
  omega

theorem pushedSum_eq {outputType : ℤ} {n v : ℕ} (h : PushFits outputType n v) :
    pushedSum outputType n v = pushed outputType n v := by
  unfold PushFits at h
  unfold pushedSum pushed
  by_cases ht : outputType = 1
  · rw [if_pos ht] at h
    rw [if_pos ht, if_pos ht, toInt32_of_lt h]
  · rw [if_neg ht] at h
    rw [if_neg ht, if_neg ht, toInt64_of_lt h]

theorem pushedSumN_eq {outputType : ℤ} {n v : ℕ} (h : PushFits outputType n v) :
    pushedSumN outputType n v = pushed outputType n v := by
  unfold PushFits at h
  unfold pushedSumN pushed
  by_cases ht : outputType = 1
  · have hdiv : (v : ℤ).tdiv n = (v / n : ℕ) := rfl
    rw [if_pos ht] at h
    rw [if_pos ht, if_pos ht, hdiv, toInt32_of_lt h]
  · rw [if_neg ht, if_neg ht]

/-- The buffered frames have the bin size of the running sum. -/
theorem Follows.buffer_bin_size {h : PrvHst} {r : Reference} (hf : Follows h r) {sum : SumHistogram}
    (hsum : sum ∈ h.state.prvHstRunningSum) : ∀ f ∈ h.state.prvHstFrameBuffer, f.bin_size = sum.bin_size := by
  intro f hmem
  rw [hf.buffer] at hmem
  obtain ⟨g, hg, rfl⟩ := List.mem_map.mp hmem
  exact (hf.accumulation.sum.present sum hsum).1 _ (List.mem_map_of_mem (hf.window_mem g hg))

theorem Follows.buffer_length {h : PrvHst} {r : Reference} (hf : Follows h r) :
    h.state.prvHstFrameBuffer.length ≤ 100000 := by
  have hrange := hf.range
  have hle := hf.length_le
  rw [hf.buffer, Reference.windowed, List.length_map]
  omega

/-- The array of the running sum. -/
theorem Caching.running {c : Cached} {r : Reference} (h : Caching c r) {sum : SumHistogram}
    (hsum : sum ∈ c.hst.state.prvHstRunningSum) {outputType : ℤ}
    (hcount : outputType = 1 → r.frames.length < 2 ^ 64)
    (hfits : ∀ v ∈ sum.bin_values_64, PushFits outputType r.frames.length v) :
    sum.bin_values_64.map (pushedSum outputType (nFrames c.hst.state)) =
      sum.bin_values_64.map (pushed outputType r.frames.length) := by
  refine List.map_congr_left fun v hv => ?_
  rw [← pushedSum_eq (hfits v hv)]
  unfold pushedSum
  by_cases ht : outputType = 1
  · have hpos : 0 < r.frames.length := by
      refine List.length_pos_of_ne_nil fun hnil => ?_
      rw [h.follows.accumulation.sum.absent.mpr (by rw [Reference.summed, hnil, List.map_nil])] at hsum
      cases hsum
    have hframes : nFrames c.hst.state = r.frames.length := by
      unfold nFrames
      rw [h.follows.accumulation.frameCount, Reference.summed, List.length_map, Nat.mod_eq_of_lt (hcount ht),
        if_pos hpos]
    rw [if_pos ht, if_pos ht, hframes]
  · rw [if_neg ht, if_neg ht]

/-- The array of the sum of the last frames. -/
theorem Caching.lastFrames {c : Cached} {r : Reference} (h : Caching c r) {sum : SumHistogram}
    (hsum : sum ∈ c.hst.state.prvHstRunningSum) (hne : c.hst.state.prvHstFrameBuffer ≠ []) {outputType : ℤ}
    (hcached : c.cached = c.hst.state.prvHstFrameBuffer)
    (hfits : ∀ i < sum.bin_size,
      PushFits outputType c.hst.state.prvHstFrameBuffer.length (binSum c.hst.state.prvHstFrameBuffer i)) :
    (c.hst.state.prvHstSumArray64Buffer.take sum.bin_size).map (pushedSumN outputType (nForSumN c.hst.state)) =
      tabulate sum.bin_size fun i =>
        pushed outputType c.hst.state.prvHstFrameBuffer.length (binSum c.hst.state.prvHstFrameBuffer i) := by
  have hlen := h.follows.buffer_length
  have hpos := List.length_pos_of_ne_nil hne
  have hframes : nForSumN c.hst.state = c.hst.state.prvHstFrameBuffer.length := by
    unfold nForSumN
    rw [Nat.mod_eq_of_lt (by omega), if_pos hpos]
  have htake := h.buffer (by rwa [hcached]) sum.bin_size (by rw [hcached]; exact h.follows.buffer_bin_size hsum)
  rw [htake, hframes, hcached, sumBins, map_tabulate]
  exact tabulate_congr fun i hi => pushedSumN_eq (hfits i hi)

/-- In every reachable state a push reports the buffered histograms when these were summed last, and the
running sum, as far as the values fit. -/
theorem hst_push_reports {ops : List Op} {c : Cached} (hrun : run Cached.step .init ops = some c)
    (outputType : ℤ) (arrayCallbacks : Bool) (pool : Pool) :
    ∃ h' out, step c.hst (.push outputType arrayCallbacks pool) = some (h', out) ∧
      ∀ o ∈ out, CanReport c (Reference.after ops).frames.length outputType o →
        ReportsBuffered c.hst.state (Reference.after ops).frames.length outputType o := by
  have hcaching := caching_init.run hrun
  obtain ⟨h', out, hpush, -, -, hout⟩ :=
    pushProcessedHstToPlugins_spec hcaching.follows.time_length outputType arrayCallbacks pool
  refine ⟨h', out, hpush, fun o ho hcan => ?_⟩
  obtain ⟨sum, hsum, hpushed⟩ := hout o ho
  unfold Pushed at hpushed
  split at hpushed
  · obtain ⟨hne, rfl⟩ := hpushed
    intro sum' hsum'
    obtain rfl : sum = sum' := Option.some.inj (hsum.symm.trans hsum')
    refine ⟨fun _ => ⟨hcaching.follows.buffer_bin_size hsum, ?_⟩, fun h5 => absurd h5 (by decide)⟩
    obtain ⟨hcached, hfits⟩ := (hcan sum hsum).1 rfl
    exact hcaching.lastFrames hsum hne hcached hfits
  · obtain rfl := hpushed
    intro sum' hsum'
    obtain rfl : sum = sum' := Option.some.inj (hsum.symm.trans hsum')
    refine ⟨fun h4 => absurd h4 (by decide), fun _ => ?_⟩
    obtain ⟨hcount, hfits⟩ := (hcan sum hsum).2 rfl
    exact hcaching.running hsum hcount hfits
  · intro sum' _
    exact ⟨fun h4 => absurd h4 (by decide), fun h5 => absurd h5 (by decide)⟩
  · intro sum' _
    exact ⟨fun h4 => absurd h4 (by decide), fun h5 => absurd h5 (by decide)⟩
  · exact hpushed.elim

/-! ## Both channels -/

/-- In every reachable state of the two channels a push reports the buffered frames when these were summed
last, and the running sum, as far as the values fit. -/
theorem push_reports_buffered (outputType : ℤ) (arrayCallbacks : Bool) :
    (∀ ops c, run Img.Cached.step .init ops = some c → ∀ pool,
      ∃ out, Img.step c.img (.push outputType arrayCallbacks pool) = some (c.img, out) ∧
        ∀ o ∈ out, Img.CanReport c (ops.foldl Img.sinceRestart []).length outputType o →
          Img.ReportsBuffered c.img (ops.foldl Img.sinceRestart []).length outputType o) ∧
    ∀ ops c, run Cached.step .init ops = some c → ∀ pool,
      ∃ h' out, step c.hst (.push outputType arrayCallbacks pool) = some (h', out) ∧
        ∀ o ∈ out, CanReport c (Reference.after ops).frames.length outputType o →
          ReportsBuffered c.hst.state (Reference.after ops).frames.length outputType o :=
  ⟨fun _ _ hrun pool => Img.push_reports_cached hrun outputType arrayCallbacks pool,
    fun _ _ hrun pool => hst_push_reports hrun outputType arrayCallbacks pool⟩

/-- A frame of one pixel, a reset and two frames of two pixels. -/
def imgHistory : List Img.Op :=
  [.frame Img.onePixel ⟨true, true⟩, .imageDataReset 1, .frame Img.twoPixels ⟨true, true⟩,
    .frame Img.twoPixels ⟨true, true⟩]

/-- Three frames of one bin. -/
def hstHistory : List Op :=
  [.frame (oneBin 8 [0, 0, 0, 5]) true ⟨true, true, true, true⟩,
    .frame (oneBin 8 [0, 0, 0, 7]) true ⟨true, true, true, true⟩,
    .frame (oneBin 8 [0, 0, 1, 0]) true ⟨true, true, true, true⟩]

/-- The averages of the two frames since the reset on the one channel and of the three on the other. -/
theorem push_reports_buffered_average :
    (∃ c out, run Img.Cached.step .init imgHistory = some c ∧
      Img.step c.img (.push 1 true ⟨true, true⟩) = some (c.img, out) ∧ out ≠ [] ∧
      ∀ o ∈ out, Img.ReportsBuffered c.img 2 1 o) ∧
    ∃ c h' out, run Cached.step .init hstHistory = some c ∧
      step c.hst (.push 1 true ⟨true, true, true, true⟩) = some (h', out) ∧ out ≠ [] ∧
      ∀ o ∈ out, ReportsBuffered c.hst.state 3 1 o := by
  constructor
  · have hcan : ((run Img.Cached.step .init imgHistory).bind fun c =>
        (Img.step c.img (.push 1 true ⟨true, true⟩)).map fun p =>
          decide (p.2 ≠ [] ∧ ∀ o ∈ p.2, Img.CanReport c 2 1 o)) = some true := by
      decide +kernel
    obtain ⟨c, hc, hmap⟩ := Option.bind_eq_some_iff.mp hcan
    obtain ⟨p, hp, htrue⟩ := Option.map_eq_some_iff.mp hmap
    obtain ⟨out, hpush, hreport⟩ := (push_reports_buffered 1 true).1 _ c hc ⟨true, true⟩
    obtain rfl := Option.some.inj (hpush.symm.trans hp)
    obtain ⟨hne, hfits⟩ := of_decide_eq_true htrue
    exact ⟨c, out, hc, hpush, hne, fun o ho => hreport o ho (hfits o ho)⟩
  · have hcan : ((run Cached.step .init hstHistory).bind fun c =>
        (step c.hst (.push 1 true ⟨true, true, true, true⟩)).map fun p =>
          decide (p.2 ≠ [] ∧ ∀ o ∈ p.2, CanReport c 3 1 o)) = some true := by
      decide +kernel
    obtain ⟨c, hc, hmap⟩ := Option.bind_eq_some_iff.mp hcan
    obtain ⟨p, hp, htrue⟩ := Option.map_eq_some_iff.mp hmap
    obtain ⟨h', out, hpush, hreport⟩ := (push_reports_buffered 1 true).2 _ c hc ⟨true, true, true, true⟩
    obtain rfl := Option.some.inj (hpush.symm.trans hp)
    obtain ⟨hne, hfits⟩ := of_decide_eq_true htrue
    exact ⟨c, h', out, hc, hpush, hne, fun o ho => hreport o ho (hfits o ho)⟩

/-- A frame whose sum is not due, and a trimmed frame buffer: the pushes show the sum of other frames than those
that are buffered. -/
theorem pushes_report_others :
    (¬ ∀ ops c, run Img.Cached.step .init ops = some c → ∀ outputType arrayCallbacks pool s out,
      Img.step c.img (.push outputType arrayCallbacks pool) = some (s, out) →
        ∀ o ∈ out, Img.ReportsBuffered c.img (ops.foldl Img.sinceRestart []).length outputType o) ∧
    ¬ ∀ ops c, run Cached.step .init ops = some c → ∀ outputType arrayCallbacks pool h' out,
      step c.hst (.push outputType arrayCallbacks pool) = some (h', out) →
        ∀ o ∈ out, ReportsBuffered c.hst.state (Reference.after ops).frames.length outputType o := by
  constructor
  · intro hall
    have hwrong : ((run Img.Cached.step .init
        [.frame Img.onePixel ⟨true, true⟩, .sumUpdateInterval 2, .frame Img.onePixel ⟨true, true⟩]).bind fun c =>
        (Img.step c.img (.push 0 true ⟨true, true⟩)).map fun p =>
          decide (∀ o ∈ p.2, Img.ReportsBuffered c.img 2 0 o)) = some false := by
      decide +kernel
    obtain ⟨c, hc, hmap⟩ := Option.bind_eq_some_iff.mp hwrong
    obtain ⟨p, hp, hfalse⟩ := Option.map_eq_some_iff.mp hmap
    exact of_decide_eq_false hfalse (hall _ c hc 0 true ⟨true, true⟩ p.1 p.2 hp)
  · intro hall
    have hwrong : ((run Cached.step .init
        [.frame (oneBin 8 [0, 0, 0, 5]) true ⟨true, true, true, true⟩,
          .frame (oneBin 8 [0, 0, 0, 7]) true ⟨true, true, true, true⟩, .framesToSum 1]).bind fun c =>
        (step c.hst (.push 0 true ⟨true, true, true, true⟩)).map fun p =>
          decide (∀ o ∈ p.2, ReportsBuffered c.hst.state 2 0 o)) = some false := by
      decide +kernel
    obtain ⟨c, hc, hmap⟩ := Option.bind_eq_some_iff.mp hwrong
    obtain ⟨p, hp, hfalse⟩ := Option.map_eq_some_iff.mp hmap
    exact of_decide_eq_false hfalse (hall _ c hc 0 true ⟨true, true, true, true⟩ p.1 p.2 hp)

end ADTimePix3.Hst
