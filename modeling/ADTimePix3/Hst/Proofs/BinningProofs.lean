import ADTimePix3.Hst.Proofs.AccumulationProofs

/-!
# The binning of the accumulated histograms

The data are started over when the bin size of a frame differs from that of the running sum. The bin width and
the bin offset are not compared, although the edges that the running sum keeps are those of its first frame,
and the time axis is that of the header stored last. So the sums are of one binning as long as the frames that
follow each other with one bin size have one width and one offset.

Main result: `one_binning`.
-/

namespace ADTimePix3.Hst

open Buffers Runs

/-! ## What the state shows of the binning -/

/-- The bin edges of a binning. -/
def Binning.edges (b : Binning) : List ℕ := calculate_bin_edges b.binSize.toNat b.binWidth b.binOffset

/-- The time axis of a binning, with the time of a bin given by `tick`. -/
def Binning.timeAxis (b : Binning) (tick : ℤ → ℤ → ℕ → ℤ) : List ℤ :=
  tabulate b.binSize.toNat (tick b.binWidth b.binOffset)

/-- All data are of the binning `b`: the frames that are summed, those in the frame buffer, and the edges of
the running sum. -/
structure OfBinning (b : Binning) (h : PrvHst) (r : Reference) : Prop where
  summed : SumOf h.state r.summed
  summed_binning : ∀ f ∈ r.frames, f.header.binning = b
  buffered : h.state.prvHstFrameBuffer = r.windowed
  buffered_binning : ∀ f ∈ r.window, f.header.binning = b
  edges : ∀ sum ∈ h.state.prvHstRunningSum, sum.bin_edges = b.edges

/-- A frame computes the time axis in `size_t` arithmetic, a push in `int` arithmetic. -/
def axisTick : Op → ℤ → ℤ → ℕ → ℤ
  | .push .. => pushTimeTick
  | _ => timeTick

/-- A time axis that is given out is that of the binning `b`. -/
def ShowsAxis (b : Binning) (op : Op) : Output → Prop
  | .histogramTimeMs value => value = b.timeAxis (axisTick op)
  | .ndArray 7 data => data = b.timeAxis (axisTick op)
  | _ => True

/-- The two headers give the bins the same width and the same offset. -/
def HistHeader.SameBins (h g : HistHeader) : Prop := h.bin_width = g.bin_width ∧ h.bin_offset = g.bin_offset

/-- A frame that goes on with the data has their width and offset, and at a push the header stored last
has. -/
def SameBinning (r : Reference) : Op → Prop
  | .frame f _ _ => r.SameBinSize f → ∀ g ∈ r.frames, g.header.SameBins f.header
  | .push .. => ∀ header ∈ r.header, ∀ g ∈ r.frames, g.header.SameBins header
  | _ => True

/-! ## Edges and headers -/

/-- The edges of the running sum are those of the first frame, the members of the header are those of the
header stored last. -/
structure Labelled (h : PrvHst) (r : Reference) : Prop where
  follows : Follows h r
  edges : ∀ sum ∈ h.state.prvHstRunningSum, ∀ f ∈ r.frames.head?, sum.bin_edges = f.histogram.bin_edges
  header : ∀ header ∈ r.header,
    h.state.prvHstFrameBinWidth = header.bin_width ∧ h.state.prvHstFrameBinOffset = header.bin_offset
  stored : r.header = none → r.frames = []

theorem labelled_init : Labelled .init .init where
  follows := follows_init
  edges sum hsum := by cases hsum
  header header hheader := by cases hheader
  stored _ := rfl

/-- The sum to which a frame is added has the edges of the first frame that is kept, or of the frame itself. -/
theorem Labelled.baseSum_edges {h : PrvHst} {r : Reference} (hl : Labelled h r) (f : JsonFrame) :
    ∀ g ∈ ((r.kept f).frames ++ [f]).head?,
      (baseSum (h.state.withHeader f.header) f.histogram).bin_edges = g.histogram.bin_edges := by
  intro g hg
  have hsum : SumOf (h.state.withHeader f.header) r.summed :=
    hl.follows.accumulation.sum.withHeader f.header
  unfold baseSum
  rcases hsum.kept_cases f with ⟨hcont, hkept⟩ | ⟨⟨sum, hmem, hsize⟩, hkept⟩
  · rw [hkept] at hg
    cases hs : (h.state.withHeader f.header).prvHstRunningSum with
    | none =>
      have hnil := List.map_eq_nil_iff.mp (hsum.absent.mp hs)
      rw [hnil] at hg
      rw [← Option.some.inj hg]
      rfl
    | some sum =>
      have hsame : sum.bin_size = f.histogram.bin_size := by
        by_contra hne
        exact hcont ⟨sum, hs, hne⟩
      have hne : r.frames ≠ [] := by
        intro hnil
        have hnone := hsum.absent.mpr (by rw [Reference.summed, hnil, List.map_nil])
        rw [hs] at hnone
        cases hnone
      show (if sum.bin_size = f.histogram.bin_size then sum else SumHistogram.zero f.histogram).bin_edges = _
      rw [if_pos hsame]
      rw [List.head?_append_of_ne_nil _ hne] at hg
      exact hl.edges sum hs g hg
  · rw [hkept] at hg
    rw [Option.mem_def.mp hmem, ← Option.some.inj hg]
    show (if sum.bin_size = f.histogram.bin_size then sum else SumHistogram.zero f.histogram).bin_edges = _
    rw [if_neg hsize]
    rfl

theorem Labelled.frame {h h' : PrvHst} {r : Reference} (hl : Labelled h r) {f : JsonFrame}
    {arrayCallbacks : Bool} {pool : Pool} {out : List Output}
    (hdone : FrameDone h (r.step (.frame f arrayCallbacks pool)) f h' out) :
    Labelled h' (r.step (.frame f arrayCallbacks pool)) where
  follows := hdone.follows
  edges sum hsum g hg := by
    rw [hdone.runningSum] at hsum
    rw [← Option.some.inj hsum]
    exact hl.baseSum_edges f g hg
  header header hheader := by
    rw [← Option.some.inj hheader]
    exact ⟨hdone.binWidth, hdone.binOffset⟩
  stored hnone := by cases hnone

theorem Labelled.dataReset {h : PrvHst} {r : Reference} (hl : Labelled h r) (value : ℤ) :
    Labelled (writeDataReset h value).1 (r.step (.dataReset value)) := by
  have hfollows := hl.follows.dataReset value
  unfold writeDataReset at hfollows ⊢
  simp only [Reference.step] at hfollows ⊢
  by_cases hv : value = 1
  · rw [if_pos hv, if_pos hv] at hfollows ⊢
    refine ⟨hfollows, fun sum hsum => ?_, hl.header, fun _ => rfl⟩
    cases hsum
  · rw [if_neg hv, if_neg hv]
    exact hl

/-- Step lemma. -/
theorem Labelled.step {h : PrvHst} {r : Reference} (hl : Labelled h r) (op : Op) :
    ∃ h' out, Hst.step h op = some (h', out) ∧ Labelled h' (r.step op) := by
  cases op with
  | header header =>
    refine ⟨_, [], rfl, hl.follows.header header, hl.edges, fun header' hheader => ?_, fun hnone => ?_⟩
    · rw [← Option.some.inj hheader]
      exact ⟨rfl, rfl⟩
    · cases hnone
  | frame f arrayCallbacks pool =>
    obtain ⟨h', out, hstep, hdone⟩ := hl.follows.frame f arrayCallbacks pool
    exact ⟨h', out, hstep, hl.frame hdone⟩
  | dataReset value => exact ⟨_, _, rfl, hl.dataReset value⟩
  | acquireStart => exact ⟨h, [], rfl, hl⟩
  | acquireStop => exact ⟨h, [], rfl, hl⟩
  | framesToSum value =>
    exact ⟨_, [], rfl, hl.follows.writeFramesToSum value, hl.edges, hl.header, hl.stored⟩
  | sumUpdateInterval value =>
    exact ⟨_, [], rfl, hl.follows.writeSumUpdateInterval value, hl.edges, hl.header, hl.stored⟩
  | push outputType arrayCallbacks pool =>
    obtain ⟨h', out, hpush, hstate, htime, -⟩ :=
      pushProcessedHstToPlugins_spec hl.follows.time_length outputType arrayCallbacks pool
    refine ⟨h', out, hpush, hl.follows.congr hstate ?_, ?_, ?_, hl.stored⟩
    · rw [hstate]
      exact htime
    · rw [hstate]
      exact hl.edges
    · rw [hstate]
      exact hl.header

theorem labelled_run (ops : List Op) : ∃ h, run stepState .init ops = some h ∧ Labelled h (.after ops) := by
  refine run_follows (fun h r op hl => ?_) labelled_init ops
  obtain ⟨h', out, hstep, hl'⟩ := hl.step op
  exact ⟨h', stepState_of_step hstep, hl'⟩

/-! ## One binning -/

/-- The frames of the reference have one binning. -/
def Reference.OneBinning (r : Reference) : Prop := ∀ f ∈ r.frames, ∀ g ∈ r.frames, f.header.binning = g.header.binning

theorem JsonFrame.binning_eq {f g : JsonFrame} (hsize : g.histogram.bin_size = f.histogram.bin_size)
    (hsame : g.header.SameBins f.header) : g.header.binning = f.header.binning := by
  have hf := f.accepted
  have hg := g.accepted
  rw [f.bin_size_eq, g.bin_size_eq] at hsize
  unfold HistHeader.accepted at hf hg
  simp only [Bool.and_eq_true, decide_eq_true_eq] at hf hg
  have hsize' : g.header.bin_size = f.header.bin_size := by omega
  unfold HistHeader.binning
  rw [hsize', hsame.1, hsame.2]

/-- Step lemma: the frames stay of one binning as long as the width and the offset are not changed. -/
theorem Reference.OneBinning.step {r : Reference} (h : r.OneBinning) {op : Op} (hop : SameBinning r op) :
    (r.step op).OneBinning := by
  cases op with
  | frame f arrayCallbacks pool =>
    have hf : ∀ g ∈ (r.kept f).frames ++ [f], g.header.binning = f.header.binning := by
      intro g hg
      rcases List.mem_append.mp hg with hmem | hmem
      · unfold Reference.kept at hmem
        by_cases hsame : r.SameBinSize f
        · rw [if_pos hsame] at hmem
          exact JsonFrame.binning_eq (hsame g hmem) (hop hsame g hmem)
        · rw [if_neg hsame] at hmem
          exact absurd hmem List.not_mem_nil
      · rw [List.mem_singleton.mp hmem]
    intro g hg g' hg'
    exact (hf g hg).trans (hf g' hg').symm
  | dataReset value =>
    unfold Reference.OneBinning
    simp only [Reference.step]
    by_cases hv : value = 1
    · rw [if_pos hv]
      intro g hg
      exact absurd hg List.not_mem_nil
    · rw [if_neg hv]
      exact h
  | _ => exact h

/-- The binning of the first frame; without a frame there are no data, and any binning will do. -/
def Reference.binning (r : Reference) : Binning :=
  match r.frames with
  | [] => ⟨0, 0, 0⟩
  | f :: _ => f.header.binning

theorem Reference.OneBinning.eq_binning {r : Reference} (h : r.OneBinning) {f : JsonFrame} (hf : f ∈ r.frames) :
    f.header.binning = r.binning := by
  unfold Reference.binning
  split
  · rename_i hnil
    rw [hnil] at hf
    exact absurd hf List.not_mem_nil
  · rename_i g rest hcons
    exact h f hf g (by rw [hcons]; exact List.mem_cons_self)

/-- A running sum has a first frame. -/
theorem Follows.exists_first {h : PrvHst} {r : Reference} (hf : Follows h r) {sum : SumHistogram}
    (hsum : sum ∈ h.state.prvHstRunningSum) :
    ∃ f ∈ r.frames, f ∈ r.frames.head? ∧ sum.bin_size = f.histogram.bin_size := by
  cases hframes : r.frames with
  | nil =>
    have hnone := hf.accumulation.sum.absent.mpr (by rw [Reference.summed, hframes, List.map_nil])
    rw [hnone] at hsum
    cases hsum
  | cons f rest =>
    have hmem : f.histogram ∈ r.summed := by
      rw [Reference.summed, hframes]
      exact List.mem_cons_self
    exact ⟨f, List.mem_cons_self, rfl, ((hf.accumulation.sum.present sum hsum).1 _ hmem).symm⟩

theorem Labelled.ofBinning {h : PrvHst} {r : Reference} (hl : Labelled h r) (hone : r.OneBinning) :
    OfBinning r.binning h r where
  summed := hl.follows.accumulation.sum
  summed_binning _ hf := hone.eq_binning hf
  buffered := hl.follows.buffer
  buffered_binning f hf := hone.eq_binning (hl.follows.window_mem f hf)
  edges sum hsum := by
    obtain ⟨f, hf, hhead, -⟩ := hl.follows.exists_first hsum
    rw [hl.edges sum hsum f hhead, f.bin_edges_eq, ← hone.eq_binning hf]
    rfl

/-- The time axis of a state whose header has the bins of the frames. -/
theorem Follows.timeAxis_eq {h : PrvHst} {r : Reference} (hf : Follows h r) (hone : r.OneBinning)
    {sum : SumHistogram} (hsum : sum ∈ h.state.prvHstRunningSum)
    (hheader : ∀ f ∈ r.frames, h.state.prvHstFrameBinWidth = f.header.bin_width ∧
      h.state.prvHstFrameBinOffset = f.header.bin_offset) (tick : ℤ → ℤ → ℕ → ℤ) :
    h.state.timeAxis tick sum.bin_size = r.binning.timeAxis tick := by
  obtain ⟨f, hmem, -, hsize⟩ := hf.exists_first hsum
  obtain ⟨hwidth, hoffset⟩ := hheader f hmem
  rw [hsize, f.bin_size_eq, ← hone.eq_binning hmem]
  unfold PrvHstState.timeAxis
  rw [hwidth, hoffset]
  rfl

/-- Step lemma: an operation that keeps the binning leaves data of one binning, and a time axis that it gives
out is that of the data. -/
theorem Labelled.showsAxis {h : PrvHst} {r : Reference} (hl : Labelled h r) (hone : r.OneBinning) {op : Op}
    (hop : SameBinning r op) :
    ∃ h' out, Hst.step h op = some (h', out) ∧ OfBinning (r.step op).binning h' (r.step op) ∧
      ∀ o ∈ out, ShowsAxis (r.step op).binning op o := by
  have hone' := hone.step hop
  obtain ⟨h', out, hstep, hl'⟩ := hl.step op
  refine ⟨h', out, hstep, hl'.ofBinning hone', fun o ho => ?_⟩
  cases op with
  | frame f arrayCallbacks pool =>
    obtain ⟨h₁, out₁, hstep₁, hdone⟩ := hl.follows.frame f arrayCallbacks pool
    obtain ⟨rfl, rfl⟩ := Prod.mk.inj (Option.some.inj (hstep₁.symm.trans hstep))
    have hfrom := hdone.out o ho
    have hheader : ∀ g ∈ (r.step (.frame f arrayCallbacks pool)).frames,
        h₁.state.prvHstFrameBinWidth = g.header.bin_width ∧
          h₁.state.prvHstFrameBinOffset = g.header.bin_offset := by
      intro g hg
      have hbinning := hone' g hg f (List.mem_append_right _ List.mem_cons_self)
      rw [hdone.binWidth, hdone.binOffset]
      exact ⟨(congrArg Binning.binWidth hbinning).symm, (congrArg Binning.binOffset hbinning).symm⟩
    have haxis := hdone.follows.timeAxis_eq hone' hdone.runningSum hheader timeTick
    unfold ShowsAxis
    split
    · exact hfrom.trans haxis
    · exact hfrom.trans haxis
    · trivial
  | push outputType arrayCallbacks pool =>
    obtain ⟨h₁, out₁, hpush, hstate, htime, hout⟩ :=
      pushProcessedHstToPlugins_spec hl.follows.time_length outputType arrayCallbacks pool
    obtain ⟨rfl, rfl⟩ := Prod.mk.inj (Option.some.inj (hpush.symm.trans hstep))
    obtain ⟨sum, hsum, hpushed⟩ := hout o ho
    have hheader : ∀ g ∈ r.frames, h.state.prvHstFrameBinWidth = g.header.bin_width ∧
        h.state.prvHstFrameBinOffset = g.header.bin_offset := by
      intro g hg
      cases hlast : r.header with
      | none =>
        rw [hl.stored hlast] at hg
        exact absurd hg List.not_mem_nil
      | some header =>
        obtain ⟨hwidth, hoffset⟩ := hl.header header hlast
        obtain ⟨hwidth', hoffset'⟩ := hop header hlast g hg
        exact ⟨hwidth.trans hwidth'.symm, hoffset.trans hoffset'.symm⟩
    have haxis := hl.follows.timeAxis_eq hone hsum hheader pushTimeTick
    unfold ShowsAxis
    split
    · exact hpushed.elim
    · exact hpushed.trans haxis
    · trivial
  | dataReset value =>
    have hpair : writeDataReset h value = (h', out) := Option.some.inj hstep
    unfold writeDataReset at hpair
    by_cases hv : value = 1
    · rw [if_pos hv] at hpair
      obtain rfl : _ = out := congrArg Prod.snd hpair
      rcases List.mem_pair.mp ho with rfl | rfl
      · trivial
      · trivial
    · rw [if_neg hv] at hpair
      obtain rfl : _ = out := congrArg Prod.snd hpair
      exact absurd ho List.not_mem_nil
  | _ =>
    obtain rfl : _ = out := congrArg Prod.snd (Option.some.inj hstep)
    exact absurd ho List.not_mem_nil

/-! ## Runs -/

theorem run_advance (r : Reference) (ops : List Op) :
    run Reference.advance r ops = some (ops.foldl Reference.step r) := by
  induction ops generalizing r with
  | nil => rfl
  | cons op ops ih =>
    have hstep : Reference.advance r op = some (r.step op) := rfl
    rw [run_cons_of_some _ hstep, ih]
    rfl

theorem oneBinning_run {ops : List Op} (h : Guarded Reference.advance SameBinning .init ops) :
    (Reference.after ops).OneBinning := by
  have hinit : Reference.init.OneBinning := fun f hf => absurd hf List.not_mem_nil
  refine run_invariant (fun r op r' hr hop hstep => ?_) hinit h (run_advance .init ops)
  rw [← Option.some.inj hstep]
  exact hr.step hop

/-- In every run in which the width and the offset of the bins stay the same while data are kept, all data are
of one binning, and every time axis that is given out is that of the data. -/
theorem one_binning (ops : List Op) (op : Op)
    (hguard : Guarded Reference.advance SameBinning .init (ops ++ [op])) :
    ∃ h h' out, run stepState .init ops = some h ∧ step h op = some (h', out) ∧
      ∃ b, OfBinning b h' (Reference.after (ops ++ [op])) ∧ ∀ o ∈ out, ShowsAxis b op o := by
  obtain ⟨h, hrun, hl⟩ := labelled_run ops
  obtain ⟨h', out, hstep, hof, haxis⟩ :=
    hl.showsAxis (oneBinning_run hguard.init) (hguard.last (run_advance .init ops))
  rw [Reference.after, List.foldl_append]
  exact ⟨h, h', out, hrun, hstep, _, hof, haxis⟩

/-- Two frames of one binning and a push. -/
theorem one_binning_push :
    ∃ h h' out,
      run stepState .init
        [.frame (oneBin 8 [0, 0, 0, 5]) true ⟨true, true, true, true⟩, .acquireStop, .acquireStart,
          .frame (oneBin 8 [0, 0, 0, 7]) true ⟨true, true, true, true⟩] = some h ∧
      step h (.push 0 true ⟨true, true, true, true⟩) = some (h', out) ∧
      ∃ b, OfBinning b h' (Reference.after
          ([.frame (oneBin 8 [0, 0, 0, 5]) true ⟨true, true, true, true⟩, .acquireStop, .acquireStart,
            .frame (oneBin 8 [0, 0, 0, 7]) true ⟨true, true, true, true⟩] ++
            [.push 0 true ⟨true, true, true, true⟩])) ∧
        ∀ o ∈ out, ShowsAxis b (.push 0 true ⟨true, true, true, true⟩) o := by
  refine one_binning _ _ ⟨fun _ g hg => absurd hg List.not_mem_nil, ?_⟩
  rintro r hr
  obtain rfl := Option.some.inj hr
  refine ⟨trivial, fun r hr => ?_⟩
  obtain rfl := Option.some.inj hr
  refine ⟨trivial, fun r hr => ?_⟩
  obtain rfl := Option.some.inj hr
  have hwidth : ∀ g ∈ [oneBin 8 [0, 0, 0, 5], oneBin 8 [0, 0, 0, 7]],
      g.header.bin_width = 8 ∧ g.header.bin_offset = 0 := by
    intro g hg
    rcases List.mem_pair.mp hg with rfl | rfl
    · exact ⟨rfl, rfl⟩
    · exact ⟨rfl, rfl⟩
  refine ⟨fun _ g hg => ?_, fun r hr => ?_⟩
  · exact hwidth g (List.mem_cons.mpr (.inl (List.mem_singleton.mp hg)))
  · obtain rfl := Option.some.inj hr
    refine ⟨fun header hheader g hg => ?_, fun _ _ => trivial⟩
    rw [← Option.some.inj hheader]
    exact hwidth g hg

/-- Two frames of one bin whose widths differ are summed. -/
theorem binnings_mixed :
    ¬ ∀ ops op h h' out, run stepState .init ops = some h → step h op = some (h', out) →
      ∃ b, OfBinning b h' (Reference.after (ops ++ [op])) ∧ ∀ o ∈ out, ShowsAxis b op o := by
  intro hall
  obtain ⟨h, hrun, hl⟩ := labelled_run [.frame (oneBin 8 [0, 0, 0, 5]) true ⟨true, true, true, true⟩]
  obtain ⟨h', out, hstep, -⟩ := hl.step (.frame (oneBin 16 [0, 0, 0, 7]) true ⟨true, true, true, true⟩)
  obtain ⟨b, hof, -⟩ := hall _ _ h h' out hrun hstep
  have hfirst : (⟨1, 8, 0⟩ : Binning) = b := hof.summed_binning (oneBin 8 [0, 0, 0, 5]) List.mem_cons_self
  have hsecond : (⟨1, 16, 0⟩ : Binning) = b :=
    hof.summed_binning (oneBin 16 [0, 0, 0, 7]) (List.mem_cons_of_mem _ List.mem_cons_self)
  have hwidth : (8 : ℤ) = 16 := congrArg Binning.binWidth (hfirst.trans hsecond.symm)
  exact absurd hwidth (by decide)

end ADTimePix3.Hst
