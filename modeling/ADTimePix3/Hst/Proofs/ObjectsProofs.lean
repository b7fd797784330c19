import ADTimePix3.Hst.Objects

/-!
# The class `HistogramData` does what it is for

Programs over the class give the results of programs over values (`histogram_programs_refine`), as long as they do
not read what a move has left; the vectors of the other type may hold anything. No program on live objects does what is
undefined: the loop of `add_histogram`, which nothing checks, stays within both vectors
(`program_defined_iff_onLive`).
-/

namespace ADTimePix3.Hst

open Buffers Counts Objects Runs

namespace HistogramData

/-! ## What an object holds -/

structure HoldsFrame (c : HistogramData) (h : FrameHistogram) : Prop where
  type : c.data_type_ = .FRAME_DATA
  size : c.bin_size_ = h.bin_size
  edges : c.bin_edges_ = h.bin_edges
  values : c.bin_values_32_ = h.bin_values_32

structure HoldsSum (c : HistogramData) (s : SumHistogram) : Prop where
  type : c.data_type_ = .RUNNING_SUM
  size : c.bin_size_ = s.bin_size
  edges : c.bin_edges_ = s.bin_edges
  values : c.bin_values_64_ = s.bin_values_64

def Holds (c : HistogramData) : HistogramSpec → Prop
  | .frame h => c.HoldsFrame h
  | .sum s => c.HoldsSum s
  | .moved => c.data_type_ = .FRAME_DATA ∧ c.bin_size_ = 0

variable {c d : HistogramData} {a b : HistogramSpec} {h : FrameHistogram} {s : SumHistogram}

theorem HoldsFrame.type_ne (hc : c.HoldsFrame h) : c.data_type_ ≠ .RUNNING_SUM := by
  rw [hc.type]
  exact DataType.noConfusion

theorem HoldsSum.type_ne (hc : c.HoldsSum s) : c.data_type_ ≠ .FRAME_DATA := by
  rw [hc.type]
  exact DataType.noConfusion

theorem construct_refines (args : HistogramArgs) :
    (construct args).Refines Holds (HistogramSpec.construct args) := by
  obtain ⟨bin_size, type, allocated⟩ := args
  unfold construct HistogramSpec.construct
  cases allocated with
  | false => trivial
  | true =>
    rw [if_pos rfl, if_pos rfl]
    cases type with
    | FRAME_DATA => exact ⟨rfl, List.length_replicate.symm, rfl, rfl⟩
    | RUNNING_SUM => exact ⟨rfl, List.length_replicate.symm, rfl, rfl⟩

/-- What is copied is the vector in use. -/
theorem holds_assign_other (this : HistogramData) (hd : d.Holds b) : (assign false this d).Holds b := by
  cases b with
  | frame h => exact ⟨hd.type, hd.size, hd.edges, (if_pos hd.type).trans hd.values⟩
  | sum s => exact ⟨hd.type, hd.size, hd.edges, (if_neg (HoldsSum.type_ne hd)).trans hd.values⟩
  | moved => exact hd

theorem holds_copy (hc : c.Holds a) : c.copy.Holds a :=
  holds_assign_other ⟨0, .FRAME_DATA, [], [], []⟩ hc

theorem holds_movedFrom (left : HistogramLeft) : (movedFrom left).Holds .moved := ⟨rfl, rfl⟩

theorem holds_assign (same : Bool) (hc : c.Holds a) (hd : d.Holds b) :
    (assign same c d).Holds (if same then a else b) := by
  cases same
  · exact holds_assign_other c hd
  · exact hc

theorem holds_moveAssign (left : HistogramLeft) (same : Bool) (hc : c.Holds a) (hd : d.Holds b) :
    (moveAssign left same c d).1.Holds (histogramSpec.moveAssign () same a b).1 ∧
      (moveAssign left same c d).2.Holds (histogramSpec.moveAssign () same a b).2 := by
  cases same
  · exact ⟨hd, holds_movedFrom left⟩
  · exact ⟨hc, hd⟩

/-! ## Calls -/

/-- What is asked of a call. -/
abbrev CallRefines : Outcome (HistogramData × HistogramValue) → Outcome (HistogramSpec × HistogramValue) → Prop :=
  Outcome.Refines fun r r' => r.1.Holds r'.1 ∧ r.2 = r'.2

/-- A call that checks its index, on both sides. -/
theorem checked_refines {p q : Prop} [Decidable p] [Decidable q] (hpq : p ↔ ¬ q)
    {o : Outcome (HistogramData × HistogramValue)} {o' : Outcome (HistogramSpec × HistogramValue)}
    (hrefines : q → CallRefines o o') :
    CallRefines (if p then .throws else o) (if q then o' else .throws) := by
  by_cases hq : q
  · rw [if_neg fun hp => hpq.mp hp hq, if_pos hq]
    exact hrefines hq
  · rw [if_pos (hpq.mpr hq), if_neg hq]
    trivial

theorem call_frame_refines (m : HistogramCall) (hc : c.HoldsFrame h) :
    CallRefines (call m c d) (HistogramSpec.callFrame h m) := by
  have hsum := hc.type_ne
  have hin : ∀ index, (c.data_type_ ≠ .FRAME_DATA ∨ index ≥ c.bin_values_32_.length) ↔
      ¬ index < h.bin_size := by
    intro index
    rw [hc.type, hc.values, FrameHistogram.bin_size]
    simp
  cases m with
  | get_bin_size => exact ⟨hc, congrArg HistogramValue.number hc.size⟩
  | get_data_type => exact ⟨hc, congrArg HistogramValue.type hc.type⟩
  | get_bin_edges => exact ⟨hc, congrArg HistogramValue.edges hc.edges⟩
  | get_bin_value_32 index =>
    refine checked_refines (hin index) fun _ => ⟨hc, ?_⟩
    rw [hc.values]
  | get_bin_value_64 index => exact Outcome.refines_throws (if_pos (Or.inl hsum))
  | set_bin_edge index value =>
    refine checked_refines (by rw [hc.edges]; exact Nat.not_lt.symm) fun _ => ⟨?_, rfl⟩
    refine ⟨hc.type, hc.size, ?_, hc.values⟩
    exact congrArg (List.set · index value) hc.edges
  | set_bin_value_32 index value =>
    refine checked_refines (hin index) fun _ => ⟨?_, rfl⟩
    refine ⟨hc.type, ?_, hc.edges, ?_⟩
    · rw [FrameHistogram.bin_size, FrameHistogram.setBin, List.length_set]
      exact hc.size
    · exact congrArg (List.set · index (value % 2 ^ 32)) hc.values
  | set_bin_value_64 index value => exact Outcome.refines_throws (if_pos (Or.inl hsum))
  | calculate_bin_edges bin_width bin_offset =>
    refine ⟨⟨hc.type, hc.size, ?_, hc.values⟩, rfl⟩
    exact congrArg (fun edges => calculatedEdges (List.length edges) bin_width bin_offset) hc.edges
  | add_histogram => exact Outcome.refines_throws (if_pos (Or.inr hsum))

theorem add_histogram_eq {values sums : List ℕ} (hc : c.data_type_ = .RUNNING_SUM)
    (hd : d.data_type_ = .FRAME_DATA) (hsize : d.bin_size_ = c.bin_size_)
    (hread : readFirst d.bin_values_32_ c.bin_size_ = some values)
    (hcombine : combine (satAdd (2 ^ 64)) c.bin_values_64_ values = some sums) :
    c.add_histogram d = .returns ({ c with bin_values_64_ := sums }, .void) := by
  unfold add_histogram
  rw [if_neg (by rw [hc, hd]; simp), if_neg (fun hne => hne hsize), hread]
  simp only [Option.bind_eq_bind, Option.bind_some, hcombine]

theorem add_histogram_throws (hsize : d.bin_size_ ≠ c.bin_size_) :
    c.add_histogram d = .throws := by
  unfold add_histogram
  by_cases htypes : d.data_type_ ≠ .FRAME_DATA ∨ c.data_type_ ≠ .RUNNING_SUM
  · rw [if_pos htypes]
  · rw [if_neg htypes, if_pos hsize]

/-- The loop of `add_histogram` over a frame with the same number of bins. -/
theorem add_frame_refines (hc : c.HoldsSum s) (hd : d.HoldsFrame h) :
    CallRefines (c.add_histogram d) (HistogramSpec.callSum s (.frame h) .add_histogram) := by
  simp only [HistogramSpec.callSum, SumHistogram.add_histogram]
  by_cases hsize : h.bin_size = s.bin_size
  · have hlength : h.bin_values_32.length = s.bin_values_64.length := hsize
    have hread : readFirst d.bin_values_32_ c.bin_size_ = some h.bin_values_32 := by
      rw [hd.values, hc.size, ← hsize, FrameHistogram.bin_size, readFirst_of_le (Nat.le_refl _),
        List.take_length]
    have hcombine : combine (satAdd (2 ^ 64)) c.bin_values_64_ h.bin_values_32 =
        some (List.zipWith (satAdd (2 ^ 64)) s.bin_values_64 h.bin_values_32) := by
      unfold combine
      rw [hc.values, if_pos (le_of_eq hlength), hlength, List.drop_length, List.append_nil]
    rw [add_histogram_eq hc.type hd.type (by rw [hc.size, hd.size, hsize]) hread hcombine, if_pos hsize]
    refine ⟨⟨hc.type, ?_, hc.edges, rfl⟩, rfl⟩
    show c.bin_size_ = (List.zipWith (satAdd (2 ^ 64)) s.bin_values_64 h.bin_values_32).length
    rw [hc.size, List.length_zipWith, hlength, Nat.min_self, SumHistogram.bin_size]
  · rw [add_histogram_throws (by rw [hc.size, hd.size]; exact hsize), if_neg hsize]
    trivial

/-- Nothing is added of what a move has left. -/
theorem add_moved_refines (hc : c.HoldsSum s) (hd : d.Holds .moved) :
    CallRefines (c.add_histogram d) (HistogramSpec.callSum s .moved .add_histogram) := by
  simp only [HistogramSpec.callSum]
  by_cases hzero : s.bin_size = 0
  · have hread : readFirst d.bin_values_32_ c.bin_size_ = some [] := by
      rw [hc.size, hzero]
      rfl
    have hcombine : combine (satAdd (2 ^ 64)) c.bin_values_64_ [] = some c.bin_values_64_ := by
      have hle : ([] : List ℕ).length ≤ c.bin_values_64_.length := Nat.zero_le _
      unfold combine
      rw [if_pos hle, List.zipWith_nil_right]
      rfl
    rw [add_histogram_eq hc.type hd.1 (by rw [hc.size, hd.2, hzero]) hread hcombine, if_pos hzero]
    exact ⟨⟨hc.type, hc.size, hc.edges, hc.values⟩, rfl⟩
  · have hsize : d.bin_size_ ≠ c.bin_size_ := by
      rw [hc.size, hd.2]
      exact fun heq => hzero heq.symm
    rw [add_histogram_throws hsize, if_neg hzero]
    trivial

theorem call_sum_refines (m : HistogramCall) (hc : c.HoldsSum s) (hd : d.Holds b) :
    CallRefines (call m c d) (HistogramSpec.callSum s b m) := by
  have hframe := hc.type_ne
  have hin : ∀ index, (c.data_type_ ≠ .RUNNING_SUM ∨ index ≥ c.bin_values_64_.length) ↔
      ¬ index < s.bin_size := by
    intro index
    rw [hc.type, hc.values, SumHistogram.bin_size]
    simp
  cases m with
  | get_bin_size => exact ⟨hc, congrArg HistogramValue.number hc.size⟩
  | get_data_type => exact ⟨hc, congrArg HistogramValue.type hc.type⟩
  | get_bin_edges => exact ⟨hc, congrArg HistogramValue.edges hc.edges⟩
  | get_bin_value_32 index => exact Outcome.refines_throws (if_pos (Or.inl hframe))
  | get_bin_value_64 index =>
    refine checked_refines (hin index) fun _ => ⟨hc, ?_⟩
    rw [hc.values]
  | set_bin_edge index value =>
    refine checked_refines (by rw [hc.edges]; exact Nat.not_lt.symm) fun _ => ⟨?_, rfl⟩
    refine ⟨hc.type, hc.size, ?_, hc.values⟩
    exact congrArg (List.set · index value) hc.edges
  | set_bin_value_32 index value => exact Outcome.refines_throws (if_pos (Or.inl hframe))
  | set_bin_value_64 index value =>
    refine checked_refines (hin index) fun _ => ⟨?_, rfl⟩
    refine ⟨hc.type, ?_, hc.edges, ?_⟩
    · rw [SumHistogram.bin_size, List.length_set]
      exact hc.size
    · exact congrArg (List.set · index (value % 2 ^ 64)) hc.values
  | calculate_bin_edges bin_width bin_offset =>
    refine ⟨⟨hc.type, hc.size, ?_, hc.values⟩, rfl⟩
    exact congrArg (fun edges => calculatedEdges (List.length edges) bin_width bin_offset) hc.edges
  | add_histogram =>
    cases b with
    | frame h => exact add_frame_refines hc hd
    | moved => exact add_moved_refines hc hd
    | sum s' => exact Outcome.refines_throws (if_pos (Or.inl (HoldsSum.type_ne hd)))

theorem call_moved_refines (m : HistogramCall) (hc : c.Holds .moved) :
    CallRefines (call m c d) (HistogramSpec.callMoved m) := by
  have hsum : c.data_type_ ≠ .RUNNING_SUM := by
    rw [hc.1]
    exact DataType.noConfusion
  cases m with
  | get_bin_size => exact ⟨hc, congrArg HistogramValue.number hc.2⟩
  | get_data_type => exact ⟨hc, congrArg HistogramValue.type hc.1⟩
  | get_bin_value_64 index => exact Outcome.refines_throws (if_pos (Or.inl hsum))
  | set_bin_value_64 index value => exact Outcome.refines_throws (if_pos (Or.inl hsum))
  | calculate_bin_edges bin_width bin_offset => exact ⟨hc, rfl⟩
  | add_histogram => exact Outcome.refines_throws (if_pos (Or.inr hsum))
  | _ => exact Outcome.refines_undefined _

theorem call_refines (m : HistogramCall) (hc : c.Holds a) (hd : d.Holds b) :
    CallRefines (call m c d) (HistogramSpec.call m a b) := by
  cases a with
  | frame h => exact call_frame_refines m hc
  | sum s => exact call_sum_refines m hc hd
  | moved => exact call_moved_refines m hc

end HistogramData

theorem histogramClass_refines : Refines histogramClass histogramSpec HistogramData.Holds where
  construct := HistogramData.construct_refines
  copy := HistogramData.holds_copy
  move := fun left _ _ h => ⟨h, HistogramData.holds_movedFrom left⟩
  assign := fun same _ _ _ _ hc hd => HistogramData.holds_assign same hc hd
  moveAssign := fun left same _ _ _ _ hc hd => HistogramData.holds_moveAssign left same hc hd
  call := fun m _ _ _ _ hc hd => HistogramData.call_refines m hc hd

/-- A program that is defined on values, and so does not look at what a move has left, is defined on the class: its
objects hold the values, and its calls return the same, exceptions included. -/
theorem histogram_programs_refine (ops : List (Objects.Op HistogramArgs HistogramCall HistogramLeft))
    (t : Store HistogramSpec HistogramValue)
    (ht : run (Objects.step histogramSpec) .init (ops.map Objects.Op.erase) = some t) :
    ∃ s, run (Objects.step histogramClass) .init ops = some s ∧ Store.Refines HistogramData.Holds s t :=
  run_refines histogramClass_refines ht

/-- A frame of two bins is added to a running sum and then moved from; the move leaves its bins. -/
def twoBinsProgram : List (Objects.Op HistogramArgs HistogramCall HistogramLeft) :=
  [.construct 0 ⟨2, .RUNNING_SUM, true⟩, .construct 1 ⟨2, .FRAME_DATA, true⟩, .call 1 1 (.set_bin_value_32 1 7),
    .call 0 1 .add_histogram, .move 2 1 ⟨[0, 0, 0], [0, 7], []⟩, .call 0 0 (.get_bin_value_64 1),
    .call 0 1 .add_histogram]

theorem histogram_programs_refine_twoBins :
    ∃ s t, run (Objects.step histogramSpec) .init (twoBinsProgram.map Objects.Op.erase) = some t ∧
      t.log = [some .void, some .void, some (.number 7), none] ∧
      run (Objects.step histogramClass) .init twoBinsProgram = some s ∧
      Store.Refines HistogramData.Holds s t := by
  have hsome : ∃ t, run (Objects.step histogramSpec) .init (twoBinsProgram.map Objects.Op.erase) = some t ∧
      t.log = [some .void, some .void, some (.number 7), none] := ⟨_, rfl, rfl⟩
  obtain ⟨t, ht, hlog⟩ := hsome
  obtain ⟨s, hs, hst⟩ := histogram_programs_refine twoBinsProgram t ht
  exact ⟨s, t, ht, hlog, hs, hst⟩

/-! ## Every program is defined -/

namespace HistogramData

/-- The vector in use has a value for every bin. -/
structure Covered (c : HistogramData) : Prop where
  frame : c.data_type_ = .FRAME_DATA → c.bin_size_ ≤ c.bin_values_32_.length
  sum : c.data_type_ = .RUNNING_SUM → c.bin_size_ ≤ c.bin_values_64_.length

variable {c d : HistogramData}

theorem covered_construct (args : HistogramArgs) : (construct args).Satisfies Covered := by
  unfold construct
  refine Outcome.satisfies_ite ⟨?_, ?_⟩ trivial
  · intro htype
    show args.bin_size ≤ (ite _ _ _ : List ℕ).length
    rw [if_pos htype, List.length_replicate]
  · intro htype
    have hframe : args.type ≠ .FRAME_DATA := by
      rw [show args.type = .RUNNING_SUM from htype]
      exact DataType.noConfusion
    show args.bin_size ≤ (ite _ _ _ : List ℕ).length
    rw [if_neg hframe, List.length_replicate]

theorem covered_assign_other (this : HistogramData) (hd : d.Covered) : (assign false this d).Covered where
  frame := by
    intro htype
    have hframe : d.data_type_ = .FRAME_DATA := htype
    show d.bin_size_ ≤ (ite _ _ _ : List ℕ).length
    rw [if_pos hframe]
    exact hd.frame hframe
  sum := by
    intro htype
    have hframe : d.data_type_ ≠ .FRAME_DATA := by
      rw [show d.data_type_ = .RUNNING_SUM from htype]
      exact DataType.noConfusion
    show d.bin_size_ ≤ (ite _ _ _ : List ℕ).length
    rw [if_neg hframe]
    exact hd.sum htype

theorem covered_movedFrom (left : HistogramLeft) : (movedFrom left).Covered where
  frame := fun _ => Nat.zero_le _
  sum := fun htype => DataType.noConfusion htype

/-- The loop of `add_histogram` stays within both vectors. -/
theorem covered_add_histogram (hc : c.Covered) (hd : d.Covered) :
    (c.add_histogram d).Satisfies fun r => r.1.Covered := by
  by_cases htypes : d.data_type_ ≠ .FRAME_DATA ∨ c.data_type_ ≠ .RUNNING_SUM
  · have hthrows : c.add_histogram d = .throws := if_pos htypes
    rw [hthrows]
    trivial
  obtain ⟨hframe, hsum⟩ : d.data_type_ = .FRAME_DATA ∧ c.data_type_ = .RUNNING_SUM := by
    simpa using htypes
  by_cases hsize : d.bin_size_ = c.bin_size_
  · have hvalues : c.bin_size_ ≤ d.bin_values_32_.length := hsize ▸ hd.frame hframe
    have hle := hc.sum hsum
    have hlength : (d.bin_values_32_.take c.bin_size_).length = c.bin_size_ := by
      rw [List.length_take, Nat.min_eq_left hvalues]
    have hcombine : combine (satAdd (2 ^ 64)) c.bin_values_64_ (d.bin_values_32_.take c.bin_size_) =
        some (List.zipWith (satAdd (2 ^ 64)) c.bin_values_64_ (d.bin_values_32_.take c.bin_size_) ++
          c.bin_values_64_.drop (d.bin_values_32_.take c.bin_size_).length) := if_pos (by rwa [hlength])
    rw [add_histogram_eq hsum hframe hsize (readFirst_of_le hvalues) hcombine]
    refine ⟨fun htype => absurd (hsum.symm.trans htype) DataType.noConfusion, fun _ => ?_⟩
    show c.bin_size_ ≤ (_ ++ _ : List ℕ).length
    rw [List.length_append, List.length_zipWith, List.length_drop]
    omega
  · rw [add_histogram_throws hsize]
    trivial

theorem covered_call (m : HistogramCall) (hc : c.Covered) (hd : d.Covered) :
    (call m c d).Satisfies fun r => r.1.Covered := by
  cases m with
  | get_bin_value_32 index => exact Outcome.satisfies_ite trivial hc
  | get_bin_value_64 index => exact Outcome.satisfies_ite trivial hc
  | set_bin_edge index value => exact Outcome.satisfies_ite trivial ⟨hc.frame, hc.sum⟩
  | set_bin_value_32 index value =>
    refine Outcome.satisfies_ite trivial ⟨?_, hc.sum⟩
    intro htype
    rw [List.length_set]
    exact hc.frame htype
  | set_bin_value_64 index value =>
    refine Outcome.satisfies_ite trivial ⟨hc.frame, ?_⟩
    intro htype
    rw [List.length_set]
    exact hc.sum htype
  | calculate_bin_edges bin_width bin_offset => exact ⟨hc.frame, hc.sum⟩
  | add_histogram => exact covered_add_histogram hc hd
  | _ => exact hc

end HistogramData

theorem histogramClass_sound :
    Sound histogramClass HistogramData.Covered (fun _ => True) (fun _ => True) where
  construct := fun args _ => HistogramData.covered_construct args
  copy := fun h => HistogramData.covered_assign_other ⟨0, .FRAME_DATA, [], [], []⟩ h
  move := fun left _ h => ⟨h, HistogramData.covered_movedFrom left⟩
  assign := by
    intro same c d hc hd
    cases same
    · exact HistogramData.covered_assign_other c hd
    · exact hc
  moveAssign := by
    intro left same c d hc hd
    cases same
    · exact ⟨hd, HistogramData.covered_movedFrom left⟩
    · exact ⟨hc, hd⟩
  call := by
    intro m c d r hc hd hr
    have hcovered := HistogramData.covered_call m hc hd
    rwa [show HistogramData.call m c d = .returns r from hr] at hcovered
  checked_call := by
    intro m c d _ hc hd hundefined
    have hcovered := HistogramData.covered_call m hc hd
    rwa [show HistogramData.call m c d = .undefined from hundefined] at hcovered

/-- A program is defined exactly when it is on live objects, whatever its moves leave and whatever it does with
that. -/
theorem program_defined_iff_onLive (ops : List (Objects.Op HistogramArgs HistogramCall HistogramLeft)) :
    (run (Objects.step histogramClass) .init ops).isSome ↔
      Guarded (Objects.step histogramClass) OnLive .init ops := by
  refine run_isSome_iff_onLive histogramClass_sound fun op _ => ?_
  cases op <;> trivial

end ADTimePix3.Hst
