import ADTimePix3.Hst.HistogramData
import ADTimePix3.Lib.Buffers
import ADTimePix3.Lib.Objects

/-!
# The class `HistogramData`

`HistogramData` as `histogram_io.cpp` has it: the edges and two vectors of bin values, of which the type says which
one is in use. A copy takes over the vector in use only, and a read of a bin is checked against the vector and not
against `bin_size_`. `FrameHistogram` and `SumHistogram` are what the class is for (`histogramSpec`); bin edges are
tick numbers here too.
-/

namespace ADTimePix3.Hst

open Buffers Counts Objects
open Img (toUInt64)

/-- `HistogramData::DataType`. -/
inductive DataType where
  | FRAME_DATA
  | RUNNING_SUM
deriving DecidableEq

structure HistogramData where
  bin_size_ : ℕ
  data_type_ : DataType
  bin_edges_ : List ℕ
  bin_values_32_ : List ℕ
  bin_values_64_ : List ℕ
deriving DecidableEq

/-- The arguments of the constructor, and whether the memory for the vectors is there. -/
structure HistogramArgs where
  bin_size : ℕ
  type : DataType
  allocated : Bool

inductive HistogramCall where
  | get_bin_size
  | get_data_type
  | get_bin_edges
  | get_bin_value_32 (index : ℕ)
  | get_bin_value_64 (index : ℕ)
  | set_bin_edge (index value : ℕ)
  | set_bin_value_32 (index value : ℕ)
  | set_bin_value_64 (index value : ℕ)
  | calculate_bin_edges (bin_width bin_offset : ℤ)
  | add_histogram

inductive HistogramValue where
  | number (n : ℕ)
  | type (type : DataType)
  | edges (edges : List ℕ)
  | void
deriving DecidableEq

/-- What a move may leave in the three vectors. -/
structure HistogramLeft where
  bin_edges_ : List ℕ
  bin_values_32_ : List ℕ
  bin_values_64_ : List ℕ

/-- `bin_edges_.resize(bin_size + 1)`, in `size_t` arithmetic. -/
def zeroEdges (bin_size : ℕ) : List ℕ := List.replicate ((bin_size + 1) % 2 ^ 64) 0

/-- The edges that `calculate_bin_edges` puts into a vector of a length. -/
def calculatedEdges (length : ℕ) (bin_width bin_offset : ℤ) : List ℕ :=
  (List.range length).map fun i => (toUInt64 bin_offset + i * toUInt64 bin_width) % 2 ^ 64

namespace HistogramData

def construct (args : HistogramArgs) : Outcome HistogramData :=
  if args.allocated then
    .returns
      { bin_size_ := args.bin_size
        data_type_ := args.type
        bin_edges_ := zeroEdges args.bin_size
        bin_values_32_ := if args.type = .FRAME_DATA then List.replicate args.bin_size 0 else []
        bin_values_64_ := if args.type = .FRAME_DATA then [] else List.replicate args.bin_size 0 }
  else .throws

def copy (other : HistogramData) : HistogramData where
  bin_size_ := other.bin_size_
  data_type_ := other.data_type_
  bin_edges_ := other.bin_edges_
  bin_values_32_ := if other.data_type_ = .FRAME_DATA then other.bin_values_32_ else []
  bin_values_64_ := if other.data_type_ = .FRAME_DATA then [] else other.bin_values_64_

/-- An object that has been moved from. -/
def movedFrom (left : HistogramLeft) : HistogramData where
  bin_size_ := 0
  data_type_ := .FRAME_DATA
  bin_edges_ := left.bin_edges_
  bin_values_32_ := left.bin_values_32_
  bin_values_64_ := left.bin_values_64_

def move (left : HistogramLeft) (other : HistogramData) : HistogramData × HistogramData :=
  (other, movedFrom left)

/-- `operator=(const HistogramData&)`. The vector that is not in use stays. -/
def assign (same : Bool) (this other : HistogramData) : HistogramData :=
  if same then this
  else
    { bin_size_ := other.bin_size_
      data_type_ := other.data_type_
      bin_edges_ := other.bin_edges_
      bin_values_32_ := if other.data_type_ = .FRAME_DATA then other.bin_values_32_ else this.bin_values_32_
      bin_values_64_ := if other.data_type_ = .FRAME_DATA then this.bin_values_64_ else other.bin_values_64_ }

/-- `operator=(HistogramData&&)`. -/
def moveAssign (left : HistogramLeft) (same : Bool) (this other : HistogramData) :
    HistogramData × HistogramData :=
  if same then (this, other) else (other, movedFrom left)

def get_bin_value_32 (c : HistogramData) (index : ℕ) : Outcome (HistogramData × HistogramValue) :=
  if c.data_type_ ≠ .FRAME_DATA ∨ index ≥ c.bin_values_32_.length then .throws
  else .returns (c, .number (c.bin_values_32_.getD index 0))

def get_bin_value_64 (c : HistogramData) (index : ℕ) : Outcome (HistogramData × HistogramValue) :=
  if c.data_type_ ≠ .RUNNING_SUM ∨ index ≥ c.bin_values_64_.length then .throws
  else .returns (c, .number (c.bin_values_64_.getD index 0))

def set_bin_edge (c : HistogramData) (index value : ℕ) : Outcome (HistogramData × HistogramValue) :=
  if index ≥ c.bin_edges_.length then .throws
  else .returns ({ c with bin_edges_ := c.bin_edges_.set index value }, .void)

def set_bin_value_32 (c : HistogramData) (index value : ℕ) : Outcome (HistogramData × HistogramValue) :=
  if c.data_type_ ≠ .FRAME_DATA ∨ index ≥ c.bin_values_32_.length then .throws
  else .returns ({ c with bin_values_32_ := c.bin_values_32_.set index (value % 2 ^ 32) }, .void)

def set_bin_value_64 (c : HistogramData) (index value : ℕ) : Outcome (HistogramData × HistogramValue) :=
  if c.data_type_ ≠ .RUNNING_SUM ∨ index ≥ c.bin_values_64_.length then .throws
  else .returns ({ c with bin_values_64_ := c.bin_values_64_.set index (value % 2 ^ 64) }, .void)

/-- The loop goes through both vectors without a check. -/
def add_histogram (c other : HistogramData) : Outcome (HistogramData × HistogramValue) :=
  if other.data_type_ ≠ .FRAME_DATA ∨ c.data_type_ ≠ .RUNNING_SUM then .throws
  else if other.bin_size_ ≠ c.bin_size_ then .throws
  else
    match (do
      let values ← readFirst other.bin_values_32_ c.bin_size_
      combine (satAdd (2 ^ 64)) c.bin_values_64_ values : Option (List ℕ)) with
    | none => .undefined
    | some sums => .returns ({ c with bin_values_64_ := sums }, .void)

def call : HistogramCall → HistogramData → HistogramData → Outcome (HistogramData × HistogramValue)
  | .get_bin_size, c, _ => .returns (c, .number c.bin_size_)
  | .get_data_type, c, _ => .returns (c, .type c.data_type_)
  | .get_bin_edges, c, _ => .returns (c, .edges c.bin_edges_)
  | .get_bin_value_32 index, c, _ => c.get_bin_value_32 index
  | .get_bin_value_64 index, c, _ => c.get_bin_value_64 index
  | .set_bin_edge index value, c, _ => c.set_bin_edge index value
  | .set_bin_value_32 index value, c, _ => c.set_bin_value_32 index value
  | .set_bin_value_64 index value, c, _ => c.set_bin_value_64 index value
  | .calculate_bin_edges bin_width bin_offset, c, _ =>
    .returns ({ c with bin_edges_ := calculatedEdges c.bin_edges_.length bin_width bin_offset }, .void)
  | .add_histogram, c, other => c.add_histogram other

end HistogramData

/-- The class as it is written. -/
def histogramClass : Class HistogramData HistogramArgs HistogramCall HistogramValue HistogramLeft where
  construct := HistogramData.construct
  copy := HistogramData.copy
  move := HistogramData.move
  assign := HistogramData.assign
  moveAssign := HistogramData.moveAssign
  call := HistogramData.call

/-! ## What the class is for -/

/-- A histogram, or what a move has left. -/
inductive HistogramSpec where
  | frame (frame : FrameHistogram)
  | sum (sum : SumHistogram)
  | moved

def FrameHistogram.setBin (h : FrameHistogram) (index value : ℕ) : FrameHistogram where
  bin_edges := h.bin_edges
  bin_values_32 := h.bin_values_32.set index (value % 2 ^ 32)
  value_lt := by
    intro v hv
    rcases List.mem_or_eq_of_mem_set hv with hv | rfl
    · exact h.value_lt v hv
    · exact Nat.mod_lt _ (by decide)

def FrameHistogram.blank (bin_size : ℕ) : FrameHistogram where
  bin_edges := zeroEdges bin_size
  bin_values_32 := List.replicate bin_size 0
  value_lt := by
    intro v hv
    rw [List.eq_of_mem_replicate hv]
    decide

namespace HistogramSpec

def construct (args : HistogramArgs) : Outcome HistogramSpec :=
  if args.allocated then
    match args.type with
    | .FRAME_DATA => .returns (frame (.blank args.bin_size))
    | .RUNNING_SUM => .returns (sum ⟨zeroEdges args.bin_size, List.replicate args.bin_size 0⟩)
  else .throws

/-- The calls on a frame. -/
def callFrame (h : FrameHistogram) : HistogramCall → Outcome (HistogramSpec × HistogramValue)
  | .get_bin_size => .returns (frame h, .number h.bin_size)
  | .get_data_type => .returns (frame h, .type .FRAME_DATA)
  | .get_bin_edges => .returns (frame h, .edges h.bin_edges)
  | .get_bin_value_32 index =>
    if index < h.bin_size then .returns (frame h, .number (h.bin_values_32.getD index 0)) else .throws
  | .set_bin_edge index value =>
    if index < h.bin_edges.length then
      .returns (frame { h with bin_edges := h.bin_edges.set index value }, .void)
    else .throws
  | .set_bin_value_32 index value =>
    if index < h.bin_size then .returns (frame (h.setBin index value), .void) else .throws
  | .calculate_bin_edges bin_width bin_offset =>
    .returns (frame { h with bin_edges := calculatedEdges h.bin_edges.length bin_width bin_offset }, .void)
  | .get_bin_value_64 _ => .throws
  | .set_bin_value_64 _ _ => .throws
  | .add_histogram => .throws

/-- The calls on a running sum, with the other histogram. -/
def callSum (s : SumHistogram) (other : HistogramSpec) : HistogramCall → Outcome (HistogramSpec × HistogramValue)
  | .get_bin_size => .returns (sum s, .number s.bin_size)
  | .get_data_type => .returns (sum s, .type .RUNNING_SUM)
  | .get_bin_edges => .returns (sum s, .edges s.bin_edges)
  | .get_bin_value_64 index =>
    if index < s.bin_size then .returns (sum s, .number (s.bin_values_64.getD index 0)) else .throws
  | .set_bin_edge index value =>
    if index < s.bin_edges.length then
      .returns (sum { s with bin_edges := s.bin_edges.set index value }, .void)
    else .throws
  | .set_bin_value_64 index value =>
    if index < s.bin_size then
      .returns (sum { s with bin_values_64 := s.bin_values_64.set index (value % 2 ^ 64) }, .void)
    else .throws
  | .calculate_bin_edges bin_width bin_offset =>
    .returns (sum { s with bin_edges := calculatedEdges s.bin_edges.length bin_width bin_offset }, .void)
  | .get_bin_value_32 _ => .throws
  | .set_bin_value_32 _ _ => .throws
  | .add_histogram =>
    match other with
    | frame h =>
      match s.add_histogram h with
      | none => .throws
      | some s => .returns (sum s, .void)
    | sum _ => .throws
    | moved => if s.bin_size = 0 then .returns (sum s, .void) else .throws

/-- A histogram that has been moved from is a frame without bins, but what a read of its bins or edges gives is not
specified, nor whether there is anything to write to. -/
def callMoved : HistogramCall → Outcome (HistogramSpec × HistogramValue)
  | .get_bin_size => .returns (moved, .number 0)
  | .get_data_type => .returns (moved, .type .FRAME_DATA)
  | .get_bin_value_64 _ => .throws
  | .set_bin_value_64 _ _ => .throws
  | .calculate_bin_edges _ _ => .returns (moved, .void)
  | .add_histogram => .throws
  | .get_bin_edges => .undefined
  | .get_bin_value_32 _ => .undefined
  | .set_bin_edge _ _ => .undefined
  | .set_bin_value_32 _ _ => .undefined

def call (m : HistogramCall) : HistogramSpec → HistogramSpec → Outcome (HistogramSpec × HistogramValue)
  | frame h, _ => callFrame h m
  | sum s, other => callSum s other m
  | moved, _ => callMoved m

end HistogramSpec

/-- Histograms as values. -/
def histogramSpec : Class HistogramSpec HistogramArgs HistogramCall HistogramValue Unit where
  construct := HistogramSpec.construct
  copy := fun a => a
  move := fun _ a => (a, .moved)
  assign := fun same a b => if same then a else b
  moveAssign := fun _ same a b => if same then (a, b) else (b, .moved)
  call := HistogramSpec.call

end ADTimePix3.Hst
