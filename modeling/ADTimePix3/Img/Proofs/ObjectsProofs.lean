import ADTimePix3.Img.Objects
import Mathlib.Data.List.GetD

/-!
# The class `ImageData` does what it is for

An object `Holds` an image when the vector in use starts with the image's pixels; what lies behind them, and in
the other vectors, does not matter. Every member keeps this as long as the pixels of an image can be counted in a
`size_t`, so programs over the class give the results of programs over values (`programs_refine`). A larger image
is one whose last pixel lies outside its vector, so the bound is exact (`checked_calls_defined_iff`).
-/

namespace ADTimePix3.Img

open Buffers Counts Objects Runs

/-! ## What an object holds -/

namespace ImageData

structure HoldsFrame (c : ImageData) (f : Frame) : Prop where
  type : c.data_type_ = .FRAME_DATA
  width : c.width_ = f.width
  height : c.height_ = f.height
  format : c.pixel_format_ = f.format
  fits : f.width * f.height < 2 ^ 64
  pixels : f.pixels <+: c.pixels f.format

structure HoldsSum (c : ImageData) (s : RunningSum) (format : PixelFormat) : Prop where
  type : c.data_type_ = .RUNNING_SUM
  width : c.width_ = s.width
  height : c.height_ = s.height
  format : c.pixel_format_ = format
  fits : s.width * s.height < 2 ^ 64
  pixels : s.pixels <+: c.pixels_64_

def Holds (c : ImageData) : ImageSpec → Prop
  | .frame f => c.HoldsFrame f
  | .sum s format => c.HoldsSum s format

variable {c d : ImageData} {a : ImageSpec} {f : Frame} {s : RunningSum} {format : PixelFormat} {x y i : ℕ}

theorem HoldsFrame.type_ne (hc : c.HoldsFrame f) : c.data_type_ ≠ .RUNNING_SUM := by
  rw [hc.type]
  exact DataType.noConfusion

theorem HoldsSum.type_ne (hc : c.HoldsSum s format) : c.data_type_ ≠ .FRAME_DATA := by
  rw [hc.type]
  exact DataType.noConfusion

theorem holds_copy (h : c.Holds a) : c.copy.Holds a := h

/-- Whatever a move leaves, it is a frame without pixels. -/
theorem holds_movedFrom (left : ImageLeft) : (movedFrom left).Holds .empty where
  type := rfl
  width := rfl
  height := rfl
  format := rfl
  fits := by decide
  pixels := List.nil_prefix

theorem holds_assign (same : Bool) {b : ImageSpec} (hc : c.Holds a) (hd : d.Holds b) :
    (assign same c d).Holds (if same then a else b) := by
  cases same
  · exact hd
  · exact hc

theorem holds_moveAssign (left : ImageLeft) (same : Bool) {b : ImageSpec} (hc : c.Holds a) (hd : d.Holds b) :
    (moveAssign left same c d).1.Holds (imageSpec.moveAssign () same a b).1 ∧
      (moveAssign left same c d).2.Holds (imageSpec.moveAssign () same a b).2 := by
  cases same
  · exact ⟨hd, holds_movedFrom left⟩
  · exact ⟨hc, hd⟩

theorem construct_refines (args : ImageArgs) : (construct args).Refines Holds (ImageSpec.construct args) := by
  obtain ⟨width, height, format, type, allocated⟩ := args
  unfold construct ImageSpec.construct
  cases allocated with
  | false => trivial
  | true =>
    rw [if_pos rfl, if_pos rfl]
    by_cases hfits : width * height < 2 ^ 64
    · rw [if_pos hfits]
      dsimp only
      rw [Nat.mod_eq_of_lt hfits]
      cases type with
      | FRAME_DATA =>
        refine ⟨rfl, rfl, rfl, rfl, hfits, ?_⟩
        cases format
        · exact List.prefix_rfl
        · exact List.prefix_rfl
      | RUNNING_SUM => exact ⟨rfl, rfl, rfl, rfl, hfits, List.prefix_rfl⟩
    · rw [if_neg hfits]
      trivial

/-! ## Elements -/

theorem index_lt {w h : ℕ} (hx : x < w) (hy : y < h) : y * w + x < w * h := by
  calc y * w + x < y * w + w := by omega
    _ = (y + 1) * w := (Nat.succ_mul y w).symm
    _ ≤ h * w := Nat.mul_le_mul_right w hy
    _ = w * h := Nat.mul_comm h w

theorem get_index_eq {w h : ℕ} (hw : c.width_ = w) (hfits : w * h < 2 ^ 64) (hx : x < w) (hy : y < h) :
    c.get_index x y = y * w + x := by
  have hlt := index_lt hx hy
  rw [get_index, hw, Nat.mod_eq_of_lt (by omega)]

theorem reads_of_prefix {pixels xs : List ℕ} (h : pixels <+: xs) (hi : i < pixels.length) :
    c.reads xs i = .returns (c, .number (pixels.getD i 0)) := by
  have hlt : i < xs.length := lt_of_lt_of_le hi h.length_le
  have hget : xs.getD i 0 = pixels.getD i 0 := by
    rw [List.getD_eq_getElem _ _ hlt, List.getD_eq_getElem _ _ hi, h.getElem hi]
  unfold reads element
  rw [if_pos hlt, hget]

theorem set_prefix {pixels xs : List ℕ} (h : pixels <+: xs) (hi : i < pixels.length) (value : ℕ) :
    pixels.set i value <+: xs.set i value := by
  obtain ⟨rest, rfl⟩ := h
  rw [List.set_append_left _ _ hi]
  exact List.prefix_append _ _

/-! ## Frames -/

/-- The vector of a format replaced. -/
def withPixels (c : ImageData) (pixels : List ℕ) : PixelFormat → ImageData
  | .uint16 => { c with pixels_16_ := pixels }
  | .uint32 => { c with pixels_32_ := pixels }

theorem pixels_withPixels (c : ImageData) (pixels : List ℕ) (format : PixelFormat) :
    (c.withPixels pixels format).pixels format = pixels := by
  cases format <;> rfl

theorem withPixels_fields (c : ImageData) (pixels : List ℕ) (format : PixelFormat) :
    (c.withPixels pixels format).data_type_ = c.data_type_ ∧ (c.withPixels pixels format).width_ = c.width_ ∧
      (c.withPixels pixels format).height_ = c.height_ ∧
      (c.withPixels pixels format).pixel_format_ = c.pixel_format_ := by
  cases format <;> exact ⟨rfl, rfl, rfl, rfl⟩

/-- A pixel of the frame is written to the vector in use. -/
theorem holds_setPixel (h : c.HoldsFrame f) {i : ℕ} (hi : i < f.pixels.length) (value : ℕ) :
    (c.withPixels ((c.pixels f.format).set i (value % f.format.bound)) f.format).HoldsFrame
      (f.setPixel i value) := by
  obtain ⟨htype, hwidth, hheight, hformat⟩ :=
    withPixels_fields c ((c.pixels f.format).set i (value % f.format.bound)) f.format
  refine ⟨htype.trans h.type, hwidth.trans h.width, hheight.trans h.height, hformat.trans h.format, h.fits, ?_⟩
  have hset := set_prefix h.pixels hi (value % f.format.bound)
  rwa [← pixels_withPixels c ((c.pixels f.format).set i (value % f.format.bound)) f.format] at hset

theorem accessible_frame (h : c.HoldsFrame f) (format : PixelFormat) (x y : ℕ) :
    c.accessible .FRAME_DATA (some format) x y = decide (f.format = format ∧ x < f.width ∧ y < f.height) := by
  unfold accessible
  rw [h.type, h.width, h.height, h.format]
  simp [Bool.and_assoc]

/-- A member for the other type throws. -/
theorem throws_of_type {type : DataType} (h : c.data_type_ ≠ type) (format : Option PixelFormat) (x y : ℕ)
    (o : Outcome (ImageData × ImageValue)) : (if c.accessible type format x y then o else .throws) = .throws := by
  have haccessible : c.accessible type format x y = false := by
    unfold accessible
    rw [decide_eq_false h]
    rfl
  rw [haccessible]
  rfl

theorem frame_index (h : c.HoldsFrame f) (hx : x < f.width) (hy : y < f.height) :
    c.get_index x y = y * f.width + x ∧ y * f.width + x < f.pixels.length := by
  refine ⟨get_index_eq h.width h.fits hx hy, ?_⟩
  rw [f.length_eq]
  exact index_lt hx hy

/-- What is asked of a call. -/
abbrev CallRefines : Outcome (ImageData × ImageValue) → Outcome (ImageSpec × ImageValue) → Prop :=
  Outcome.Refines fun r r' => r.1.Holds r'.1 ∧ r.2 = r'.2

theorem get_frame_refines (h : c.Holds a) (format : PixelFormat) (x y : ℕ) :
    CallRefines (if c.accessible .FRAME_DATA (some format) x y then
      c.reads (c.pixels format) (c.get_index x y) else .throws) (a.getFrame format x y) := by
  cases a with
  | frame f =>
    rw [accessible_frame h]
    simp only [ImageSpec.getFrame]
    by_cases hin : f.format = format ∧ x < f.width ∧ y < f.height
    · obtain ⟨rfl, hx, hy⟩ := hin
      obtain ⟨hindex, hlt⟩ := frame_index h hx hy
      rw [if_pos (decide_eq_true ⟨rfl, hx, hy⟩), if_pos ⟨rfl, hx, hy⟩, hindex, reads_of_prefix h.pixels hlt]
      exact ⟨h, rfl⟩
    · rw [if_neg (by simpa using hin), if_neg hin]
      trivial
  | sum s format' => exact Outcome.refines_throws (throws_of_type (HoldsSum.type_ne h) _ x y _)

theorem set_frame_refines (h : c.Holds a) (format : PixelFormat) (x y value : ℕ) :
    CallRefines (if c.accessible .FRAME_DATA (some format) x y then
      writes (c.pixels format) (c.get_index x y) (value % format.bound) (c.withPixels · format) else .throws)
      (a.setFrame format x y value) := by
  cases a with
  | frame f =>
    rw [accessible_frame h]
    simp only [ImageSpec.setFrame]
    by_cases hin : f.format = format ∧ x < f.width ∧ y < f.height
    · obtain ⟨rfl, hx, hy⟩ := hin
      obtain ⟨hindex, hlt⟩ := frame_index h hx hy
      have hlt' : y * f.width + x < (c.pixels f.format).length := lt_of_lt_of_le hlt h.pixels.length_le
      rw [if_pos (decide_eq_true ⟨rfl, hx, hy⟩), if_pos ⟨rfl, hx, hy⟩, hindex]
      unfold writes
      rw [if_pos hlt']
      exact ⟨holds_setPixel h hlt value, rfl⟩
    · rw [if_neg (by simpa using hin), if_neg hin]
      trivial
  | sum s format' => exact Outcome.refines_throws (throws_of_type (HoldsSum.type_ne h) _ x y _)

theorem read_frame_refines (h : c.Holds a) (format : PixelFormat) (i : ℕ) :
    CallRefines (c.reads (c.pixels format) i) (a.readFrame format i) := by
  cases a with
  | frame f =>
    simp only [ImageSpec.readFrame]
    by_cases hin : f.format = format ∧ i < f.pixelCount
    · obtain ⟨rfl, hi⟩ := hin
      have hlt : i < f.pixels.length := by rwa [f.length_eq]
      rw [if_pos ⟨rfl, hi⟩, reads_of_prefix h.pixels hlt]
      exact ⟨h, rfl⟩
    · rw [if_neg hin]
      exact Outcome.refines_undefined _
  | sum s format' => exact Outcome.refines_undefined _

/-! ## Running sums -/

theorem accessible_sum (h : c.HoldsSum s format) (x y : ℕ) :
    c.accessible .RUNNING_SUM none x y = decide (x < s.width ∧ y < s.height) := by
  unfold accessible
  rw [h.type, h.width, h.height]
  simp

theorem sum_index (h : c.HoldsSum s format) (hx : x < s.width) (hy : y < s.height) :
    c.get_index x y = y * s.width + x ∧ y * s.width + x < s.pixels.length := by
  refine ⟨get_index_eq h.width h.fits hx hy, ?_⟩
  rw [s.length_eq]
  exact index_lt hx hy

theorem get_pixel_64_refines (h : c.Holds a) (x y : ℕ) : CallRefines (c.get_pixel_64 x y) (a.getSum x y) := by
  unfold get_pixel_64
  cases a with
  | sum s format =>
    rw [accessible_sum h]
    simp only [ImageSpec.getSum]
    by_cases hin : x < s.width ∧ y < s.height
    · obtain ⟨hindex, hlt⟩ := sum_index h hin.1 hin.2
      rw [if_pos (decide_eq_true hin), if_pos hin, hindex, reads_of_prefix h.pixels hlt]
      exact ⟨h, rfl⟩
    · rw [if_neg (by simpa using hin), if_neg hin]
      trivial
  | frame f => exact Outcome.refines_throws (throws_of_type (HoldsFrame.type_ne h) _ x y _)

theorem set_pixel_64_refines (h : c.Holds a) (x y value : ℕ) :
    CallRefines (c.set_pixel_64 x y value) (a.setSum x y value) := by
  unfold set_pixel_64
  cases a with
  | sum s format =>
    rw [accessible_sum h]
    simp only [ImageSpec.setSum]
    by_cases hin : x < s.width ∧ y < s.height
    · obtain ⟨hindex, hlt⟩ := sum_index h hin.1 hin.2
      have hlt' : y * s.width + x < c.pixels_64_.length := lt_of_lt_of_le hlt h.pixels.length_le
      rw [if_pos (decide_eq_true hin), if_pos hin, hindex]
      unfold writes
      rw [if_pos hlt']
      refine ⟨?_, rfl⟩
      exact ⟨h.type, h.width, h.height, h.format, h.fits, set_prefix h.pixels hlt _⟩
    · rw [if_neg (by simpa using hin), if_neg hin]
      trivial
  | frame f => exact Outcome.refines_throws (throws_of_type (HoldsFrame.type_ne h) _ x y _)

theorem read_sum_refines (h : c.Holds a) (i : ℕ) : CallRefines (c.reads c.pixels_64_ i) (a.readSum i) := by
  cases a with
  | sum s format =>
    simp only [ImageSpec.readSum]
    by_cases hi : i < s.pixelCount
    · have hlt : i < s.pixels.length := by rwa [s.length_eq]
      rw [if_pos hi, reads_of_prefix h.pixels hlt]
      exact ⟨h, rfl⟩
    · rw [if_neg hi]
      exact Outcome.refines_undefined _
  | frame f => exact Outcome.refines_undefined _

/-- The loop of `add_image` stays within both vectors, and adds pixel by pixel. -/
theorem combine_prefix {pixels xs values : List ℕ} (h : pixels <+: xs) (hlength : values.length = pixels.length) :
    ∃ rest, combine (satAdd (2 ^ 64)) xs values =
      some (List.zipWith (satAdd (2 ^ 64)) pixels values ++ rest) := by
  obtain ⟨rest, rfl⟩ := h
  have hle : values.length ≤ (pixels ++ rest).length := by
    rw [hlength, List.length_append]
    exact Nat.le_add_right _ _
  have hzip : List.zipWith (satAdd (2 ^ 64)) (pixels ++ rest) (values ++ []) =
      List.zipWith (satAdd (2 ^ 64)) pixels values ++ List.zipWith (satAdd (2 ^ 64)) rest [] :=
    List.zipWith_append hlength.symm
  rw [List.append_nil, List.zipWith_nil_right, List.append_nil] at hzip
  refine ⟨(pixels ++ rest).drop values.length, ?_⟩
  unfold combine
  rw [if_pos hle, hzip]

theorem add_image_refines {b : ImageSpec} (hc : c.Holds a) (hd : d.Holds b) :
    CallRefines (c.add_image d) (a.add b) := by
  cases a with
  | frame f => exact Outcome.refines_throws (if_pos (Or.inr (HoldsFrame.type_ne hc)))
  | sum s format =>
    cases b with
    | sum s' format' => exact Outcome.refines_throws (if_pos (Or.inl (HoldsSum.type_ne hd)))
    | frame f =>
      simp only [ImageSpec.add, RunningSum.addImage]
      unfold add_image
      rw [if_neg (by rw [hc.type, hd.type]; simp)]
      by_cases hsize : f.width = s.width ∧ f.height = s.height
      · rw [if_neg (by rw [hc.width, hc.height, hd.width, hd.height]; simp [hsize]), dif_pos hsize]
        have hcount : c.get_pixel_count = f.pixels.length := by
          rw [get_pixel_count, hc.width, hc.height, Nat.mod_eq_of_lt hc.fits, f.length_eq, hsize.1, hsize.2]
        have hread : readFirst (d.pixels d.pixel_format_) c.get_pixel_count = some f.pixels := by
          rw [hd.format, hcount]
          obtain ⟨rest, hrest⟩ := hd.pixels
          rw [← hrest, readFirst_append]
        have hlength : f.pixels.length = s.pixels.length := by
          rw [f.length_eq, s.length_eq, hsize.1, hsize.2]
        obtain ⟨rest, hcombine⟩ := combine_prefix hc.pixels hlength
        rw [hread]
        simp only [Option.bind_eq_bind, Option.bind_some, hcombine]
        exact ⟨⟨hc.type, hc.width, hc.height, hc.format, hc.fits, List.prefix_append _ _⟩, rfl⟩
      · rw [if_pos (by rw [hc.width, hc.height, hd.width, hd.height]; omega), dif_neg hsize]
        trivial

/-! ## Calls -/

theorem get_pixel_count_eq (h : c.Holds a) : c.get_pixel_count = a.width * a.height := by
  cases a with
  | frame f => rw [get_pixel_count, h.width, h.height, Nat.mod_eq_of_lt h.fits]; rfl
  | sum s format => rw [get_pixel_count, h.width, h.height, Nat.mod_eq_of_lt h.fits]; rfl

theorem fields_eq (h : c.Holds a) :
    c.width_ = a.width ∧ c.height_ = a.height ∧ c.pixel_format_ = a.format ∧ c.data_type_ = a.type := by
  cases a with
  | frame f => exact ⟨h.width, h.height, h.format, h.type⟩
  | sum s format => exact ⟨h.width, h.height, h.format, h.type⟩

theorem call_refines (m : ImageCall) {b : ImageSpec} (hc : c.Holds a) (hd : d.Holds b) :
    CallRefines (call m c d) (a.call m b) := by
  obtain ⟨hwidth, hheight, hformat, htype⟩ := fields_eq hc
  cases m with
  | get_width => exact ⟨hc, congrArg ImageValue.number hwidth⟩
  | get_height => exact ⟨hc, congrArg ImageValue.number hheight⟩
  | get_pixel_count => exact ⟨hc, congrArg ImageValue.number (get_pixel_count_eq hc)⟩
  | get_pixel_format => exact ⟨hc, congrArg ImageValue.format hformat⟩
  | get_data_type => exact ⟨hc, congrArg ImageValue.type htype⟩
  | get_pixel_16 x y => exact get_frame_refines hc .uint16 x y
  | get_pixel_32 x y => exact get_frame_refines hc .uint32 x y
  | get_pixel_64 x y => exact get_pixel_64_refines hc x y
  | set_pixel_16 x y value => exact set_frame_refines hc .uint16 x y value
  | set_pixel_32 x y value => exact set_frame_refines hc .uint32 x y value
  | set_pixel_64 x y value => exact set_pixel_64_refines hc x y value
  | get_pixels_16_ptr i => exact read_frame_refines hc .uint16 i
  | get_pixels_32_ptr i => exact read_frame_refines hc .uint32 i
  | get_pixels_64_ptr i => exact read_sum_refines hc i
  | add_image => exact add_image_refines hc hd

end ImageData

/-- The class does what the values do. -/
theorem imageClass_refines : Refines imageClass imageSpec ImageData.Holds where
  construct := ImageData.construct_refines
  copy := ImageData.holds_copy
  move := fun left _ _ h => ⟨ImageData.holds_copy h, ImageData.holds_movedFrom left⟩
  assign := fun same _ _ _ _ hc hd => ImageData.holds_assign same hc hd
  moveAssign := fun left same _ _ _ _ hc hd => ImageData.holds_moveAssign left same hc hd
  call := fun m _ _ _ _ hc hd => ImageData.call_refines m hc hd

/-- A program that is defined on values is defined on the class, whatever its moves leave: its objects hold the
values, and its calls return the same, exceptions included. -/
theorem programs_refine (ops : List (Objects.Op ImageArgs ImageCall ImageLeft)) (t : Store ImageSpec ImageValue)
    (ht : run (Objects.step imageSpec) .init (ops.map Objects.Op.erase) = some t) :
    ∃ s, run (Objects.step imageClass) .init ops = some s ∧ Store.Refines ImageData.Holds s t :=
  run_refines imageClass_refines ht

/-- A frame of one pixel is added to a running sum and then moved from; the move leaves its pixels. -/
def onePixelProgram : List (Objects.Op ImageArgs ImageCall ImageLeft) :=
  [.construct 0 ⟨1, 1, .uint16, .RUNNING_SUM, true⟩, .construct 1 ⟨1, 1, .uint16, .FRAME_DATA, true⟩,
    .call 1 1 (.set_pixel_16 0 0 7), .call 0 1 .add_image, .move 2 1 ⟨[7], [], []⟩,
    .call 0 0 (.get_pixel_64 0 0), .call 1 1 (.get_pixel_16 0 0)]

theorem programs_refine_onePixel :
    ∃ s t, run (Objects.step imageSpec) .init (onePixelProgram.map Objects.Op.erase) = some t ∧
      t.log = [some .void, some .void, some (.number 7), none] ∧
      run (Objects.step imageClass) .init onePixelProgram = some s ∧ Store.Refines ImageData.Holds s t := by
  have hsome : ∃ t, run (Objects.step imageSpec) .init (onePixelProgram.map Objects.Op.erase) = some t ∧
      t.log = [some .void, some .void, some (.number 7), none] := ⟨_, rfl, rfl⟩
  obtain ⟨t, ht, hlog⟩ := hsome
  obtain ⟨s, hs, hst⟩ := programs_refine onePixelProgram t ht
  exact ⟨s, t, ht, hlog, hs, hst⟩

/-! ## Which calls are defined -/

/-- A member that checks its arguments: all but the pointers. -/
def ImageCall.Checked : ImageCall → Prop
  | .get_pixels_16_ptr _ => False
  | .get_pixels_32_ptr _ => False
  | .get_pixels_64_ptr _ => False
  | _ => True

/-- The pixels of the image can be counted. -/
def ImageArgs.Fits (args : ImageArgs) : Prop := args.allocated = true → args.width * args.height < 2 ^ 64

namespace ImageData

variable {c d : ImageData}

theorem checked_call_defined {m : ImageCall} (hm : m.Checked) (a b : ImageSpec) :
    (a.call m b).Satisfies fun _ => True := by
  cases m with
  | get_pixels_16_ptr i => exact hm.elim
  | get_pixels_32_ptr i => exact hm.elim
  | get_pixels_64_ptr i => exact hm.elim
  | add_image =>
    cases a with
    | frame f => trivial
    | sum s format =>
      cases b with
      | sum s' format' => trivial
      | frame f =>
        simp only [ImageSpec.call, ImageSpec.add]
        cases s.addImage f <;> trivial
  | _ =>
    cases a <;> simp only [ImageSpec.call, ImageSpec.getFrame, ImageSpec.setFrame, ImageSpec.getSum,
      ImageSpec.setSum] <;> first | trivial | exact Outcome.satisfies_ite trivial trivial

theorem reads_returns {xs : List ℕ} {i : ℕ} {r : ImageData × ImageValue} (h : c.reads xs i = .returns r) : r.1 = c := by
  unfold reads at h
  split at h
  · cases h
    rfl
  · cases h

/-- A read through a pointer leaves the object as it is. -/
theorem pointer_call {m : ImageCall} (hm : ¬m.Checked) {r : ImageData × ImageValue}
    (h : call m c d = .returns r) : r.1 = c := by
  cases m with
  | get_pixels_16_ptr i => exact reads_returns h
  | get_pixels_32_ptr i => exact reads_returns h
  | get_pixels_64_ptr i => exact reads_returns h
  | _ => exact absurd trivial hm

/-- A member that has checked its arguments, and reads outside of the vector. -/
theorem get_outside {type : DataType} {format : Option PixelFormat} {x y : ℕ} {xs : List ℕ}
    (haccessible : c.accessible type format x y = true) (hlength : xs.length ≤ c.get_index x y) :
    (if c.accessible type format x y then c.reads xs (c.get_index x y) else .throws) = .undefined := by
  rw [if_pos haccessible]
  unfold reads element
  rw [if_neg (Nat.not_lt.mpr hlength)]

end ImageData

theorem imageClass_sound :
    Sound imageClass (fun c => ∃ a, c.Holds a) ImageArgs.Fits ImageCall.Checked where
  construct := by
    intro args hfits
    refine (ImageData.construct_refines args).satisfies ?_
    unfold ImageSpec.construct
    by_cases hallocated : args.allocated = true
    · rw [if_pos hallocated, if_pos (hfits hallocated)]
      cases args.type <;> trivial
    · rw [if_neg hallocated]
      trivial
  copy := by
    rintro c ⟨a, ha⟩
    exact ⟨a, ImageData.holds_copy ha⟩
  move := by
    rintro left c ⟨a, ha⟩
    exact ⟨⟨a, ImageData.holds_copy ha⟩, .empty, ImageData.holds_movedFrom left⟩
  assign := by
    rintro same c d ⟨a, ha⟩ ⟨b, hb⟩
    exact ⟨_, ImageData.holds_assign same ha hb⟩
  moveAssign := by
    rintro left same c d ⟨a, ha⟩ ⟨b, hb⟩
    obtain ⟨hnew, hleft⟩ := ImageData.holds_moveAssign left same ha hb
    exact ⟨⟨_, hnew⟩, _, hleft⟩
  call := by
    rintro m c d r ⟨a, ha⟩ ⟨b, hb⟩ hr
    have hr : c.call m d = .returns r := hr
    by_cases hm : m.Checked
    · have hcall := (ImageData.call_refines m ha hb).satisfies (ImageData.checked_call_defined hm a b)
      rw [hr] at hcall
      obtain ⟨r', hholds, -⟩ := hcall
      exact ⟨r'.1, hholds⟩
    · rw [ImageData.pointer_call hm hr]
      exact ⟨a, ha⟩
  checked_call := by
    rintro m c d hm ⟨a, ha⟩ ⟨b, hb⟩ hundefined
    have hcall := (ImageData.call_refines m ha hb).satisfies (ImageData.checked_call_defined hm a b)
    rw [show ImageData.call m c d = .undefined from hundefined] at hcall
    exact hcall

/-- The member that reads a pixel of an image. -/
def getter (args : ImageArgs) (x y : ℕ) : ImageCall :=
  match args.type, args.format with
  | .FRAME_DATA, .uint16 => .get_pixel_16 x y
  | .FRAME_DATA, .uint32 => .get_pixel_32 x y
  | .RUNNING_SUM, _ => .get_pixel_64 x y

theorem getter_checked (args : ImageArgs) (x y : ℕ) : (getter args x y).Checked := by
  obtain ⟨width, height, format, type, allocated⟩ := args
  cases type <;> cases format <;> trivial

/-- The last pixel that can be counted lies within the image and outside its vector. -/
theorem get_undefined {args : ImageArgs} (hallocated : args.allocated = true)
    (hlarge : 2 ^ 64 ≤ args.width * args.height) :
    ∃ c x y, ImageData.construct args = .returns c ∧ ∀ d, ImageData.call (getter args x y) c d = .undefined := by
  obtain ⟨width, height, format, type, allocated⟩ := args
  simp only at hallocated hlarge
  subst hallocated
  have hwidth : 0 < width := by
    rcases Nat.eq_zero_or_pos width with rfl | hpos
    · rw [Nat.zero_mul] at hlarge
      exact absurd hlarge (by decide)
    · exact hpos
  have hx : (2 ^ 64 - 1) % width < width := Nat.mod_lt _ hwidth
  have hy : (2 ^ 64 - 1) / width < height := by
    rw [Nat.div_lt_iff_lt_mul hwidth, Nat.mul_comm]
    omega
  have hlength : (List.replicate (width * height % 2 ^ 64) 0).length ≤
      ((2 ^ 64 - 1) / width * width + (2 ^ 64 - 1) % width) % 2 ^ 64 := by
    have hlt : width * height % 2 ^ 64 < 2 ^ 64 := Nat.mod_lt _ (by decide)
    have hindex : ((2 ^ 64 - 1) / width * width + (2 ^ 64 - 1) % width) % 2 ^ 64 = 2 ^ 64 - 1 := by
      rw [Nat.mul_comm, Nat.div_add_mod]
      exact Nat.mod_eq_of_lt (by decide)
    rw [List.length_replicate, hindex]
    omega
  refine ⟨_, (2 ^ 64 - 1) % width, (2 ^ 64 - 1) / width,
    by unfold ImageData.construct; exact if_pos rfl, fun d => ?_⟩
  cases type with
  | FRAME_DATA =>
    cases format with
    | uint16 => exact ImageData.get_outside (by simpa [ImageData.accessible] using ⟨hx, hy⟩) hlength
    | uint32 => exact ImageData.get_outside (by simpa [ImageData.accessible] using ⟨hx, hy⟩) hlength
  | RUNNING_SUM => exact ImageData.get_outside (by simpa [ImageData.accessible] using ⟨hx, hy⟩) hlength

/-- Every state that a program passes through allows every checked call on its objects exactly when the program
has constructed no image with more pixels than a `size_t` counts. -/
theorem checked_calls_defined_iff (ops : List (Objects.Op ImageArgs ImageCall ImageLeft))
    (hrun : (run (Objects.step imageClass) .init ops).isSome) :
    (∀ before s, before <+: ops → run (Objects.step imageClass) .init before = some s →
      ∀ i j c d m, s.objects i = some c → s.objects j = some d → ImageCall.Checked m →
        ImageData.call m c d ≠ .undefined) ↔
    ∀ i args, .construct i args ∈ ops → args.Fits := by
  constructor
  · intro hdefined i args hmem hallocated
    by_contra hlarge
    obtain ⟨before, after, rfl⟩ := List.append_of_mem hmem
    obtain ⟨c, x, y, hconstruct, hget⟩ := get_undefined hallocated (Nat.le_of_not_lt hlarge)
    obtain ⟨last, hlast⟩ := Option.isSome_iff_exists.mp hrun
    rw [run_append] at hlast
    obtain ⟨s, hs, hrest⟩ := Option.bind_eq_some_iff.mp hlast
    obtain ⟨s', hs', -⟩ := Option.bind_eq_some_iff.mp hrest
    have hput : s' = s.put i c := by
      simp only [Objects.step, imageClass] at hs'
      rw [hconstruct] at hs'
      cases hi : s.objects i with
      | some c' => simp [hi] at hs'
      | none =>
        rw [hi] at hs'
        exact (Option.some.inj hs').symm
    have hbefore : run (Objects.step imageClass) .init (before ++ [.construct i args]) = some s' := by
      rw [run_append, hs]
      exact (run_cons ..).trans (by rw [hs']; rfl)
    have hself : s'.objects i = some c := by
      rw [hput]
      exact Store.put_self
    refine hdefined (before ++ [.construct i args]) s' ?_ hbefore i i c c _ hself hself
      (getter_checked args x y) (hget c)
    exact ⟨after, by simp⟩
  · intro hfits before s hpre hs i j c d m hc hd hm hundefined
    have hwithin : ∀ op ∈ before, op.Within ImageArgs.Fits fun _ => True := by
      intro op hop
      cases op with
      | construct i args => exact hfits i args (hpre.subset hop)
      | _ => trivial
    have hall := all_of_run imageClass_sound hwithin hs
    exact imageClass_sound.checked_call m hm (hall i c hc) (hall j d hd) hundefined

/-- An image of one pixel, read through its pointer, and then one of `2 ^ 32` by `2 ^ 32` pixels. -/
def largeProgram : List (Objects.Op ImageArgs ImageCall ImageLeft) :=
  [.construct 1 ⟨1, 1, .uint16, .FRAME_DATA, true⟩, .call 1 1 (.get_pixels_16_ptr 0),
    .construct 0 ⟨2 ^ 32, 2 ^ 32, .uint16, .FRAME_DATA, true⟩]

theorem checked_calls_defined_iff_large :
    (∀ before s, before <+: largeProgram → run (Objects.step imageClass) .init before = some s →
      ∀ i j c d m, s.objects i = some c → s.objects j = some d → ImageCall.Checked m →
        ImageData.call m c d ≠ .undefined) ↔
    ∀ i args, .construct i args ∈ largeProgram → args.Fits :=
  checked_calls_defined_iff largeProgram rfl

end ADTimePix3.Img
