import ADTimePix3.Img.Accumulation
import ADTimePix3.Lib.Objects

/-!
# The class `ImageData`

`ImageData` as `img_accumulation.cpp` has it: three pixel vectors, of which the type and the format say which one
is in use, and a size that nothing ties to the lengths of the vectors. `Frame` and `RunningSum` are what the class
is for: `imageSpec` is the same class with these as its values.
-/

namespace ADTimePix3.Img

open Buffers Counts Objects

/-- `ImageData::DataType`. -/
inductive DataType where
  | FRAME_DATA
  | RUNNING_SUM
deriving DecidableEq

structure ImageData where
  width_ : ℕ
  height_ : ℕ
  pixel_format_ : PixelFormat
  data_type_ : DataType
  pixels_16_ : List ℕ
  pixels_32_ : List ℕ
  pixels_64_ : List ℕ
deriving DecidableEq

/-- The arguments of the constructor, and whether the memory for the pixels is there. -/
structure ImageArgs where
  width : ℕ
  height : ℕ
  format : PixelFormat
  type : DataType
  allocated : Bool

/-- The members, with the arguments that are not images. -/
inductive ImageCall where
  | get_width
  | get_height
  | get_pixel_count
  | get_pixel_format
  | get_data_type
  | get_pixel_16 (x y : ℕ)
  | get_pixel_32 (x y : ℕ)
  | get_pixel_64 (x y : ℕ)
  | set_pixel_16 (x y value : ℕ)
  | set_pixel_32 (x y value : ℕ)
  | set_pixel_64 (x y value : ℕ)
  /-- The element `i` behind the pointer. -/
  | get_pixels_16_ptr (i : ℕ)
  | get_pixels_32_ptr (i : ℕ)
  | get_pixels_64_ptr (i : ℕ)
  | add_image

inductive ImageValue where
  | number (n : ℕ)
  | format (format : PixelFormat)
  | type (type : DataType)
  | void
deriving DecidableEq

/-- What a move may leave in the three vectors. -/
structure ImageLeft where
  pixels_16_ : List ℕ
  pixels_32_ : List ℕ
  pixels_64_ : List ℕ

namespace ImageData

/-- `size_t pixel_count = width * height`. -/
def get_pixel_count (c : ImageData) : ℕ := c.width_ * c.height_ % 2 ^ 64

def get_index (c : ImageData) (x y : ℕ) : ℕ := (y * c.width_ + x) % 2 ^ 64

def construct (args : ImageArgs) : Outcome ImageData :=
  let pixel_count := args.width * args.height % 2 ^ 64
  if args.allocated then
    .returns
      { width_ := args.width
        height_ := args.height
        pixel_format_ := args.format
        data_type_ := args.type
        pixels_16_ :=
          if args.type = .FRAME_DATA ∧ args.format = .uint16 then List.replicate pixel_count 0 else []
        pixels_32_ :=
          if args.type = .FRAME_DATA ∧ args.format = .uint32 then List.replicate pixel_count 0 else []
        pixels_64_ := if args.type = .RUNNING_SUM then List.replicate pixel_count 0 else [] }
  else .throws

def copy (other : ImageData) : ImageData where
  width_ := other.width_
  height_ := other.height_
  pixel_format_ := other.pixel_format_
  data_type_ := other.data_type_
  pixels_16_ := other.pixels_16_
  pixels_32_ := other.pixels_32_
  pixels_64_ := other.pixels_64_

/-- An object that has been moved from. -/
def movedFrom (left : ImageLeft) : ImageData where
  width_ := 0
  height_ := 0
  pixel_format_ := .uint16
  data_type_ := .FRAME_DATA
  pixels_16_ := left.pixels_16_
  pixels_32_ := left.pixels_32_
  pixels_64_ := left.pixels_64_

def move (left : ImageLeft) (other : ImageData) : ImageData × ImageData := (copy other, movedFrom left)

/-- `operator=(const ImageData&)`. -/
def assign (same : Bool) (this other : ImageData) : ImageData := if same then this else copy other

/-- `operator=(ImageData&&)`. -/
def moveAssign (left : ImageLeft) (same : Bool) (this other : ImageData) : ImageData × ImageData :=
  if same then (this, other) else (copy other, movedFrom left)

/-- Read an element without a check. -/
def element (pixels : List ℕ) (i : ℕ) : Outcome ℕ :=
  if i < pixels.length then .returns (pixels.getD i 0) else .undefined

/-- The coordinates are checked, and the type and the format. -/
def accessible (c : ImageData) (type : DataType) (format : Option PixelFormat) (x y : ℕ) : Bool :=
  c.data_type_ = type && (format.all fun format => c.pixel_format_ = format) && x < c.width_ && y < c.height_

/-- A call that reads `pixels` at `i`, and leaves the object as it is. -/
def reads (c : ImageData) (pixels : List ℕ) (i : ℕ) : Outcome (ImageData × ImageValue) :=
  match element pixels i with
  | .returns value => .returns (c, .number value)
  | _ => .undefined

/-- A call that writes `pixels` at `i`. -/
def writes (pixels : List ℕ) (i value : ℕ) (update : List ℕ → ImageData) : Outcome (ImageData × ImageValue) :=
  if i < pixels.length then .returns (update (pixels.set i value), .void) else .undefined

def get_pixel_16 (c : ImageData) (x y : ℕ) : Outcome (ImageData × ImageValue) :=
  if c.accessible .FRAME_DATA (some .uint16) x y then c.reads c.pixels_16_ (c.get_index x y) else .throws

def get_pixel_32 (c : ImageData) (x y : ℕ) : Outcome (ImageData × ImageValue) :=
  if c.accessible .FRAME_DATA (some .uint32) x y then c.reads c.pixels_32_ (c.get_index x y) else .throws

def get_pixel_64 (c : ImageData) (x y : ℕ) : Outcome (ImageData × ImageValue) :=
  if c.accessible .RUNNING_SUM none x y then c.reads c.pixels_64_ (c.get_index x y) else .throws

def set_pixel_16 (c : ImageData) (x y value : ℕ) : Outcome (ImageData × ImageValue) :=
  if c.accessible .FRAME_DATA (some .uint16) x y then
    writes c.pixels_16_ (c.get_index x y) (value % 2 ^ 16) fun pixels => { c with pixels_16_ := pixels }
  else .throws

def set_pixel_32 (c : ImageData) (x y value : ℕ) : Outcome (ImageData × ImageValue) :=
  if c.accessible .FRAME_DATA (some .uint32) x y then
    writes c.pixels_32_ (c.get_index x y) (value % 2 ^ 32) fun pixels => { c with pixels_32_ := pixels }
  else .throws

def set_pixel_64 (c : ImageData) (x y value : ℕ) : Outcome (ImageData × ImageValue) :=
  if c.accessible .RUNNING_SUM none x y then
    writes c.pixels_64_ (c.get_index x y) (value % 2 ^ 64) fun pixels => { c with pixels_64_ := pixels }
  else .throws

/-- The vector of a frame of a format. -/
def pixels (c : ImageData) : PixelFormat → List ℕ
  | .uint16 => c.pixels_16_
  | .uint32 => c.pixels_32_

/-- The loop goes through both vectors without a check. -/
def add_image (c other : ImageData) : Outcome (ImageData × ImageValue) :=
  if other.data_type_ ≠ .FRAME_DATA ∨ c.data_type_ ≠ .RUNNING_SUM then .throws
  else if other.width_ ≠ c.width_ ∨ other.height_ ≠ c.height_ then .throws
  else
    match (do
      let values ← readFirst (other.pixels other.pixel_format_) c.get_pixel_count
      combine (satAdd (2 ^ 64)) c.pixels_64_ values : Option (List ℕ)) with
    | none => .undefined
    | some sums => .returns ({ c with pixels_64_ := sums }, .void)

def call : ImageCall → ImageData → ImageData → Outcome (ImageData × ImageValue)
  | .get_width, c, _ => .returns (c, .number c.width_)
  | .get_height, c, _ => .returns (c, .number c.height_)
  | .get_pixel_count, c, _ => .returns (c, .number c.get_pixel_count)
  | .get_pixel_format, c, _ => .returns (c, .format c.pixel_format_)
  | .get_data_type, c, _ => .returns (c, .type c.data_type_)
  | .get_pixel_16 x y, c, _ => c.get_pixel_16 x y
  | .get_pixel_32 x y, c, _ => c.get_pixel_32 x y
  | .get_pixel_64 x y, c, _ => c.get_pixel_64 x y
  | .set_pixel_16 x y value, c, _ => c.set_pixel_16 x y value
  | .set_pixel_32 x y value, c, _ => c.set_pixel_32 x y value
  | .set_pixel_64 x y value, c, _ => c.set_pixel_64 x y value
  | .get_pixels_16_ptr i, c, _ => c.reads c.pixels_16_ i
  | .get_pixels_32_ptr i, c, _ => c.reads c.pixels_32_ i
  | .get_pixels_64_ptr i, c, _ => c.reads c.pixels_64_ i
  | .add_image, c, other => c.add_image other

end ImageData

/-- The class as it is written. -/
def imageClass : Class ImageData ImageArgs ImageCall ImageValue ImageLeft where
  construct := ImageData.construct
  copy := ImageData.copy
  move := ImageData.move
  assign := ImageData.assign
  moveAssign := ImageData.moveAssign
  call := ImageData.call

/-! ## What the class is for -/

/-- An image: a frame, or a running sum with the format it was made for. -/
inductive ImageSpec where
  | frame (frame : Frame)
  | sum (sum : RunningSum) (format : PixelFormat)

def Frame.setPixel (f : Frame) (i value : ℕ) : Frame where
  width := f.width
  height := f.height
  format := f.format
  pixels := f.pixels.set i (value % f.format.bound)
  length_eq := by rw [List.length_set, f.length_eq]
  pixel_lt := by
    intro p hp
    rcases List.mem_or_eq_of_mem_set hp with hp | rfl
    · exact f.pixel_lt p hp
    · refine Nat.mod_lt _ ?_
      cases f.format <;> decide

def RunningSum.setPixel (s : RunningSum) (i value : ℕ) : RunningSum where
  width := s.width
  height := s.height
  pixels := s.pixels.set i (value % 2 ^ 64)
  length_eq := by rw [List.length_set, s.length_eq]

namespace ImageSpec

def width : ImageSpec → ℕ
  | frame f => f.width
  | sum s _ => s.width

def height : ImageSpec → ℕ
  | frame f => f.height
  | sum s _ => s.height

def format : ImageSpec → PixelFormat
  | frame f => f.format
  | sum _ format => format

def type : ImageSpec → DataType
  | frame _ => .FRAME_DATA
  | sum _ _ => .RUNNING_SUM

/-- An image whose pixels cannot be counted in a `size_t` is not specified. -/
def construct (args : ImageArgs) : Outcome ImageSpec :=
  if args.allocated then
    if args.width * args.height < 2 ^ 64 then
      match args.type with
      | .FRAME_DATA => .returns (frame (.blank args.width args.height args.format))
      | .RUNNING_SUM => .returns (sum (.zero args.width args.height) args.format)
    else .undefined
  else .throws

/-- What a move leaves is a frame without pixels. -/
def empty : ImageSpec := frame (.blank 0 0 .uint16)

/-- A pixel of a frame of a format. -/
def getFrame (format : PixelFormat) (x y : ℕ) : ImageSpec → Outcome (ImageSpec × ImageValue)
  | frame f =>
    if f.format = format ∧ x < f.width ∧ y < f.height then
      .returns (frame f, .number (f.pixel (y * f.width + x)))
    else .throws
  | sum _ _ => .throws

def setFrame (format : PixelFormat) (x y value : ℕ) : ImageSpec → Outcome (ImageSpec × ImageValue)
  | frame f =>
    if f.format = format ∧ x < f.width ∧ y < f.height then
      .returns (frame (f.setPixel (y * f.width + x) value), .void)
    else .throws
  | sum _ _ => .throws

def getSum (x y : ℕ) : ImageSpec → Outcome (ImageSpec × ImageValue)
  | sum s format =>
    if x < s.width ∧ y < s.height then
      .returns (sum s format, .number (s.pixels.getD (y * s.width + x) 0))
    else .throws
  | frame _ => .throws

def setSum (x y value : ℕ) : ImageSpec → Outcome (ImageSpec × ImageValue)
  | sum s format =>
    if x < s.width ∧ y < s.height then
      .returns (sum (s.setPixel (y * s.width + x) value) format, .void)
    else .throws
  | frame _ => .throws

/-- A pointer may be read up to the last pixel, and the pointer of the type and format only. -/
def readFrame (format : PixelFormat) (i : ℕ) : ImageSpec → Outcome (ImageSpec × ImageValue)
  | frame f =>
    if f.format = format ∧ i < f.pixelCount then .returns (frame f, .number (f.pixel i)) else .undefined
  | sum _ _ => .undefined

def readSum (i : ℕ) : ImageSpec → Outcome (ImageSpec × ImageValue)
  | sum s format =>
    if i < s.pixelCount then .returns (sum s format, .number (s.pixels.getD i 0)) else .undefined
  | frame _ => .undefined

def add : ImageSpec → ImageSpec → Outcome (ImageSpec × ImageValue)
  | sum s format, frame f =>
    match s.addImage f with
    | none => .throws
    | some s => .returns (sum s format, .void)
  | _, _ => .throws

def call : ImageCall → ImageSpec → ImageSpec → Outcome (ImageSpec × ImageValue)
  | .get_width, a, _ => .returns (a, .number a.width)
  | .get_height, a, _ => .returns (a, .number a.height)
  | .get_pixel_count, a, _ => .returns (a, .number (a.width * a.height))
  | .get_pixel_format, a, _ => .returns (a, .format a.format)
  | .get_data_type, a, _ => .returns (a, .type a.type)
  | .get_pixel_16 x y, a, _ => a.getFrame .uint16 x y
  | .get_pixel_32 x y, a, _ => a.getFrame .uint32 x y
  | .get_pixel_64 x y, a, _ => a.getSum x y
  | .set_pixel_16 x y value, a, _ => a.setFrame .uint16 x y value
  | .set_pixel_32 x y value, a, _ => a.setFrame .uint32 x y value
  | .set_pixel_64 x y value, a, _ => a.setSum x y value
  | .get_pixels_16_ptr i, a, _ => a.readFrame .uint16 i
  | .get_pixels_32_ptr i, a, _ => a.readFrame .uint32 i
  | .get_pixels_64_ptr i, a, _ => a.readSum i
  | .add_image, a, other => a.add other

end ImageSpec

/-- Images as values: a copy is the image itself, and an assignment makes the target the source. -/
def imageSpec : Class ImageSpec ImageArgs ImageCall ImageValue Unit where
  construct := ImageSpec.construct
  copy := fun a => a
  move := fun _ a => (a, .empty)
  assign := fun same a b => if same then a else b
  moveAssign := fun _ same a b => if same then (a, b) else (b, .empty)
  call := ImageSpec.call

end ADTimePix3.Img
