import ADTimePix3.Stream.ByteOrder
import ADTimePix3.Stream.Json
import ADTimePix3.Stream.LineBuffer
import ADTimePix3.Stream.NetworkClient

/-!
# Images from a jsonimage stream

`processPreviewJsonimageLine` and `processImgDataLine` (`serval_stream.cpp`) from the header line to the
image they put on its address. `json::parse` and the allocation of the arrays are parameters.

Left out: what is done with an image once it is there (callbacks, band-pass, accumulation; for the last see
`Img/Accumulation.lean`), the parameters that repeat header fields, rates and time stamps.
-/

namespace ADTimePix3.Stream

open Img (toInt32 toUInt64 PixelFormat)
open Memory

/-- What the workers rely on: the parser, where `none` is an exception, and whether the `n`th allocation of a
worker gives an array with data. -/
structure Env where
  parse : List UInt8 → Option Json
  alloc : ℕ → Bool

/-- What a line function returns, and what it leaves. -/
structure LineResult (σ : Type) where
  ok : Bool
  client : NetworkClient
  channel : σ

/-! ## The header -/

def jsonImageThresholdId (j : Json) : ℤ :=
  (["thresholdID", "thresholdId", "thresholdIndex"].findSome? fun key =>
    match j.member key with
    | some (.number_integer z) => some (toInt32 z)
    | _ => none).getD 0

def previewNdarrayAddressForThreshold (thresholdId : ℤ) (addrTh0 addrTh1 : ℕ) : ℕ :=
  if thresholdId = 1 then addrTh1 else addrTh0

/-- The header fields that both functions read. -/
structure ImageHeader where
  width : ℤ
  height : ℤ
  format : PixelFormat
  frame_number : ℤ
  time_at_frame : ℚ
  threshold_id : ℤ
  integration_size : ℤ

/-- `integration_size`, which only the preview channels read. -/
def readIntegrationSize (integrates : Bool) (j : Json) : Option ℤ :=
  if integrates then j.value Json.getInt "integrationSize" 0 else some 0

/-- The header; `none` when a conversion throws. -/
def readImageHeader (integrates : Bool) (j : Json) : Option ImageHeader := do
  let width ← j.intAt "width"
  let height ← j.intAt "height"
  let pixel_format_str ← j.value Json.getString "pixelFormat" "uint16"
  let frame_number ← j.value Json.getInt "frameNumber" 0
  let time_at_frame ← j.value Json.getDouble "timeAtFrame" 0
  let integration_size ← readIntegrationSize integrates j
  let is_uint32 := pixel_format_str == "uint32" || pixel_format_str == "UINT32"
  some
    { width := width
      height := height
      format := if is_uint32 then .uint32 else .uint16
      frame_number := frame_number
      time_at_frame := time_at_frame
      threshold_id := jsonImageThresholdId j
      integration_size := integration_size }

def bytesPerPixel : PixelFormat → ℕ
  | .uint16 => 2
  | .uint32 => 4

namespace ImageHeader

/-- `size_t pixel_count = width * height`: an `int` product. -/
def pixelCount (h : ImageHeader) : ℕ := toUInt64 (toInt32 (h.width * h.height))

def binaryNeeded (h : ImageHeader) : ℕ := h.pixelCount * bytesPerPixel h.format % 2 ^ 64

/-- The header gets as far as its payload: the dimensions are in range, the array is there, and the vector
for the payload can be made at all. -/
def accepted (h : ImageHeader) (allocated : Bool) : Bool :=
  0 < h.width && 0 < h.height && h.width ≤ 100000 && h.height ≤ 100000 && allocated &&
    h.binaryNeeded < 2 ^ 63

end ImageHeader

/-! ## The pixels -/

/-- The conversion loop: `pixel_count` words to host byte order. -/
def convertPixels (format : PixelFormat) (pixel_count : ℕ) (pixel_buffer : List UInt8) : List ℕ :=
  (List.range pixel_count).map fun i =>
    match format with
    | .uint16 => bswap16 (word16 pixel_buffer i)
    | .uint32 => bswap32 (word32 pixel_buffer i)

/-- An image on an address: the array's size, type, unique id and `ThresholdID`, and the pixels written. -/
structure Image where
  addr : ℕ
  width : ℤ
  height : ℤ
  dataType : PixelFormat
  uniqueId : ℤ
  thresholdId : ℤ
  pixels : List ℕ
deriving DecidableEq

/-! ## The line functions -/

/-- The payload that is not in the buffer. A client that is no longer connected leaves the vector's zeros. -/
def receivePayload (client : NetworkClient) (size : ℕ) : Option (List UInt8) × NetworkClient :=
  if 0 < size && client.connected then client.receive_exact size
  else (some (List.replicate size 0), client)

/-- The header of a line. An error is what the line function returns without reading a payload. -/
def acceptHeader (env : Env) (integrates allocated : Bool) (text : List UInt8) : Except Bool ImageHeader :=
  match env.parse text with
  | none => .error true
  | some j =>
    match readImageHeader integrates j with
    | none => .error false
    | some header => if header.accepted allocated then .ok header else .error false

/-- From an accepted header to the image on its address. -/
def putImage (addrTh0 addrTh1 : ℕ) (header : ImageHeader) (line : Line) (client : NetworkClient)
    (images : List Image) : Traced (LineResult (List Image)) := do
  let buffered ← copyBuffered line header.binaryNeeded
  match receivePayload client (header.binaryNeeded - buffered.length) with
  | (none, client) => return ⟨false, client, images⟩
  | (some rest, client) =>
    let image : Image :=
      { addr := previewNdarrayAddressForThreshold header.threshold_id addrTh0 addrTh1
        width := header.width
        height := header.height
        dataType := header.format
        uniqueId := header.frame_number
        thresholdId := header.threshold_id
        pixels := convertPixels header.format header.pixelCount (buffered ++ rest) }
    return ⟨true, client, images ++ [image]⟩

/-- `processPreviewJsonimageLine` and `processImgDataLine`, which differ in their addresses and in the
integration size. The channel is the list of the images put so far. -/
def processJsonimageLine (env : Env) (integrates : Bool) (addrTh0 addrTh1 : ℕ) (line : Line)
    (client : NetworkClient) (images : List Image) : Traced (LineResult (List Image)) := do
  let json_start ← skipBinary true line.buffer line.line_buffer MAX_BUFFER_SIZE
  if (← read line.buffer json_start) != '{'.toUInt8 then return ⟨true, client, images⟩
  let text ← readCString line.buffer json_start
  match acceptHeader env integrates (env.alloc images.length) text with
  | .error ok => return ⟨ok, client, images⟩
  | .ok header => putImage addrTh0 addrTh1 header line client images

structure PreviewJsonimageStream where
  ndAddrThreshold0 : ℕ
  ndAddrThreshold1 : ℕ

def processPreviewJsonimageLine (env : Env) (stream : PreviewJsonimageStream) :=
  processJsonimageLine env true stream.ndAddrThreshold0 stream.ndAddrThreshold1

/-- `processImgDataLine`: addresses 1 and 13. -/
def processImgDataLine (env : Env) := processJsonimageLine env false 1 13

end ADTimePix3.Stream
