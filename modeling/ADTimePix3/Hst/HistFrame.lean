import ADTimePix3.Stream.Message
import ADTimePix3.Stream.Worker

/-!
# Frames of a jsonhisto stream

A well-formed histogram frame, and the bins it stands for. Which frames the worker can read at all is a
condition of its own (`Readable`).
-/

namespace ADTimePix3.Hst

open ADTimePix3.Stream (Json Message bigEndian wordBytes MAX_BUFFER_SIZE)

/-- A frame: a message whose header parses to an object with the bin size, width and offset, and whose
payload has the announced length. -/
structure HistFrame (parse : List UInt8 → Option Json) where
  message : Message
  json : Json
  binSize : ℕ
  binWidth : ℤ
  binOffset : ℤ
  framed : message.Framed
  parse_header : parse message.header = some json
  binSize_eq : json.member "binSize" = some (.number_integer binSize)
  binWidth_eq : json.member "binWidth" = some (.number_integer binWidth)
  binOffset_eq : json.member "binOffset" = some (.number_integer binOffset)
  binSize_range : 0 < binSize ∧ binSize ≤ 1000000
  payload_length : message.payload.length = 4 * binSize

namespace HistFrame

variable {parse : List UInt8 → Option Json}

/-- The bins that a frame stands for. -/
def bins (f : HistFrame parse) : List ℕ :=
  (List.range f.binSize).map fun i => bigEndian (wordBytes 4 f.message.payload i)

/-- The header line fits the line buffer, and the frame number and the time are absent or numbers. -/
structure Readable (f : HistFrame parse) : Prop where
  line_fits : f.message.line.length < MAX_BUFFER_SIZE
  frameNumber : (f.json.value Json.getInt "frameNumber" 0).isSome
  timeAtFrame : (f.json.value Json.getDouble "timeAtFrame" 0).isSome

def header (f : HistFrame parse) : HistHeader where
  bin_size := f.binSize
  bin_width := Img.toInt32 f.binWidth
  bin_offset := Img.toInt32 f.binOffset
  frame_number := (f.json.value Json.getInt "frameNumber" 0).getD 0
  time_at_frame := (f.json.value Json.getDouble "timeAtFrame" 0).getD 0

def histogram (f : HistFrame parse) : FrameHistogram := frameHistogram f.header f.message.payload

/-- The channel after a frame. -/
def next (ch : PrvHstChannel) (f : HistFrame parse) : PrvHstChannel :=
  { ch with
    state := processPrvHstFrame ch.accumulationEnable (ch.state.withHeader f.header) f.histogram
    handed := ch.handed ++ [f.histogram] }

end HistFrame

end ADTimePix3.Hst
