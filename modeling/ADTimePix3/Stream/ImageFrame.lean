import ADTimePix3.Stream.Message
import ADTimePix3.Stream.Worker

/-!
# Frames of a jsonimage stream

A well-formed frame, and the image it stands for. Which frames a worker can read at all is a condition of
its own (`Readable`).
-/

namespace ADTimePix3.Stream

open Img (PixelFormat)
open Memory (Traced)

/-- The name of a pixel format in a header. -/
def formatName : PixelFormat → String
  | .uint16 => "uint16"
  | .uint32 => "uint32"

/-- A frame: a message whose header parses to an object with the size, the pixel format and the number of
the frame, and whose payload has the announced length. -/
structure ImageFrame (parse : List UInt8 → Option Json) where
  message : Message
  json : Json
  width : ℕ
  height : ℕ
  format : PixelFormat
  frameNumber : ℤ
  framed : message.Framed
  parse_header : parse message.header = some json
  width_eq : json.member "width" = some (.number_integer width)
  height_eq : json.member "height" = some (.number_integer height)
  format_eq : json.member "pixelFormat" = some (.string (formatName format))
  frameNumber_eq : json.member "frameNumber" = some (.number_integer frameNumber)
  width_range : 0 < width ∧ width ≤ 100000
  height_range : 0 < height ∧ height ≤ 100000
  size_fits : width * height < 2 ^ 31
  payload_length : message.payload.length = width * height * bytesPerPixel format

inductive ImageWorker where
  | prvImg
  | prvImg1
  | img
deriving DecidableEq

namespace ImageWorker

def turn (env : Env) : ImageWorker → Worker (List Image) → Traced (Worker (List Image))
  | prvImg => prvImgWorkerThread env
  | prvImg1 => prvImg1WorkerThread env
  | img => imgWorkerThread env

def addrs : ImageWorker → ℕ × ℕ
  | prvImg => (0, 8)
  | prvImg1 => (10, 11)
  | img => (1, 13)

def integrates : ImageWorker → Bool
  | img => false
  | _ => true

end ImageWorker

namespace ImageFrame

variable {parse : List UInt8 → Option Json}

/-- The image that a frame stands for. -/
def image (worker : ImageWorker) (f : ImageFrame parse) : Image where
  addr := previewNdarrayAddressForThreshold (jsonImageThresholdId f.json) worker.addrs.1 worker.addrs.2
  width := f.width
  height := f.height
  dataType := f.format
  uniqueId := f.frameNumber
  thresholdId := jsonImageThresholdId f.json
  pixels := (List.range (f.width * f.height)).map fun i =>
    bigEndian (wordBytes (bytesPerPixel f.format) f.message.payload i)

/-- The header line fits the line buffer, and the other members that the worker reads convert: the frame
number fits an `int`, the time and the integration size are absent or numbers. -/
structure Readable (worker : ImageWorker) (f : ImageFrame parse) : Prop where
  line_fits : f.message.line.length < MAX_BUFFER_SIZE
  frameNumber_fits : -2 ^ 31 ≤ f.frameNumber ∧ f.frameNumber < 2 ^ 31
  timeAtFrame : (f.json.value Json.getDouble "timeAtFrame" 0).isSome
  integrationSize : (readIntegrationSize worker.integrates f.json).isSome

end ImageFrame

end ADTimePix3.Stream
