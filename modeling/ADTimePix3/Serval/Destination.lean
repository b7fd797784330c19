import ADTimePix3.Acquire.TcpPath
import ADTimePix3.Serval.JsonPath

/-!
# Destinations

`ADTimePix::fileWriter`, the functions that configure its channels, and `ADTimePix::getServer`
(`serval_http.cpp`). A parameter that has not been set has no value, and reading it fails.

The server keeps the document it is sent: `dump` and `parse` are taken to be inverse. Left out: logging, the
parameters that repeat the outcome of a request, and that `configureImageChannel` writes the format it has
replaced back to its parameter.
-/

namespace ADTimePix3.Serval

open ADTimePix3.Stream (Json)
open ADTimePix3.Stream.Json (PathStep assignFields entries)
open Acquire (stoi)

/-! ## Parameters -/

structure RawParams where
  write : Option ℤ
  stream : Option ℤ
  base : Option String
  filePat : Option String
  splitStrategy : Option ℤ
  queueSize : Option ℤ

structure ImageParams where
  write : Option ℤ
  base : Option String
  filePat : Option String
  format : Option ℤ
  mode : Option ℤ
  intSize : Option ℤ
  intMode : Option ℤ
  stpOnDskLim : Option ℤ
  queueSize : Option ℤ
  ths : Option String

structure HistogramParams where
  write : Option ℤ
  base : Option String
  filePat : Option String
  format : Option ℤ
  mode : Option ℤ
  intSize : Option ℤ
  intMode : Option ℤ
  stpOnDskLim : Option ℤ
  queueSize : Option ℤ
  numBins : Option ℤ
  binWidth : Option ℚ
  offset : Option ℚ

structure DestinationParams where
  raw : RawParams
  raw1 : RawParams
  img : ImageParams
  img1 : ImageParams
  prvImg : ImageParams
  prvImg1 : ImageParams
  prvHst : HistogramParams
  period : Option ℚ
  samplingMode : Option ℤ
  supportsImageThresholds : Bool

/-! ## Fields -/

def IMG_FORMATS : List String := ["tiff", "pgm", "png", "jsonimage", "jsonhisto"]
def IMG_MODES : List String := ["count", "tot", "toa", "tof", "count_fb"]
def SAMPLING_MODES : List String := ["skipOnFrame", "skipOnPeriod"]
def STOP_ON_DISK_LIMIT : List String := ["false", "true"]
def INTEGRATION_MODES : List String := ["sum", "average", "last"]
def SPLIT_STRATEGIES : List String := ["single_file", "frame"]

/-- An entry of a table; none when `validateArrayIndex` fails. -/
def tableEntry (table : List String) (index : ℤ) : Option Json :=
  if 0 ≤ index ∧ index < table.length then table[index.toNat]?.map .string else none

def validateIntegrationSize (size : ℤ) : Bool := size ≥ -1 && size ≤ 32

def startsWith (text : String) (start : String) : Bool := start.toList.isPrefixOf text.toList

/-- `writeChannel != 0`; a flag that cannot be read counts as 0. -/
def isEnabled (write : Option ℤ) : Bool := write.getD 0 != 0

/-- An item of a threshold list without the blanks around it. -/
def trimItem (item : List Char) : List Char :=
  let isBlank : Char → Bool := fun c => c = ' ' || c.toNat = 9
  ((item.dropWhile isBlank).reverse.dropWhile isBlank).reverse

/-- The numbers between the commas, blank items skipped; none when an item is not a number, or when there are
no numbers. -/
def parseThresholdList (text : String) : Option Json := do
  let items := ((text.toList.splitOn ',').map trimItem).filter (· ≠ [])
  let numbers ← items.mapM stoi
  if numbers = [] then none else some (.array (numbers.map .number_integer))

def kDefaultThresholdList : String := "0,1,2,3,4,5,6,7"

/-- The fields that `configureRawChannel` gives a channel. -/
def rawFields (p : RawParams) : Option (List (String × Json)) := do
  let base ← p.base
  if startsWith base "tcp://" then
    let queueSize ← p.queueSize
    some [("Base", .string base), ("QueueSize", .number_integer queueSize)]
  else
    let filePat ← p.filePat
    if p.stream.getD 0 = 0 then
      let splitStrategy ← tableEntry SPLIT_STRATEGIES (← p.splitStrategy)
      let queueSize ← p.queueSize
      some [("Base", .string base), ("FilePattern", .string filePat), ("SplitStrategy", splitStrategy),
        ("QueueSize", .number_integer queueSize)]
    else some [("Base", .string base), ("FilePattern", .string filePat)]

/-- `IntegrationSize`, and `IntegrationMode` where there is something to integrate. -/
def integrationFields (intSize intMode : Option ℤ) : Option (List (String × Json)) := do
  let intSize ← intSize
  if validateIntegrationSize intSize then
    if intSize ≠ 0 ∧ intSize ≠ 1 then
      let intMode ← tableEntry INTEGRATION_MODES (← intMode)
      some [("IntegrationSize", .number_integer intSize), ("IntegrationMode", intMode)]
    else some [("IntegrationSize", .number_integer intSize)]
  else none

def thresholdFields (supportsImageThresholds : Bool) (ths : Option String) : Option (List (String × Json)) :=
  match supportsImageThresholds, ths with
  | true, some ths =>
    (parseThresholdList (if ths = "" then kDefaultThresholdList else ths)).map fun thsArr =>
      [("Thresholds", thsArr)]
  | _, _ => some []

/-- The format of an image channel: files formats that cannot be sent over TCP are replaced by `jsonimage`. -/
def imageFormat (base : String) (format : ℤ) : ℤ :=
  if startsWith base "tcp://" ∧ (format = 0 ∨ format = 2) then 3 else format

/-- The fields that `configureImageChannel` gives a channel. -/
def imageFields (supportsImageThresholds : Bool) (p : ImageParams) : Option (List (String × Json)) := do
  let base ← p.base
  let filePat ← p.filePat
  let format ← tableEntry IMG_FORMATS (imageFormat base (← p.format))
  let mode ← tableEntry IMG_MODES (← p.mode)
  let integration ← integrationFields p.intSize p.intMode
  let stpOnDskLim ← tableEntry STOP_ON_DISK_LIMIT (← p.stpOnDskLim)
  let queueSize ← p.queueSize
  let thresholds ← thresholdFields supportsImageThresholds p.ths
  some ([("Base", .string base), ("FilePattern", .string filePat), ("Format", format), ("Mode", mode)] ++
    integration ++
    [("StopMeasurementOnDiskLimit", stpOnDskLim), ("QueueSize", .number_integer queueSize)] ++ thresholds)

/-- What only a file gets: the pattern before the format, and the disk limit before the queue size. -/
def fileField (streaming : Bool) (name : String) (value : Option Json) : Option (List (String × Json)) :=
  if streaming then some [] else value.map fun v => [(name, v)]

/-- The fields that `configureHistogramChannel` gives its channel. -/
def histogramFields (p : HistogramParams) : Option (List (String × Json)) := do
  let base ← p.base
  let isStreamingConnection := startsWith base "http://" || startsWith base "tcp://"
  let filePat ← fileField isStreamingConnection "FilePattern" (p.filePat.map .string)
  let format ← tableEntry IMG_FORMATS (← p.format)
  let mode ← tableEntry IMG_MODES (← p.mode)
  let integration ← integrationFields p.intSize p.intMode
  let stpOnDskLim ← fileField isStreamingConnection "StopMeasurementOnDiskLimit"
    (p.stpOnDskLim.bind (tableEntry STOP_ON_DISK_LIMIT))
  let queueSize ← p.queueSize
  let numBins ← p.numBins
  let binWidth ← p.binWidth
  let offset ← p.offset
  some ([("Base", .string base)] ++ filePat ++ [("Format", format), ("Mode", mode)] ++ integration ++
    stpOnDskLim ++
    [("QueueSize", .number_integer queueSize), ("NumberOfBins", .number_integer numBins),
      ("BinWidth", .number_float binWidth), ("Offset", .number_float offset)])

/-! ## `fileWriter` -/

/-- The fields of an enabled channel go into its place in the document. -/
def configureChannel (path : List PathStep) (enabled : Bool) (fields : Option (List (String × Json)))
    (server_j : Json) : Option Json :=
  if enabled then do
    let fields ← fields
    assignFields path fields server_j
  else some server_j

def configureRawChannel (channelIndex : ℕ) (p : RawParams) : Json → Option Json :=
  configureChannel [.key "Raw", .index channelIndex] (isEnabled p.write) (rawFields p)

/-- `configureImageChannel` of the paths `Image`, `Image[1]`, `Preview` and `Preview[1]`. -/
def configureImageChannel (supportsImageThresholds isPreview : Bool) (channelIndex : ℕ) (p : ImageParams) :
    Json → Option Json :=
  configureChannel
    (if isPreview then [.key "Preview", .key "ImageChannels", .index channelIndex]
      else [.key "Image", .index channelIndex])
    (isEnabled p.write) (imageFields supportsImageThresholds p)

/-- Here a flag that cannot be read is an error. -/
def configureHistogramChannel (p : HistogramParams) (server_j : Json) : Option Json := do
  let write ← p.write
  configureChannel [.key "Preview", .key "HistogramChannels", .index 0] (write != 0) (histogramFields p) server_j

def configurePreviewSettings (p : DestinationParams) (server_j : Json) : Option Json := do
  let period ← p.period
  let server_j ← server_j.assign [.key "Preview", .key "Period"] (.number_float period)
  let samplingMode ← tableEntry SAMPLING_MODES (← p.samplingMode)
  server_j.assign [.key "Preview", .key "SamplingMode"] samplingMode

/-- `configurePreviewSettings`, where there is a preview channel. -/
def previewSettings (p : DestinationParams) (server_j : Json) : Option Json :=
  if server_j.contains "Preview" then configurePreviewSettings p server_j else some server_j

/-- The document that `fileWriter` builds, and `anyChannelConfigured`. -/
def buildDestination (p : DestinationParams) : Option (Json × Bool) := do
  let server_j ← configureRawChannel 0 p.raw .null
  let any := server_j.contains "Raw"
  let server_j ← configureRawChannel 1 p.raw1 server_j
  let any := any || server_j.contains "Raw"
  let server_j ← configureImageChannel p.supportsImageThresholds false 0 p.img server_j
  let any := any || server_j.contains "Image"
  let server_j ← configureImageChannel p.supportsImageThresholds false 1 p.img1 server_j
  let any := any || server_j.contains "Image"
  let server_j ← configureImageChannel p.supportsImageThresholds true 0 p.prvImg server_j
  let any := any || server_j.contains "Preview"
  let server_j ← configureImageChannel p.supportsImageThresholds true 1 p.prvImg1 server_j
  let any := any || server_j.contains "Preview"
  let server_j ← configureHistogramChannel p.prvHst server_j
  let any := any || server_j.contains "Preview"
  let server_j ← previewSettings p server_j
  some (server_j, any)

/-- `fileWriter`, with the status code that a PUT would get: an error, or the document sent, if any. -/
def fileWriter (p : DestinationParams) (status_code : ℤ) : Option (Option Json) := do
  let (server_j, anyChannelConfigured) ← buildDestination p
  if !anyChannelConfigured then some none
  else if status_code ≠ 200 then none
  else some (some server_j)

/-! ## `getServer` -/

/-- The read-back flags. -/
structure ReadFlags where
  raw : ℤ
  raw1 : ℤ
  img : ℤ
  img1 : ℤ
  prvImg : ℤ
  prvImg1 : ℤ
  prvHst : ℤ
deriving DecidableEq

def destinationBody (parsed : Json) : Json :=
  match parsed.member "Destination" with
  | some (.object members) => .object members
  | _ => parsed

/-- `jsonArraySizeIfArray`, `previewImageChannelCount` and `previewHistogramChannelCount`. -/
def channelCount (names : List String) (server_j : Json) : ℕ := (entries names server_j).length

/-- The flags of the two channels of a kind. -/
def readPair : ℕ → ℤ × ℤ
  | 0 => (0, 0)
  | 1 => (1, 0)
  | _ => (1, 1)

def readFlags (server_j : Json) : ReadFlags where
  raw := (readPair (channelCount ["Raw"] server_j)).1
  raw1 := (readPair (channelCount ["Raw"] server_j)).2
  img := (readPair (channelCount ["Image"] server_j)).1
  img1 := (readPair (channelCount ["Image"] server_j)).2
  prvImg := (readPair (channelCount ["Preview", "ImageChannels"] server_j)).1
  prvImg1 := (readPair (channelCount ["Preview", "ImageChannels"] server_j)).2
  prvHst := (readPair (channelCount ["Preview", "HistogramChannels"] server_j)).1

/-- `getServer`, with the document that the server has. Without one the answer is "Destination is not set", and
the flags stay as they are. -/
def getServer (document : Option Json) (flags : ReadFlags) : ReadFlags :=
  match document with
  | none => flags
  | some parsed => readFlags (destinationBody parsed)

/-! ## Round trips -/

namespace DestinationParams

def writes (p : DestinationParams) : List (Option ℤ) :=
  [p.raw.write, p.raw1.write, p.img.write, p.img1.write, p.prvImg.write, p.prvImg1.write, p.prvHst.write]

/-- Each read-back flag is the flag that was written. -/
structure FlagsAgree (p : DestinationParams) (read : ReadFlags) : Prop where
  raw : p.raw.write = some read.raw
  raw1 : p.raw1.write = some read.raw1
  img : p.img.write = some read.img
  img1 : p.img1.write = some read.img1
  prvImg : p.prvImg.write = some read.prvImg
  prvImg1 : p.prvImg1.write = some read.prvImg1
  prvHst : p.prvHst.write = some read.prvHst

/-- The number of entries that are not `null`. -/
def filledCount (names : List String) (j : Json) : ℕ := (j.filled names).countP id

/-- Each channel array has one entry for each enabled channel of its kind. -/
structure EntriesAgree (p : DestinationParams) (j : Json) : Prop where
  raw : filledCount ["Raw"] j = [p.raw.write, p.raw1.write].countP isEnabled
  img : filledCount ["Image"] j = [p.img.write, p.img1.write].countP isEnabled
  prvImg : filledCount ["Preview", "ImageChannels"] j = [p.prvImg.write, p.prvImg1.write].countP isEnabled
  prvHst : filledCount ["Preview", "HistogramChannels"] j = [p.prvHst.write].countP isEnabled

/-- The server has `document` before, and is sent `sent`. -/
structure RoundTrip (p : DestinationParams) (document : Option Json) (flags : ReadFlags) (sent : Option Json) :
    Prop where
  flags : p.FlagsAgree (getServer (sent.or document) flags)
  entries : ∀ j ∈ sent, p.EntriesAgree j

end DestinationParams

/-- No channel is read back: the document has none, or there is no document and the flags are 0. -/
def NothingStored (document : Option Json) (flags : ReadFlags) : Prop :=
  match document with
  | none => flags = ⟨0, 0, 0, 0, 0, 0, 0⟩
  | some parsed =>
    channelCount ["Raw"] (destinationBody parsed) = 0 ∧ channelCount ["Image"] (destinationBody parsed) = 0 ∧
      channelCount ["Preview", "ImageChannels"] (destinationBody parsed) = 0 ∧
      channelCount ["Preview", "HistogramChannels"] (destinationBody parsed) = 0

/-- The second channel of a kind is on only with the first, and what the server has is not read back as
channels when none is on. -/
structure DestinationParams.Readable (p : DestinationParams) (document : Option Json) (flags : ReadFlags) :
    Prop where
  zero_or_one : ∀ w ∈ p.writes, w = some 0 ∨ w = some 1
  raw : p.raw1.write = some 1 → p.raw.write = some 1
  img : p.img1.write = some 1 → p.img.write = some 1
  prvImg : p.prvImg1.write = some 1 → p.prvImg.write = some 1
  nothing : (∀ w ∈ p.writes, w = some 0) → NothingStored document flags

end ADTimePix3.Serval
