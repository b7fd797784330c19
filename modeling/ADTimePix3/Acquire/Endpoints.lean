import ADTimePix3.Acquire.Ports
import ADTimePix3.Acquire.Workers
import ADTimePix3.Lib.Runs
import Mathlib.Logic.Function.Basic

/-!
# Paths and endpoints

From the text that a client writes to the host and the port that a worker connects to: `writeOctet` and the functions
that check a path (`ADTimePix.cpp`, `mask_io.cpp`), `syncTcpStreamEndpoints`, `ensurePreviewTcpPortsFree` and
`acquireStart` (`acquire.cpp`), and the beginning of `…Connect` (`serval_stream.cpp`, `histogram_io.cpp`).

Texts are lists of characters, written at address 0. `statDir` says of which paths `stat` finds something with the bit
of a directory. A worker that connects while `acquireStart` runs finds one endpoint or the other, as before or after it;
threads can be created. Left out: the formats of the channels that are kept with an endpoint, messages, and the server.
-/

namespace ADTimePix3.Acquire.Endpoints

open Workers (Channel)

/-! ## Paths -/

section Paths

variable (statDir : List Char → Bool)

def checkPath (filePath : List Char) : List Char × Bool :=
  if filePath = [] then ([], false)
  else
    let filePath := if filePath.getLast? = some '/' then filePath.dropLast else filePath
    (filePath ++ ['/'], statDir filePath)

/-- A directory with its `…PathExists`. -/
structure DirPath where
  filePath : List Char
  pathExists : ℤ

/-- `checkBPCPath` and `checkDACSPath`; the second result says that the status is `asynSuccess`. -/
def checkDirPath (p : DirPath) : DirPath × Bool :=
  if p.filePath = [] then (p, true)
  else
    let (filePath, pathExists) := checkPath statDir p.filePath
    (⟨filePath, if pathExists then 1 else 0⟩, pathExists)

def isFile (filePath : List Char) : Bool := "file:".toList.isPrefixOf filePath

def isHttp (filePath : List Char) : Bool := "http://".toList.isPrefixOf filePath

def isTcp (filePath : List Char) : Bool := "tcp://".toList.isPrefixOf filePath

/-- One slash behind `file:`, and not two. -/
def singleSlash (filePath : List Char) : Prop :=
  filePath[5]? = some '/' ∧ (filePath.length = 6 ∨ filePath[6]? ≠ some '/')

instance (filePath : List Char) : Decidable (singleSlash filePath) := inferInstanceAs (Decidable (_ ∧ (_ ∨ _)))

/-- What `checkChannelPath` makes of a text: the value of the stream parameter, if it is set, and `pathExists`. -/
def pathKind (filePath : List Char) : Option ℤ × Bool :=
  if filePath.length > 6 then
    if isFile filePath then
      if singleSlash filePath then (some 0, (checkPath statDir (filePath.drop 5)).2) else (some 3, false)
    else if isHttp filePath then (some 1, true)
    else if isTcp filePath then (some 2, true)
    else (some 3, false)
  else (none, false)

/-- `…Base`, `…Stream` where there is one (`streamParam` is not −1), and `…FilePathExists`. -/
structure ChannelPath where
  base : List Char
  stream : Option ℤ
  filePathExists : ℤ

def checkChannelPath (c : ChannelPath) : ChannelPath × Bool :=
  if c.base = [] then (c, true)
  else
    let (stream, pathExists) := pathKind statDir c.base
    ({ c with stream := c.stream.map (stream.getD ·), filePathExists := if pathExists then 1 else 0 }, pathExists)

/-- `checkImgPath`, `checkPrvImgPath` and `checkPrvImg1Path`, with the endpoint of the channel. -/
def checkStreamPath (c : ChannelPath) (endpoint : Endpoint) : ChannelPath × Endpoint × Bool :=
  let (c, status) := checkChannelPath statDir c
  if status && isTcp c.base then
    match parseTcpPath c.base with
    | some e => (c, e, true)
    | none => ({ c with filePathExists := 0 }, endpoint, false)
  else (c, endpoint, status)

end Paths

/-! ## The driver -/

inductive PathChannel where
  | raw
  | raw1
  | img
  | img1
  | prvImg
  | prvImg1
  | prvHst
deriving DecidableEq

/-- The path of a channel with a worker. -/
def pathOf : Channel → PathChannel
  | .prvImg => .prvImg
  | .prvImg1 => .prvImg1
  | .img => .img
  | .prvHst => .prvHst

/-- The channels whose endpoint is set by a check of the path. -/
def streamOf : PathChannel → Option Channel
  | .img => some .img
  | .prvImg => some .prvImg
  | .prvImg1 => some .prvImg1
  | _ => none

/-- `texts` and `connections` are a record of what the bases have been and of what has been connected to; nothing
depends on it. -/
structure System where
  bpc : DirPath
  dacs : DirPath
  path : PathChannel → ChannelPath
  endpoint : Channel → Endpoint
  write : Channel → ℤ
  imgAccumulationEnable : ℤ
  prvHstAccumulationEnable : ℤ
  prvHstFormat : ℤ
  running : Channel → Bool
  workerThreadId : Channel → Bool
  texts : PathChannel → List (List Char)
  connections : List (Channel × Endpoint)

def System.init : System where
  bpc := ⟨[], 0⟩
  dacs := ⟨[], 0⟩
  path
    | .raw | .raw1 | .prvHst => ⟨[], some 0, 0⟩
    | _ => ⟨[], none, 0⟩
  endpoint _ := ⟨[], 0⟩
  write _ := 0
  imgAccumulationEnable := 0
  prvHstAccumulationEnable := 0
  prvHstFormat := 0
  running _ := false
  workerThreadId _ := false
  texts _ := []
  connections := []

def setBase (c : PathChannel) (text : List Char) (s : System) : System :=
  { s with
    path := Function.update s.path c { s.path c with base := text }
    texts := Function.update s.texts c (text :: s.texts c) }

section Checks

variable (statDir : List Char → Bool)

/-- The check of a channel's path, each with its own parameters. -/
def checkBase (c : PathChannel) (s : System) : System :=
  match streamOf c with
  | none => { s with path := Function.update s.path c (checkChannelPath statDir (s.path c)).1 }
  | some channel =>
    let (path, endpoint, _) := checkStreamPath statDir (s.path c) (s.endpoint channel)
    { s with
      path := Function.update s.path c path
      endpoint := Function.update s.endpoint channel endpoint }

def checkRawPath : System → System := checkBase statDir .raw

def checkRaw1Path : System → System := checkBase statDir .raw1

def checkImgPath : System → System := checkBase statDir .img

def checkImg1Path : System → System := checkBase statDir .img1

def checkPrvImgPath : System → System := checkBase statDir .prvImg

def checkPrvImg1Path : System → System := checkBase statDir .prvImg1

def checkPrvHstPath : System → System := checkBase statDir .prvHst

def checkPathOf : PathChannel → System → System
  | .raw => checkRawPath statDir
  | .raw1 => checkRaw1Path statDir
  | .img => checkImgPath statDir
  | .img1 => checkImg1Path statDir
  | .prvImg => checkPrvImgPath statDir
  | .prvImg1 => checkPrvImg1Path statDir
  | .prvHst => checkPrvHstPath statDir

/-- `octetValue`: what is written, up to its first NUL. -/
def octetValue (value : List Char) : List Char := value.takeWhile (· ≠ '\x00')

/-- `writeOctet` of a `…Base`. -/
def writeBase (c : PathChannel) (value : List Char) (s : System) : System :=
  checkPathOf statDir c (setBase c (octetValue value) s)

def syncTcpStreamEndpoints (s : System) : System :=
  let s := if s.write .prvImg ≠ 0 then checkPrvImgPath statDir s else s
  let s := if s.write .prvImg1 ≠ 0 then checkPrvImg1Path statDir s else s
  if s.write .img ≠ 0 ∧ isTcp (s.path .img).base then checkImgPath statDir s else s

end Checks

/-! ## Starting the workers -/

def previewChannel (s : System) (c : Channel) : PreviewTcpChannel := ⟨s.write c, (s.path (pathOf c)).base⟩

def previewTcpChannels (s : System) : PreviewTcpChannels where
  prvImg := previewChannel s .prvImg
  prvImg1 := previewChannel s .prvImg1
  img := previewChannel s .img
  prvHst := previewChannel s .prvHst

/-- The base of a channel, where the loop has changed it. -/
def moveBase (s : System) (c : Channel × PreviewTcpChannel) : System :=
  if c.2.baseParam = (s.path (pathOf c.1)).base then s else setBase (pathOf c.1) c.2.baseParam s

def setBases (channels : List PreviewTcpChannel) (s : System) : System :=
  ([Channel.prvImg, .prvImg1, .img, .prvHst].zip channels).foldl moveBase s

/-- `ensurePreviewTcpPortsFree`: whether a base was changed; none is the error that leaves the endpoints as they are. -/
def ensurePortsFree (isTcpPortInUse : List Char → ℕ → Bool) (forceRotate : Bool) (statDir : List Char → Bool)
    (s : System) : System × Option Bool :=
  let (channels, error) := ensurePreviewTcpPortsFree isTcpPortInUse forceRotate (previewTcpChannels s)
  if error.isSome then (setBases channels s, none)
  else (syncTcpStreamEndpoints statDir (setBases channels s), some (channels ≠ (previewTcpChannels s).toList))

def startWorker (c : Channel) (s : System) : System :=
  if !s.running c && !s.workerThreadId c then
    { s with
      running := Function.update s.running c true
      workerThreadId := Function.update s.workerThreadId c true }
  else s

/-- The channel is enabled, and its path is that of a TCP stream. -/
def wanted (s : System) (c : Channel) : Prop := s.write c ≠ 0 ∧ isTcp (s.path (pathOf c)).base = true

instance (s : System) (c : Channel) : Decidable (wanted s c) := inferInstanceAs (Decidable (_ ∧ _))

def startPrvHst (s : System) : System :=
  if wanted s .prvHst ∧ s.prvHstFormat = 4 ∧ s.prvHstAccumulationEnable ≠ 0 then
    match parseTcpPath (s.path .prvHst).base with
    | some e => startWorker .prvHst { s with endpoint := Function.update s.endpoint .prvHst e }
    | none => s
  else s

/-- The end of `acquireStart`. -/
def startWorkers (statDir : List Char → Bool) (s : System) : System :=
  let s := syncTcpStreamEndpoints statDir s
  let s := if wanted s .prvImg then startWorker .prvImg s else s
  let s := if wanted s .prvImg1 then startWorker .prvImg1 s else s
  let s := if wanted s .img ∧ s.imgAccumulationEnable ≠ 0 then startWorker .img s else s
  startPrvHst s

/-- The workers are stopped and joined. -/
def stopWorkers (channels : List Channel) (s : System) : System :=
  { s with
    running := fun c => s.running c && !channels.contains c
    workerThreadId := fun c => s.workerThreadId c && !channels.contains c }

def acquireStop : System → System := stopWorkers [.prvImg, .prvImg1, .img, .prvHst]

inductive StartAnswer where
  | started
  | addressInUse
  | failed
deriving DecidableEq

/-- The answers that `acquireStart` gets: the trigger mode in conflict with both counters, the ports in use, whether
the destinations can be written, and the answer to the start; the last three once more for the second try. -/
structure StartReplies where
  conflict : Bool
  statDir : List Char → Bool
  isTcpPortInUse : List Char → ℕ → Bool
  fileWriter : Bool
  start : StartAnswer
  isTcpPortInUse₂ : List Char → ℕ → Bool
  fileWriter₂ : Bool
  start₂ : Bool

/-- The second try, with other ports. -/
def retryStart (r : StartReplies) (s : System) : System × Bool :=
  match ensurePortsFree r.isTcpPortInUse₂ true r.statDir s with
  | (s, none) => (acquireStop s, false)
  | (s, some changed) =>
    if (!changed || r.fileWriter₂) && r.start₂ then (startWorkers r.statDir s, true) else (acquireStop s, false)

/-- `acquireStart`; the second result says that the measurement is started. -/
def acquireStart (r : StartReplies) (s : System) : System × Bool :=
  let s := stopWorkers [.prvImg, .prvImg1, .img] s
  if r.conflict then (s, false)
  else
    match ensurePortsFree r.isTcpPortInUse false r.statDir s with
    | (s, none) => (s, false)
    | (s, some changed) =>
      if changed && !r.fileWriter then (s, false)
      else
        match r.start with
        | .started => (startWorkers r.statDir s, true)
        | .failed => (acquireStop s, false)
        | .addressInUse => retryStart r s

/-! ## Runs -/

inductive Setting where
  | write (c : Channel)
  | imgAccumulationEnable
  | prvHstAccumulationEnable
  | prvHstFormat

inductive Event where
  | writeBase (c : PathChannel) (value : List Char) (statDir : List Char → Bool)
  | writeBPCFilePath (value : List Char) (statDir : List Char → Bool)
  | writeDACSFilePath (value : List Char) (statDir : List Char → Bool)
  | set (setting : Setting) (value : ℤ)
  | acquireStart (r : StartReplies)
  | acquireStop
  | connect (c : Channel)
  /-- The connection is closed by the peer. -/
  | closed (c : Channel)

def setValue (s : System) (value : ℤ) : Setting → System
  | .write c => { s with write := Function.update s.write c value }
  | .imgAccumulationEnable => { s with imgAccumulationEnable := value }
  | .prvHstAccumulationEnable => { s with prvHstAccumulationEnable := value }
  | .prvHstFormat => { s with prvHstFormat := value }

/-- `…Connect`, with the host and the port that are there. -/
def connect (c : Channel) (s : System) : System :=
  let e := s.endpoint c
  if e.host = [] ∨ e.port = 0 then s else { s with connections := (c, e) :: s.connections }

def step (s : System) : Event → Option System
  | .writeBase c value statDir => some (writeBase statDir c value s)
  | .writeBPCFilePath value statDir =>
    some { s with bpc := (checkDirPath statDir { s.bpc with filePath := octetValue value }).1 }
  | .writeDACSFilePath value statDir =>
    some { s with dacs := (checkDirPath statDir { s.dacs with filePath := octetValue value }).1 }
  | .set setting value => some (setValue s value setting)
  | .acquireStart r => some (acquireStart r s).1
  | .acquireStop => some (acquireStop s)
  | .connect c => if s.running c then some (connect c s) else none
  | .closed c => if s.running c then some { s with running := Function.update s.running c false } else none

/-! ## What is expected -/

/-- A text that `pathKind` takes, whatever the files are. -/
def Accepted (c : PathChannel) (text : List Char) : Prop :=
  text.length > 6 ∧ isFile text = false ∧
    (isHttp text = true ∨ isTcp text = true ∧ ((streamOf c).isSome → (parseTcpPath text).isSome))

/-- The parameters of a path say what kind of text it is. The empty text is not looked at. -/
structure Classified (c : PathChannel) (p : ChannelPath) : Prop where
  stream : p.base.length > 6 → ∀ v ∈ p.stream, v =
    if isFile p.base then if singleSlash p.base then 0 else 3
    else if isHttp p.base then 1 else if isTcp p.base then 2 else 3
  accepted : p.base ≠ [] → isFile p.base = false →
    (p.filePathExists = 1 ↔ Accepted c p.base) ∧ (p.filePathExists = 0 ↔ ¬Accepted c p.base)
  refused : p.base ≠ [] → isFile p.base = true → ¬(p.base.length > 6 ∧ singleSlash p.base) → p.filePathExists = 0

/-- A directory ends with a slash, and checking it again leaves it as it is. -/
def Normal (p : DirPath) : Prop :=
  p.filePath = [] ∨ p.filePath.getLast? = some '/' ∧ ∀ statDir, (checkDirPath statDir p).1.filePath = p.filePath

/-- Host and port have come from one text that the base of the channel has been. -/
def FromText (s : System) (c : Channel) (e : Endpoint) : Prop :=
  ∃ text ∈ s.texts (pathOf c), parseTcpPath text = some e

/-- The endpoint of a channel is that of its path. -/
def Current (s : System) (c : Channel) : Prop := ∀ e ∈ parseTcpPath (s.path (pathOf c)).base, s.endpoint c = e

/-- After a start the workers of the enabled streams run, and their endpoints are those of their paths. -/
structure StartedAtPaths (s : System) : Prop where
  running : ∀ c ≠ .prvHst, s.running c = true ↔ wanted s c ∧ (c = .img → s.imgAccumulationEnable ≠ 0)
  current : ∀ c ≠ .prvHst, s.running c = true → Current s c
  prvHst : wanted s .prvHst → s.prvHstFormat = 4 → s.prvHstAccumulationEnable ≠ 0 → Current s .prvHst

/-- There are other ports for the channels that are moved. -/
def FindsPorts (s : System) : Event → Prop
  | .acquireStart r =>
    let s := stopWorkers [.prvImg, .prvImg1, .img] s
    (ensurePortsFree r.isTcpPortInUse false r.statDir s).2.isSome ∧
      (r.start = .addressInUse →
        (ensurePortsFree r.isTcpPortInUse₂ true r.statDir
          (ensurePortsFree r.isTcpPortInUse false r.statDir s).1).2.isSome)
  | _ => True

end ADTimePix3.Acquire.Endpoints
