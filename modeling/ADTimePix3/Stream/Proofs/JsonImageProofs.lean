import ADTimePix3.Stream.ImageFrame
import ADTimePix3.Stream.Proofs.JsonProofs
import ADTimePix3.Stream.Proofs.WorkerProofs

/-!
# Images from frames

The line functions of the jsonimage workers turn a well-formed frame into its image. So an aligned stream of
frames that the worker can read gives the images of the frames, in order and none besides
(`images_eq_frames`). A frame that is received together with the next one can swallow it
(`images_lost`).
-/

namespace ADTimePix3.Stream

open Memory Traced Chunks NetworkClient
open Img (toInt32 toUInt64 PixelFormat)

/-! ## The header -/

variable {env : Env} {worker : ImageWorker} {f : ImageFrame env.parse}

namespace ImageFrame

theorem Readable.readImageHeader_eq (h : f.Readable worker) :
    ∃ header, readImageHeader worker.integrates f.json = some header ∧ header.width = f.width ∧
      header.height = f.height ∧ header.format = f.format ∧ header.frame_number = f.frameNumber ∧
      header.threshold_id = jsonImageThresholdId f.json := by
  have hwidth : f.json.intAt "width" = some (f.width : ℤ) := by
    have hrange := f.width_range
    rw [Json.intAt_of_member f.width_eq, toInt32_of_range (by omega)]
  have hheight : f.json.intAt "height" = some (f.height : ℤ) := by
    have hrange := f.height_range
    rw [Json.intAt_of_member f.height_eq, toInt32_of_range (by omega)]
  have hformat : f.json.value Json.getString "pixelFormat" "uint16" = some (formatName f.format) :=
    Json.value_of_member f.format_eq _
  have hnumber : f.json.value Json.getInt "frameNumber" 0 = some f.frameNumber := by
    rw [Json.value_of_member f.frameNumber_eq, Json.getInt, toInt32_of_range h.frameNumber_fits]
  obtain ⟨time, htime⟩ := Option.isSome_iff_exists.mp h.timeAtFrame
  obtain ⟨size, hsize⟩ := Option.isSome_iff_exists.mp h.integrationSize
  have huint32 : (if formatName f.format == "uint32" || formatName f.format == "UINT32" then
      PixelFormat.uint32 else PixelFormat.uint16) = f.format := by
    cases f.format <;> rfl
  refine ⟨⟨f.width, f.height, f.format, f.frameNumber, time, jsonImageThresholdId f.json, size⟩, ?_,
    rfl, rfl, rfl, rfl, rfl⟩
  simp only [readImageHeader, hwidth, hheight, hformat, hnumber, htime, hsize, Option.bind_eq_bind,
    Option.bind_some, huint32]

end ImageFrame

/-- A header that announces a frame's size and format asks for the frame's payload. -/
theorem ImageHeader.pixelCount_eq {header : ImageHeader} (hwidth : header.width = f.width)
    (hheight : header.height = f.height) : header.pixelCount = f.width * f.height := by
  have hfits := f.size_fits
  rw [pixelCount, hwidth, hheight, ← Int.natCast_mul, toInt32_of_range (by omega),
    toUInt64_natCast (by omega)]

theorem ImageHeader.binaryNeeded_eq {header : ImageHeader} (hwidth : header.width = f.width)
    (hheight : header.height = f.height) (hformat : header.format = f.format) :
    header.binaryNeeded = f.message.payload.length ∧ header.binaryNeeded < 2 ^ 34 := by
  have hfits := f.size_fits
  have hbytes : bytesPerPixel f.format ≤ 4 := by cases f.format <;> decide
  have hlt : f.width * f.height * bytesPerPixel f.format < 2 ^ 34 := by
    calc f.width * f.height * bytesPerPixel f.format
        ≤ f.width * f.height * 4 := Nat.mul_le_mul_left _ hbytes
      _ < 2 ^ 34 := by omega
  rw [binaryNeeded, pixelCount_eq hwidth hheight, hformat, f.payload_length, Nat.mod_eq_of_lt (by omega)]
  exact ⟨rfl, hlt⟩

/-! ## The payload -/

/-- The part of the payload that is not in the buffer comes from the client. -/
theorem receivePayload_takesExactly : TakesExactly receivePayload := by
  apply takesExactly_of_receive_exact
  · intro client
    rfl
  · intro client size hconnected hpos
    unfold receivePayload
    rw [hconnected, decide_eq_true hpos]
    rfl

theorem convertPixels_eq {format : PixelFormat} {count : ℕ} {payload : List UInt8}
    (h : payload.length = count * bytesPerPixel format) :
    convertPixels format count payload =
      (List.range count).map fun i => bigEndian (wordBytes (bytesPerPixel format) payload i) := by
  unfold convertPixels
  apply List.map_congr_left
  intro i hi
  have hlt := List.mem_range.mp hi
  cases format with
  | uint16 =>
    change payload.length = count * 2 at h
    exact bswap16_word16 (by omega)
  | uint32 =>
    change payload.length = count * 4 at h
    exact bswap32_word32 (by omega)

/-! ## The line functions -/

variable {integrates : Bool} {addrTh0 addrTh1 : ℕ} {line : Line} {client : NetworkClient}
  {images : List Image}

theorem val_processJsonimageLine (hstart : line.line_buffer < MAX_BUFFER_SIZE)
    (hbrace : line.buffer line.line_buffer = '{'.toUInt8) :
    (processJsonimageLine env integrates addrTh0 addrTh1 line client images).val =
      match acceptHeader env integrates (env.alloc images.length)
        (readCString line.buffer line.line_buffer).val with
      | .error ok => ⟨ok, client, images⟩
      | .ok header => (putImage addrTh0 addrTh1 header line client images).val := by
  unfold processJsonimageLine
  rw [val_bind, val_skipBinary hstart hbrace, val_bind, val_read, hbrace]
  show (readCString line.buffer line.line_buffer >>= _).val = _
  rw [val_bind]
  cases acceptHeader env integrates (env.alloc images.length)
    (readCString line.buffer line.line_buffer).val <;> rfl

theorem acceptHeader_eq (h : f.Readable worker) :
    ∃ header, acceptHeader env worker.integrates true f.message.header = .ok header ∧
      header.width = f.width ∧ header.height = f.height ∧ header.format = f.format ∧
      header.frame_number = f.frameNumber ∧ header.threshold_id = jsonImageThresholdId f.json := by
  obtain ⟨header, hread, hwidth, hheight, hformat, hnumber, hthreshold⟩ := h.readImageHeader_eq
  refine ⟨header, ?_, hwidth, hheight, hformat, hnumber, hthreshold⟩
  have hwrange := f.width_range
  have hhrange := f.height_range
  have hneeded := (ImageHeader.binaryNeeded_eq hwidth hheight hformat).2
  have haccepted : header.accepted true = true := by
    unfold ImageHeader.accepted
    rw [hwidth, hheight]
    simp only [Bool.and_eq_true, decide_eq_true_eq, and_true]
    omega
  unfold acceptHeader
  rw [f.parse_header]
  dsimp only
  rw [hread]
  exact if_pos haccepted

/-- The image of a frame whose payload is partly in the buffer. -/
theorem val_putImage {header : ImageHeader} {buffer : ℕ → UInt8} {n : ℕ} {tail : List UInt8}
    (hwidth : header.width = f.width) (hheight : header.height = f.height)
    (hformat : header.format = f.format) (hnumber : header.frame_number = f.frameNumber)
    (hthreshold : header.threshold_id = jsonImageThresholdId f.json) (hn : n ≤ f.message.payload.length)
    (hpayload : Holds buffer f.message.line.length (f.message.payload.take n))
    (hready : Ready client (f.message.payload.drop n ++ tail)) (images : List Image) :
    ∃ client', (putImage worker.addrs.1 worker.addrs.2 header
        ⟨buffer, 0, f.message.header.length, f.message.line.length + n⟩ client images).val =
        ⟨true, client', images ++ [f.image worker]⟩ ∧
      Ready client' tail ∧ KeepsCuts client (f.message.payload.length - n) client' := by
  have hneeded := (ImageHeader.binaryNeeded_eq hwidth hheight hformat).1
  obtain ⟨client', hcopy, hrecv, hready', hcuts⟩ :=
    payload_taken receivePayload_takesExactly hn hpayload hready
  refine ⟨client', ?_, hready', hcuts⟩
  have hpixels : convertPixels header.format header.pixelCount f.message.payload =
      (f.image worker).pixels := by
    rw [ImageHeader.pixelCount_eq hwidth hheight, hformat]
    exact convertPixels_eq f.payload_length
  unfold putImage
  rw [val_bind, hneeded, hcopy, hrecv]
  show LineResult.mk true client' (images ++ [_]) = _
  rw [List.take_append_drop, hpixels, hwidth, hheight, hformat, hnumber, hthreshold]
  rfl

/-- A frame that the worker can read is put on its address. -/
theorem processJsonimageLine_handles (halloc : ∀ n, env.alloc n = true) (h : f.Readable worker)
    (images : List Image) :
    (jsonimageLines env (processJsonimageLine env worker.integrates worker.addrs.1 worker.addrs.2)).Handles
      f.message images (images ++ [f.image worker]) := by
  constructor
  · rw [LineKind.isHeader_of_parse f.parse_header]
    show (f.json.contains "width" || _) = true
    rw [Json.contains, f.width_eq]
    rfl
  · intro buffer n client tail hn hheader hnul hpayload hroom hready
    have hline := f.message.length_line
    obtain ⟨hbrace, -⟩ := f.framed.brace_quote hheader
    have htext := f.framed.readCString_eq hheader hnul (by omega)
    obtain ⟨header, haccept, hwidth, hheight, hformat, hnumber, hthreshold⟩ := acceptHeader_eq h
    obtain ⟨client', hput, hready', hcuts⟩ :=
      val_putImage hwidth hheight hformat hnumber hthreshold hn hpayload hready images
    refine ⟨client', ?_, hready', hcuts⟩
    show (processJsonimageLine _ _ _ _ _ _ _).val = _
    rw [val_processJsonimageLine (show 0 < MAX_BUFFER_SIZE by decide) hbrace, htext, halloc, haccept]
    exact hput

theorem processJsonimageLine_channel (line : Line) (client : NetworkClient) (images : List Image) :
    images <+: (processJsonimageLine env integrates addrTh0 addrTh1 line client images).val.channel := by
  unfold processJsonimageLine
  rw [val_bind, val_bind, val_read]
  by_cases hbrace : (line.buffer (skipBinary true line.buffer line.line_buffer MAX_BUFFER_SIZE).val !=
      '{'.toUInt8) = true
  · rw [if_pos hbrace]
    exact List.prefix_rfl
  rw [if_neg hbrace]
  show images <+: (readCString line.buffer _ >>= _ : Traced (LineResult (List Image))).val.channel
  rw [val_bind]
  cases acceptHeader env integrates (env.alloc images.length) (readCString line.buffer
    (skipBinary true line.buffer line.line_buffer MAX_BUFFER_SIZE).val).val with
  | error ok => exact List.prefix_rfl
  | ok header =>
    show images <+: (putImage addrTh0 addrTh1 header line client images).val.channel
    unfold putImage
    rw [val_bind]
    rcases receivePayload client (header.binaryNeeded - (copyBuffered line header.binaryNeeded).val.length)
      with ⟨_ | rest, client'⟩
    · exact List.prefix_rfl
    · exact List.prefix_append images _

/-! ## The workers -/

theorem ImageWorker.turn_eq (env : Env) (worker : ImageWorker) :
    worker.turn env = readTurn (jsonimageLines env
      (processJsonimageLine env worker.integrates worker.addrs.1 worker.addrs.2)) := by
  cases worker <;> rfl

/-- Until it leaves the loop a worker puts the beginning of what it puts in all. -/
theorem images_grow {w : Worker (List Image)} {last : ℕ}
    (hstop : (turns (worker.turn env) last w).running = false) (n : ℕ) :
    (turns (worker.turn env) n w).channel <+: (turns (worker.turn env) last w).channel := by
  rw [ImageWorker.turn_eq] at hstop ⊢
  exact turns_channel (fun _ => List.prefix_rfl) (fun _ _ _ => List.IsPrefix.trans)
    processJsonimageLine_channel hstop n

/-- An aligned stream of frames that the worker can read gives the images of the frames, in order and none
besides: at any time a beginning of them, and all of them when the worker leaves the loop. -/
theorem images_eq_frames (halloc : ∀ n, env.alloc n = true) (frames : List (ImageFrame env.parse))
    (hread : ∀ f ∈ frames, f.Readable worker) (buffer : ℕ → UInt8) (pieces : List (List UInt8))
    (hpieces : Delivers pieces (streamOf (frames.map ImageFrame.message)))
    (haligned : Aligned (frames.map ImageFrame.message) pieces) :
    (∀ n, (turns (worker.turn env) n (.start buffer ⟨true, pieces⟩ [])).channel <+:
      frames.map (ImageFrame.image worker)) ∧
    ∃ n, (turns (worker.turn env) n (.start buffer ⟨true, pieces⟩ [])).running = false ∧
      (turns (worker.turn env) n (.start buffer ⟨true, pieces⟩ [])).channel =
        frames.map (ImageFrame.image worker) := by
  obtain ⟨last, hstop, hchannel⟩ : ∃ n,
      (turns (worker.turn env) n (.start buffer ⟨true, pieces⟩ [])).running = false ∧
      (turns (worker.turn env) n (.start buffer ⟨true, pieces⟩ [])).channel =
        frames.foldl (fun images f => images ++ [f.image worker]) [] := by
    rw [ImageWorker.turn_eq]
    refine turns_stream (fun _ => True) (fun f _ => f.framed) (fun f hf => (hread f hf).line_fits)
      ?_ rfl trivial (Or.inr rfl) ⟨rfl, hpieces⟩ haligned
    intro f hf images _
    exact ⟨processJsonimageLine_handles halloc (hread f hf) images, trivial⟩
  rw [List.foldl_append_eq_append, List.nil_append, ← List.flatMap_def,
    ← List.map_eq_flatMap] at hchannel
  refine ⟨fun n => ?_, last, hstop, hchannel⟩
  rw [← hchannel]
  exact images_grow hstop n

/-! ### Two frames of one pixel -/

/-- The header of a frame of one 16-bit pixel, with a frame number of one digit. -/
def pixelHeader (digit : Char) : List UInt8 :=
  ("\x7b\"width\":1,\"height\":1,\"pixelFormat\":\"uint16\",\"frameNumber\":".toList ++ [digit, '\x7d']).map
    Char.toUInt8

def pixelJson (number : ℤ) : Json :=
  .object [("width", .number_integer 1), ("height", .number_integer 1), ("pixelFormat", .string "uint16"),
    ("frameNumber", .number_integer number)]

def pixelEnv : Env where
  parse := fun text =>
    if text = pixelHeader '1' then some (pixelJson 1)
    else if text = pixelHeader '2' then some (pixelJson 2)
    else none
  alloc := fun _ => true

def pixelFrame (digit : Char) (number : ℤ) (high low : UInt8)
    (hframed : (⟨pixelHeader digit, [high, low]⟩ : Message).Framed)
    (hparse : pixelEnv.parse (pixelHeader digit) = some (pixelJson number)) :
    ImageFrame pixelEnv.parse where
  message := ⟨pixelHeader digit, [high, low]⟩
  json := pixelJson number
  width := 1
  height := 1
  format := .uint16
  frameNumber := number
  framed := hframed
  parse_header := hparse
  width_eq := rfl
  height_eq := rfl
  format_eq := rfl
  frameNumber_eq := rfl
  width_range := by decide
  height_range := by decide
  size_fits := by decide
  payload_length := rfl

def pixelFrame1 : ImageFrame pixelEnv.parse :=
  pixelFrame '1' 1 1 2 ⟨by decide +kernel, by decide +kernel, by decide +kernel⟩ rfl

def pixelFrame2 : ImageFrame pixelEnv.parse :=
  pixelFrame '2' 2 3 4 ⟨by decide +kernel, by decide +kernel, by decide +kernel⟩ rfl

def pixelPieces : List (List UInt8) :=
  [pixelFrame1.message.line, [1, 2], pixelFrame2.message.line, [3, 4]]

theorem images_eq_frames_pixels :
    (∀ n, (turns (ImageWorker.prvImg.turn pixelEnv) n
        (.start (fun _ => 0) ⟨true, pixelPieces⟩ [])).channel <+:
      [pixelFrame1.image .prvImg, pixelFrame2.image .prvImg]) ∧
    ∃ n, (turns (ImageWorker.prvImg.turn pixelEnv) n
        (.start (fun _ => 0) ⟨true, pixelPieces⟩ [])).running = false ∧
      (turns (ImageWorker.prvImg.turn pixelEnv) n (.start (fun _ => 0) ⟨true, pixelPieces⟩ [])).channel =
        [pixelFrame1.image .prvImg, pixelFrame2.image .prvImg] := by
  refine images_eq_frames (fun _ => rfl) [pixelFrame1, pixelFrame2] ?_ (fun _ => 0) pixelPieces
    ⟨by decide +kernel, by decide +kernel⟩ (aligned_pair ⟨[pixelFrame1.message.line], _, rfl, rfl⟩)
  intro f hf
  rcases List.mem_pair.mp hf with rfl | rfl
  · exact ⟨by decide +kernel, by decide, rfl, rfl⟩
  · exact ⟨by decide +kernel, by decide, rfl, rfl⟩

/-- Two frames in one piece: the second one stays in the buffer until the connection is closed, and is lost. -/
theorem images_lost :
    Delivers [streamOf [pixelFrame1.message, pixelFrame2.message]]
      (streamOf [pixelFrame1.message, pixelFrame2.message]) ∧
    ∀ n, (turns (ImageWorker.prvImg.turn pixelEnv) n
        (.start (fun _ => 0) ⟨true, [streamOf [pixelFrame1.message, pixelFrame2.message]]⟩ [])).channel ≠
      [pixelFrame1.image .prvImg, pixelFrame2.image .prvImg] := by
  constructor
  · exact ⟨by decide +kernel, by decide +kernel⟩
  · intro n heq
    have hstop : (turns (ImageWorker.prvImg.turn pixelEnv) 2
        (.start (fun _ => 0) ⟨true, [streamOf [pixelFrame1.message, pixelFrame2.message]]⟩ [])).running =
          false ∧
        (turns (ImageWorker.prvImg.turn pixelEnv) 2
        (.start (fun _ => 0) ⟨true, [streamOf [pixelFrame1.message, pixelFrame2.message]]⟩ [])).channel.length =
          1 := by
      decide +kernel
    have hprefix := (images_grow hstop.1 n).length_le
    rw [heq, hstop.2] at hprefix
    exact absurd hprefix (Nat.not_le.mpr Nat.one_lt_two)

end ADTimePix3.Stream
