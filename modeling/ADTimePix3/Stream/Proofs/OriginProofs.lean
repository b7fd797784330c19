import ADTimePix3.Stream.Proofs.BoundsProofs

/-!
# What the origin of a byte is, and what a frame is made of

`origin` counts the bytes that were ever put into the buffer: it leads to the byte that lies at the index
(`byte_of_origin`). The frame of a turn is made of the bytes at the indices in `taken`, and of what the socket gives
(`frames_made_of_taken`).
-/

namespace ADTimePix3.Stream

open Memory Traced

variable {σ : Type} {kind : LineKind σ} {request : Line → σ → Option ℕ} {w : Worker σ}

namespace ReadRun

variable {n : ℕ}

theorem arrived_succ (run : ReadRun σ) (n : ℕ) :
    run.arrived (n + 1) = run.arrived n ++ slice (run.filled n).buffer (run.before n).totalRead
      ((run.filled n).totalRead - (run.before n).totalRead) := by
  unfold arrived
  rw [List.range_succ, List.flatMap_append, List.flatMap_singleton]

/-- The buffer of a worker holds the last of the bytes in a list, from an index of the list on. -/
structure HoldsFrom (bytes : List UInt8) (gone : ℕ) (w : Worker σ) : Prop where
  length : bytes.length = gone + w.totalRead
  bytes : ∀ i < w.totalRead, bytes[gone + i]? = some (w.buffer i)

theorem getElem?_slice {mem : ℕ → UInt8} {p m i : ℕ} (hi : i < m) : (slice mem p m)[i]? = some (mem (p + i)) := by
  rw [slice, List.getElem?_map, List.getElem?_range hi]
  rfl

theorem holdsFrom_filled (hfilled : ((loopRun kind request w).filled n).running = true)
    (h : HoldsFrom ((loopRun kind request w).arrived n) ((loopRun kind request w).gone n)
      ((loopRun kind request w).before n)) :
    HoldsFrom ((loopRun kind request w).arrived (n + 1)) ((loopRun kind request w).gone n)
      ((loopRun kind request w).filled n) := by
  obtain ⟨hbefore, hmore, -⟩ := loop_scans hfilled
  obtain ⟨hle, hkept⟩ := readMore_keeps hbefore (hmore ▸ hfilled)
  rw [← hmore] at hle hkept
  rw [arrived_succ]
  have hlength := h.length
  constructor
  · rw [List.length_append, length_slice]
    omega
  · intro i hi
    by_cases hlt : i < ((loopRun kind request w).before n).totalRead
    · rw [List.getElem?_append_left (by omega), h.bytes i hlt, hkept i hlt]
    · rw [List.getElem?_append_right (by omega), getElem?_slice (by omega)]
      congr 2
      omega

/-- Run lemma: what lies in the buffer is what was put into it last. -/
theorem holdsFrom_before (hstart : w.totalRead = 0)
    (hrun : ((loopRun kind request w).before n).running = true) :
    HoldsFrom ((loopRun kind request w).arrived n) ((loopRun kind request w).gone n)
      ((loopRun kind request w).before n) := by
  induction n with
  | zero =>
    refine ⟨?_, fun i hi => ?_⟩
    · show 0 = 0 + w.totalRead
      omega
    · have hlt : i < w.totalRead := hi
      omega
  | succ n ih =>
    have hfilled : ((loopRun kind request w).filled n).running = true := by
      by_contra hstop
      exact hstop ((loop_ends hstop).1 ▸ hrun)
    have hold := holdsFrom_filled hfilled (ih (loop_running hrun (Nat.le_succ n)))
    have hnext := loop_next hfilled
    rw [hnext] at hrun
    obtain ⟨d, hd, hbytes, -⟩ := scanBuffer_shift hrun
    have hlength := hold.length
    rw [gone_succ, hnext]
    refine ⟨by omega, fun i hi => ?_⟩
    rw [hbytes i hi, ← hold.bytes (d + i) (by omega)]
    congr 1
    omega

/-- The byte that lies at an index after a receive is the one that its origin says. -/
theorem byte_of_origin (hstart : w.totalRead = 0)
    (hfilled : ((loopRun kind request w).filled n).running = true) {i : ℕ}
    (hi : i < ((loopRun kind request w).filled n).totalRead) :
    ((loopRun kind request w).arrived (n + 1))[(loopRun kind request w).origin n i]? =
      some (((loopRun kind request w).filled n).buffer i) :=
  (holdsFrom_filled hfilled (holdsFrom_before hstart (loop_scans hfilled).1)).bytes i hi

/-! ## What a frame is made of -/

theorem filledBy_channel (w : Worker σ) : (filledBy readMore w).channel = w.channel := by
  unfold filledBy
  by_cases hrun : w.running = true
  · rw [if_pos hrun, readMore_channel]
  · rw [if_neg hrun]

theorem resetIfFull_channel (w : Worker σ) : w.resetIfFull.channel = w.channel :=
  (apply_ite Worker.channel _ _ _).trans (ite_self _)

/-- Without a line the channel stays as it is; with a line it is what the line function leaves. -/
theorem loop_channel (kind : LineKind σ) (request : Line → σ → Option ℕ) (hfits : Fits w) (n : ℕ) :
    ((loopRun kind request w).payload n = none ∧
        ((loopRun kind request w).before (n + 1)).channel = ((loopRun kind request w).before n).channel) ∨
      ∃ line, Scanned line ∧ line.buffer = set ((loopRun kind request w).filled n).buffer line.newline_pos 0 ∧
        (loopRun kind request w).payload n =
          (request line ((loopRun kind request w).before n).channel).map (fun needed => (line, needed)) ∧
        ((loopRun kind request w).before (n + 1)).channel =
          (kind.processLine line ((loopRun kind request w).filled n).client
            ((loopRun kind request w).before n).channel).val.channel := by
  have hchannel : ((loopRun kind request w).filled n).channel = ((loopRun kind request w).before n).channel :=
    filledBy_channel _
  by_cases hfilled : ((loopRun kind request w).filled n).running = true
  · obtain ⟨hbefore, hmore, -⟩ := loop_scans hfilled
    have hroom : ((loopRun kind request w).filled n).totalRead < MAX_BUFFER_SIZE := by
      rw [hmore]
      exact readMore_totalRead (turns_invariant Fits (fun _ => readTurn_fits) hfits n hbefore)
    have hpayload : (loopRun kind request w).payload n =
        payloadLine kind request ((loopRun kind request w).filled n) := if_pos hfilled
    have hnext : ((loopRun kind request w).before (n + 1)).channel =
        (((loopRun kind request w).filled n).scanLine kind).val.channel := by
      rw [loop_next hfilled]
      exact resetIfFull_channel _
    rw [hpayload, hnext, ← hchannel]
    obtain ⟨hnone, -, hval⟩ | ⟨line, hsome, -, -, hbuffer, hscanned, -, hval⟩ :=
      scanLine_cases kind ((loopRun kind request w).filled n)
    · refine Or.inl ⟨payloadLine_of_none hnone, ?_⟩
      obtain hval | ⟨newline_pos, -, hval⟩ := hval
      · rw [hval]
      · rw [hval]
        rfl
    · refine Or.inr ⟨line, hscanned hroom, hbuffer, payloadLine_of_scanned hsome, ?_⟩
      rw [hval]
      cases (kind.processLine line ((loopRun kind request w).filled n).client
        ((loopRun kind request w).filled n).channel).val.ok <;> rfl
  · exact Or.inl ⟨if_neg hfilled, by rw [(loop_ends hfilled).1, hchannel]⟩

/-- The bytes that are copied are those of the buffer at the indices taken. -/
theorem copyBuffered_eq {run : ReadRun σ} {line : Line} {needed : ℕ} (h : run.payload n = some (line, needed))
    (hbuffer : line.buffer = set (run.filled n).buffer line.newline_pos 0) :
    (copyBuffered line needed).val = (run.taken n).map (run.filled n).buffer := by
  have htaken : run.taken n = (copyBuffered line needed).reads := by
    unfold taken
    rw [h]
  rw [htaken]
  unfold copyBuffered readRange
  dsimp only
  rw [slice, List.range'_eq_map_range, List.map_map, hbuffer]
  refine List.map_congr_left fun i _ => ?_
  exact if_neg (by omega)

theorem madeOf_copyBuffered (hstart : w.totalRead = 0) {line : Line} {needed : ℕ}
    (h : (loopRun kind request w).payload n = some (line, needed))
    (hbuffer : line.buffer = set ((loopRun kind request w).filled n).buffer line.newline_pos 0) :
    (loopRun kind request w).MadeOf n (copyBuffered line needed).val where
  bytes_eq := copyBuffered_eq h hbuffer
  origin_eq := fun _ _ hi => byte_of_origin hstart (loop_payload h).1 hi

end ReadRun

section Images

variable (env : Env) (integrates : Bool) (addrTh0 addrTh1 : ℕ)

theorem imageRequest_of_ok {line : Line} {images : List Image} {header : ImageHeader}
    (h : acceptHeader env integrates (env.alloc images.length) (readCString line.buffer line.line_buffer).val =
      .ok header) : imageRequest env integrates line images = some header.binaryNeeded := by
  unfold imageRequest
  rw [h]

/-- The image of a line, with the payload that was in the buffer and that from the socket. -/
theorem image_of_line {line : Line} (h : Scanned line) (client : NetworkClient) (images : List Image) :
    (processJsonimageLine env integrates addrTh0 addrTh1 line client images).val.channel = images ∨
      ∃ (header : ImageHeader) (rest : List UInt8) (client' : NetworkClient) (image : Image),
        acceptHeader env integrates (env.alloc images.length)
          (readCString line.buffer line.line_buffer).val = .ok header ∧
        receivePayload client (header.binaryNeeded - (copyBuffered line header.binaryNeeded).val.length) =
          (some rest, client') ∧
        (processJsonimageLine env integrates addrTh0 addrTh1 line client images).val.channel =
          images ++ [image] ∧
        image.pixels = convertPixels header.format header.pixelCount
          ((copyBuffered line header.binaryNeeded).val ++ rest) := by
  have hlt := h.start_lt
  have hnl := h.newline_lt
  have htotal := h.total_lt
  rw [val_processJsonimageLine (by omega) h.brace]
  cases acceptHeader env integrates (env.alloc images.length)
    (readCString line.buffer line.line_buffer).val with
  | error ok => exact Or.inl rfl
  | ok header =>
    dsimp only
    unfold putImage
    rw [val_bind]
    rcases hrest : receivePayload client (header.binaryNeeded - (copyBuffered line header.binaryNeeded).val.length)
      with ⟨_ | rest, client'⟩
    · exact Or.inl rfl
    · exact Or.inr ⟨header, rest, client', _, rfl, hrest, rfl, rfl⟩

theorem puts_image {w : Worker (List Image)} (hfits : Fits w) (hstart : w.totalRead = 0) (n : ℕ) :
    (loopRun (jsonimageLines env (processJsonimageLine env integrates addrTh0 addrTh1))
      (imageRequest env integrates) w).PutsImage env integrates n := by
  obtain ⟨-, hsame⟩ | ⟨line, hscanned, hbuffer, hpayload, hnext⟩ := ReadRun.loop_channel
    (jsonimageLines env (processJsonimageLine env integrates addrTh0 addrTh1)) (imageRequest env integrates) hfits n
  · exact Or.inl hsame
  obtain hsame | ⟨header, rest, client, image, haccept, hrest, himage, hpixels⟩ :=
    image_of_line env integrates addrTh0 addrTh1 hscanned _ _
  · exact Or.inl (hnext.trans hsame)
  rw [imageRequest_of_ok env integrates haccept, Option.map_some] at hpayload
  exact Or.inr ⟨line, header, _, rest, client, image, haccept, hpayload,
    ReadRun.madeOf_copyBuffered hstart hpayload hbuffer, hrest, hnext.trans himage, hpixels⟩

end Images

section Histograms

variable (env : Env)

theorem histRequest_of_ok {line : Line} {ch : Hst.PrvHstChannel} {header : Hst.HistHeader} {state : Hst.PrvHstState}
    (hon : ch.accumulationEnable = true)
    (h : Hst.acceptHistHeader env ch.state
      (slice line.buffer line.line_buffer (line.newline_pos - line.line_buffer)) = .ok (header, state)) :
    histRequest env line ch = some header.binaryNeeded := by
  unfold histRequest
  rw [if_pos hon, h]

/-- The histogram of a line. -/
theorem histogram_of_line {line : Line} (h : Scanned line) (client : NetworkClient) (ch : Hst.PrvHstChannel) :
    (Hst.processPrvHstDataLine env line client ch).val.channel.handed = ch.handed ∨
      ∃ (header : Hst.HistHeader) (state : Hst.PrvHstState) (rest : List UInt8) (client' : NetworkClient),
        ch.accumulationEnable = true ∧
        Hst.acceptHistHeader env ch.state
          (slice line.buffer line.line_buffer (line.newline_pos - line.line_buffer)) = .ok (header, state) ∧
        Hst.receiveBins client (header.binaryNeeded - (copyBuffered line header.binaryNeeded).val.length) =
          (some rest, client') ∧
        (Hst.processPrvHstDataLine env line client ch).val.channel.handed =
          ch.handed ++ [Hst.frameHistogram header ((copyBuffered line header.binaryNeeded).val ++ rest)] := by
  have hlt := h.start_lt
  unfold Hst.processPrvHstDataLine
  cases ch.accumulationEnable with
  | false => exact Or.inl rfl
  | true =>
    rw [if_neg (by decide), if_neg (Nat.not_le.mpr hlt), val_bind, val_skipBinary hlt h.brace,
      if_neg (Nat.not_le.mpr hlt), val_bind, val_read, h.brace, if_neg (by decide), val_bind, val_readRange]
    rcases Hst.acceptHistHeader env ch.state
      (slice line.buffer line.line_buffer (line.newline_pos - line.line_buffer))
      with ⟨ok, state⟩ | ⟨header, state⟩
    · exact Or.inl rfl
    · dsimp only
      unfold Hst.addHistogram
      rw [val_bind]
      rcases hrest : Hst.receiveBins client
        (header.binaryNeeded - (copyBuffered line header.binaryNeeded).val.length) with ⟨_ | rest, client'⟩
      · exact Or.inl rfl
      · exact Or.inr ⟨header, state, rest, client', rfl, rfl, hrest, rfl⟩

theorem hands_histogram {w : Worker Hst.PrvHstChannel} (hfits : Fits w) (hstart : w.totalRead = 0) (n : ℕ) :
    (loopRun (jsonhistoLines env) (histRequest env) w).HandsHistogram env n := by
  obtain ⟨-, hsame⟩ | ⟨line, hscanned, hbuffer, hpayload, hnext⟩ := ReadRun.loop_channel
    (jsonhistoLines env) (histRequest env) hfits n
  · exact Or.inl (congrArg Hst.PrvHstChannel.handed hsame)
  have hhanded := congrArg Hst.PrvHstChannel.handed hnext
  obtain hsame | ⟨header, state, rest, client, hon, haccept, hrest, hframe⟩ := histogram_of_line env hscanned _ _
  · exact Or.inl (hhanded.trans hsame)
  rw [histRequest_of_ok env hon haccept, Option.map_some] at hpayload
  exact Or.inr ⟨line, header, state, _, rest, client, haccept, hpayload,
    ReadRun.madeOf_copyBuffered hstart hpayload hbuffer, hrest, hhanded.trans hframe⟩

/-- With accumulation disabled nothing is handed on. -/
theorem hands_histogram_off {w : Worker Hst.PrvHstChannel} (hoff : w.channel.accumulationEnable = false) (n : ℕ) :
    (prvHstRun env w).HandsHistogram env n := by
  have hstays : ∀ n, turns (prvHstWorkerThread env) n w = w :=
    turns_invariant (fun w' => w' = w) (fun w' hw' => by rw [hw', prvHst_turn_off hoff]; rfl) rfl
  refine Or.inl (congrArg (fun w : Worker Hst.PrvHstChannel => w.channel.handed) ?_)
  exact (hstays (n + 1)).trans (hstays n).symm

end Histograms

/-- In every turn of every run of the workers, the frame is made of the bytes taken from the buffer, each of them the
one that its origin says, and of what the socket gives. -/
theorem frames_made_of_taken (env : Env) (buffer : ℕ → UInt8) (client : NetworkClient) (n : ℕ) :
    (∀ (stream : PreviewJsonimageStream) (images : List Image),
      (previewRun env stream (.start buffer client images)).PutsImage env true n) ∧
    (∀ images : List Image, (imgRun env (.start buffer client images)).PutsImage env false n) ∧
    (∀ channel : Hst.PrvHstChannel, (prvHstRun env (.start buffer client channel)).HandsHistogram env n) := by
  refine ⟨fun stream images => ?_, fun images => ?_, fun channel => ?_⟩
  · exact puts_image env true stream.ndAddrThreshold0 stream.ndAddrThreshold1 (fits_start _ _ _) rfl n
  · exact puts_image env false 1 13 (fits_start _ _ _) rfl n
  · cases hon : channel.accumulationEnable with
    | true =>
      have heq : prvHstRun env (.start buffer client channel) =
          loopRun (jsonhistoLines env) (histRequest env) (.start buffer client channel) :=
        prvHstRun_eq hon (fits_start _ _ _)
      rw [heq]
      exact hands_histogram env (fits_start _ _ _) rfl n
    | false => exact hands_histogram_off env hon n

end ADTimePix3.Stream
