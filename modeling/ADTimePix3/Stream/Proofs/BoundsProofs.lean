import ADTimePix3.Stream.ReadBounds
import ADTimePix3.Stream.Proofs.OccupancyProofs
import ADTimePix3.Stream.Proofs.JsonImageProofs

/-!
# Which bytes of the line buffer are read, and which become pixels

Everything a worker reads from its line buffer is among the bytes it has received, but for the copy of
buffered payload: the line function is given the start of the header and the number of bytes from the start
of the buffer, so it counts what lies in front of the header as payload behind it. The copy stays among the
received bytes exactly when the header starts the buffer or all of its payload is there.

Nothing keeps the payload that was copied from being scanned again. The bytes that leave the buffer leave it at its
start, so the payloads of two turns have a byte in common exactly when the newline of the later header lies in front
of the last byte of the earlier one (`unused_iff_ahead`).

Main result: `reads_received_iff`, for every turn of every run.
-/

namespace ADTimePix3.Stream

open Memory Traced

variable {σ : Type} {kind : LineKind σ} {request : Line → σ → Option ℕ} {w : Worker σ}

/-! ## Scanning the buffer -/

/-- A line that a worker hands to its line function. -/
structure Scanned (line : Line) : Prop where
  start_lt : line.line_buffer < line.newline_pos
  newline_lt : line.newline_pos < line.total_read
  total_lt : line.total_read < MAX_BUFFER_SIZE
  brace : line.buffer line.line_buffer = '{'.toUInt8
  nul : line.buffer line.newline_pos = 0

/-- The line function asks for the payload that `request` says, and reads only received bytes exactly when
the line starts the buffer or that payload is in the buffer. -/
def LineKind.ReadsPayload (kind : LineKind σ) (request : Line → σ → Option ℕ) : Prop :=
  ∀ line client ch, Scanned line →
    (Within line.total_read (kind.processLine line client ch) ↔
      ∀ needed, request line ch = some needed →
        line.line_buffer = 0 ∨ needed ≤ line.total_read - (line.newline_pos + 1))

theorem within_dropLine {newline_pos : ℕ} (h : newline_pos < w.totalRead) :
    Within w.totalRead (w.dropLine newline_pos) := by
  unfold Worker.dropLine
  rw [within_bind, within_readRange]
  exact ⟨Or.inr (by omega), within_pure _⟩

theorem scannedLine_of_no_newline (hnl : (memchr w.buffer '\n' w.totalRead).val = none) :
    scannedLine kind w = none := by
  unfold scannedLine
  rw [hnl]
  rfl

theorem scannedLine_of_no_start {newline_pos : ℕ} (hnl : (memchr w.buffer '\n' w.totalRead).val = some newline_pos)
    (hstart : (findJsonStart kind.countChars w.buffer newline_pos).val = none) : scannedLine kind w = none := by
  unfold scannedLine
  rw [hnl]
  simp only [Option.bind_eq_bind, Option.bind_some, hstart, Option.bind_none]

theorem scannedLine_of_start {newline_pos json_start : ℕ}
    (hnl : (memchr w.buffer '\n' w.totalRead).val = some newline_pos)
    (hstart : (findJsonStart kind.countChars w.buffer newline_pos).val = some json_start) :
    scannedLine kind w =
      if kind.isHeader (slice w.buffer json_start (newline_pos - json_start)) then
        some ⟨set w.buffer newline_pos 0, json_start, newline_pos, w.totalRead⟩
      else none := by
  unfold scannedLine
  rw [hnl]
  simp only [Option.bind_eq_bind, Option.bind_some, hstart]

/-- What a scan comes to: there is no line to process, or the line function is called with it. -/
theorem scanLine_cases (kind : LineKind σ) (w : Worker σ) :
    (scannedLine kind w = none ∧ Within w.totalRead (w.scanLine kind) ∧
      ((w.scanLine kind).val = w ∨
        ∃ newline_pos < w.totalRead, (w.scanLine kind).val = (w.dropLine newline_pos).val)) ∨
    ∃ line, scannedLine kind w = some line ∧ line.newline_pos < w.totalRead ∧ line.total_read = w.totalRead ∧
      line.buffer = set w.buffer line.newline_pos 0 ∧ (w.totalRead < MAX_BUFFER_SIZE → Scanned line) ∧
      (Within w.totalRead (w.scanLine kind) ↔
        Within w.totalRead (kind.processLine line w.client w.channel)) ∧
      let result := (kind.processLine line w.client w.channel).val
      let w' : Worker σ := { w with buffer := line.buffer, client := result.client, channel := result.channel }
      (w.scanLine kind).val = if result.ok then (w'.dropLine line.newline_pos).val else w'.exit := by
  unfold Worker.scanLine
  cases hnl : (memchr w.buffer '\n' w.totalRead).val with
  | none =>
    refine Or.inl ⟨scannedLine_of_no_newline hnl, ?_, Or.inl ?_⟩
    · rw [within_bind, and_iff_right (within_memchr _ _ _), hnl]
      exact within_pure w
    · rw [val_bind, hnl]
      rfl
  | some newline_pos =>
    obtain ⟨hlt, hat, -⟩ := memchr_eq_some.mp hnl
    rw [within_bind, and_iff_right (within_memchr _ _ _), val_bind, hnl]
    dsimp only
    rw [within_bind, and_iff_right ((within_findJsonStart _ _ _).mono (by omega)), val_bind]
    cases hstart : (findJsonStart kind.countChars w.buffer newline_pos).val with
    | none =>
      exact Or.inl ⟨scannedLine_of_no_start hnl hstart, within_dropLine hlt, Or.inr ⟨newline_pos, hlt, rfl⟩⟩
    | some json_start =>
      obtain ⟨hjson, hbrace⟩ := findJsonStart_spec hstart
      have htext : Within w.totalRead (readRange w.buffer json_start (newline_pos - json_start)) :=
        within_readRange.mpr (Or.inr (by omega))
      rw [scannedLine_of_start hnl hstart]
      dsimp only
      rw [within_bind, and_iff_right htext, val_bind, val_readRange]
      by_cases hheader : kind.isHeader (slice w.buffer json_start (newline_pos - json_start)) = true
      · rw [if_pos hheader, if_pos hheader]
        refine Or.inr ⟨_, rfl, hlt, rfl, rfl, fun hroom => ?_, ?_, ?_⟩
        · -- the line function is given the buffer with a NUL in place of the newline
          exact ⟨show json_start < newline_pos by omega, hlt, hroom,
            show (if json_start = newline_pos then 0 else w.buffer json_start) = _ by
              rw [if_neg (by omega), hbrace],
            if_pos rfl⟩
        · rw [within_bind]
          refine and_iff_left ?_
          generalize (kind.processLine _ w.client w.channel).val = result
          cases result.ok with
          | true => exact within_dropLine (w := { w with
              buffer := set w.buffer newline_pos 0, client := result.client, channel := result.channel }) hlt
          | false => exact within_pure _
        · rw [val_bind]
          generalize (kind.processLine _ w.client w.channel).val = result
          cases result.ok <;> rfl
      · rw [if_neg hheader, if_neg hheader]
        exact Or.inl ⟨rfl, within_dropLine hlt, Or.inr ⟨newline_pos, hlt, rfl⟩⟩

theorem payloadLine_of_scanned {line : Line} (h : scannedLine kind w = some line) :
    payloadLine kind request w = (request line w.channel).map fun needed => (line, needed) := by
  unfold payloadLine
  rw [h]
  show (request line w.channel).bind (fun needed => some (line, needed)) = _
  cases request line w.channel <;> rfl

theorem payloadLine_of_none (h : scannedLine kind w = none) : payloadLine kind request w = none := by
  unfold payloadLine
  rw [h]
  rfl

theorem within_scanBuffer (hkind : kind.ReadsPayload request) (hroom : w.totalRead < MAX_BUFFER_SIZE) :
    Within w.totalRead (w.scanBuffer kind) ↔
      ∀ line needed, payloadLine kind request w = some (line, needed) →
        line.line_buffer = 0 ∨ needed ≤ line.total_read - (line.newline_pos + 1) := by
  unfold Worker.scanBuffer
  rw [within_map]
  obtain ⟨hnone, hwithin, -⟩ | ⟨line, hsome, -, htotal, -, hscanned, hwithin, -⟩ := scanLine_cases kind w
  · rw [payloadLine_of_none hnone]
    refine iff_of_true hwithin fun _ _ h => ?_
    cases h
  · have hreads := hkind line w.client w.channel (hscanned hroom)
    rw [htotal] at hreads
    rw [hwithin, hreads, payloadLine_of_scanned hsome]
    cases request line w.channel with
    | none =>
      refine iff_of_true (fun _ h => ?_) fun _ _ h => ?_
      · cases h
      · cases h
    | some needed =>
      constructor
      · intro hreach line' needed' heq
        cases heq
        rw [htotal]
        exact hreach needed rfl
      · intro hreach needed' heq
        cases heq
        rw [← htotal]
        exact hreach line needed rfl

/-! ## The line functions -/

variable {env : Env}

theorem within_putImage {n addrTh0 addrTh1 : ℕ} {header : ImageHeader} {line : Line}
    {client : NetworkClient} {images : List Image} :
    Within n (putImage addrTh0 addrTh1 header line client images) ↔
      Within n (copyBuffered line header.binaryNeeded) := by
  unfold putImage
  rw [within_bind]
  refine and_iff_left ?_
  rcases receivePayload client (header.binaryNeeded - (copyBuffered line header.binaryNeeded).val.length)
    with ⟨_ | rest, client'⟩
  · exact within_pure _
  · exact within_pure _

/-- The jsonimage line functions read received bytes only, exactly when the payload is in reach. -/
theorem jsonimageLines_readsPayload (integrates : Bool) (addrTh0 addrTh1 : ℕ) :
    (jsonimageLines env (processJsonimageLine env integrates addrTh0 addrTh1)).ReadsPayload
      (imageRequest env integrates) := by
  intro line client images h
  have hstart := h.start_lt
  have hnl := h.newline_lt
  have htotal := h.total_lt
  show Within line.total_read (processJsonimageLine env integrates addrTh0 addrTh1 line client images) ↔ _
  unfold processJsonimageLine imageRequest
  rw [within_bind, and_iff_right (within_skipBinary (by omega) h.brace (by omega)),
    val_skipBinary (by omega) h.brace, within_bind, and_iff_right (within_read.mpr (by omega)), val_read,
    h.brace]
  show Within line.total_read (readCString line.buffer line.line_buffer >>= _) ↔ _
  rw [within_bind, and_iff_right (within_readCString (Nat.le_of_lt hstart) (by omega) h.nul hnl)]
  cases acceptHeader env integrates (env.alloc images.length)
    (readCString line.buffer line.line_buffer).val with
  | error ok =>
    refine iff_of_true (within_pure _) fun _ hsome => ?_
    cases hsome
  | ok header =>
    show Within line.total_read (putImage addrTh0 addrTh1 header line client images) ↔ _
    rw [within_putImage, within_copyBuffered (Nat.le_of_lt hstart) hnl]
    constructor
    · intro hreach needed hneeded
      rwa [← Option.some.inj hneeded]
    · intro hreach
      exact hreach header.binaryNeeded rfl

theorem within_addHistogram {n : ℕ} {header : Hst.HistHeader} {line : Line} {client : NetworkClient}
    {ch : Hst.PrvHstChannel} :
    Within n (Hst.addHistogram header line client ch) ↔ Within n (copyBuffered line header.binaryNeeded) := by
  unfold Hst.addHistogram
  rw [within_bind]
  refine and_iff_left ?_
  rcases Hst.receiveBins client (header.binaryNeeded - (copyBuffered line header.binaryNeeded).val.length)
    with ⟨_ | rest, client'⟩
  · exact within_pure _
  · exact within_pure _

theorem jsonhistoLines_readsPayload (env : Env) : (jsonhistoLines env).ReadsPayload (histRequest env) := by
  intro line client ch h
  have hstart := h.start_lt
  have hnl := h.newline_lt
  show Within line.total_read (Hst.processPrvHstDataLine env line client ch) ↔ _
  unfold Hst.processPrvHstDataLine histRequest
  cases ch.accumulationEnable with
  | false =>
    refine iff_of_true (within_pure _) fun _ hsome => ?_
    cases hsome
  | true =>
    show Within line.total_read (if line.newline_pos ≤ line.line_buffer then _ else _) ↔ _
    rw [if_neg (Nat.not_le.mpr hstart), within_bind,
      and_iff_right (within_skipBinary hstart h.brace (by omega)), val_skipBinary hstart h.brace]
    show Within line.total_read (if line.line_buffer ≥ line.newline_pos then _ else _) ↔ _
    rw [if_neg (Nat.not_le.mpr hstart), within_bind, and_iff_right (within_read.mpr (by omega)), val_read,
      h.brace]
    show Within line.total_read (readRange line.buffer line.line_buffer
      (line.newline_pos - line.line_buffer) >>= _) ↔ _
    rw [within_bind, and_iff_right (within_readRange.mpr (Or.inr (by omega))), val_readRange]
    rcases Hst.acceptHistHeader env ch.state
      (slice line.buffer line.line_buffer (line.newline_pos - line.line_buffer))
      with ⟨ok, state⟩ | ⟨header, state⟩
    · refine iff_of_true (within_pure _) fun _ hsome => ?_
      cases hsome
    · show Within line.total_read (Hst.addHistogram header line client _) ↔ _
      rw [within_addHistogram, within_copyBuffered (Nat.le_of_lt hstart) hnl]
      constructor
      · intro hreach needed hneeded
        rwa [← Option.some.inj hneeded]
      · intro hreach
        exact hreach header.binaryNeeded rfl

/-! ## What leaves the buffer -/

/-- What a scan leaves in the buffer is what was there behind some bytes at its start, the header's line among
them. -/
theorem scanBuffer_shift (hrun : (w.scanBuffer kind).val.running = true) :
    ∃ d, (w.scanBuffer kind).val.totalRead + d = w.totalRead ∧
      (∀ i < (w.scanBuffer kind).val.totalRead, (w.scanBuffer kind).val.buffer i = w.buffer (d + i)) ∧
      ∀ line, scannedLine kind w = some line → line.newline_pos < d := by
  have hline : (w.scanLine kind).val.running = true → ∃ d, (w.scanLine kind).val.totalRead + d = w.totalRead ∧
      (∀ i < (w.scanLine kind).val.totalRead, (w.scanLine kind).val.buffer i = w.buffer (d + i)) ∧
      ∀ line, scannedLine kind w = some line → line.newline_pos < d := by
    intro hrunning
    obtain ⟨hnone, -, hval | ⟨newline_pos, hlt, hval⟩⟩ | ⟨line, hsome, hlt, -, hbuffer, -, -, hval⟩ :=
      scanLine_cases kind w
    · rw [hval, hnone]
      refine ⟨0, rfl, fun i _ => by rw [Nat.zero_add], fun _ h => ?_⟩
      cases h
    · rw [hval, hnone]
      refine ⟨newline_pos + 1, Nat.sub_add_cancel hlt, fun i hi => if_pos hi, fun _ h => ?_⟩
      cases h
    · rw [hval] at hrunning ⊢
      cases hok : (kind.processLine line w.client w.channel).val.ok with
      | false =>
        rw [hok] at hrunning
        cases hrunning
      | true =>
        rw [if_pos rfl]
        refine ⟨line.newline_pos + 1, Nat.sub_add_cancel hlt, fun i hi => ?_, fun line' h => ?_⟩
        · refine (if_pos hi).trans ?_
          show line.buffer (line.newline_pos + 1 + i) = w.buffer (line.newline_pos + 1 + i)
          rw [hbuffer]
          exact if_neg (by omega)
        · obtain rfl : line = line' := Option.some.inj (hsome.symm.trans h)
          exact Nat.lt_succ_self _
  unfold Worker.scanBuffer at hrun ⊢
  rw [val_map] at hrun ⊢
  generalize (w.scanLine kind).val = w' at hline hrun ⊢
  unfold Worker.resetIfFull at hrun ⊢
  by_cases hfull : (w'.running && w'.totalRead ≥ MAX_BUFFER_SIZE - 1) = true
  · rw [if_pos hfull] at hrun ⊢
    obtain ⟨d, hd, -, hnewline⟩ := hline hrun
    refine ⟨w.totalRead, Nat.zero_add _, fun i hi => absurd hi (Nat.not_lt_zero _), fun line h => ?_⟩
    have hlt := hnewline line h
    omega
  · rw [if_neg hfull] at hrun ⊢
    exact hline hrun

theorem readMore_of_nothing {client : NetworkClient} {bytes : Option (List UInt8)}
    (h : w.client.receive (MAX_BUFFER_SIZE - w.totalRead - 1) = (bytes, client)) (hbytes : bytes.getD [] = []) :
    (readMore w).running = false := by
  unfold readMore Worker.receive
  rw [h]
  rcases bytes with _ | _ | ⟨b, bytes⟩
  · rfl
  · rfl
  · cases hbytes

/-- A receive leaves what is in the buffer. -/
theorem readMore_keeps (hrun : w.running = true) (hmore : (readMore w).running = true) :
    w.totalRead ≤ (readMore w).totalRead ∧ ∀ i < w.totalRead, (readMore w).buffer i = w.buffer i := by
  rcases hrecv : w.client.receive (MAX_BUFFER_SIZE - w.totalRead - 1) with ⟨_ | _ | ⟨b, bytes⟩, client⟩
  · rw [readMore_of_nothing hrecv rfl] at hmore
    cases hmore
  · rw [readMore_of_nothing hrecv rfl] at hmore
    cases hmore
  · rw [readMore_of_receive hrun hrecv]
    refine ⟨Nat.le_add_right _ _, fun i hi => ?_⟩
    show (if i = w.totalRead + (b :: bytes).length then 0 else
      if w.totalRead ≤ i then (b :: bytes).getD (i - w.totalRead) (w.buffer i) else w.buffer i) = _
    rw [if_neg (by omega), if_neg (by omega)]

/-! ## Runs of the read loop -/

theorem turns_succ' (turn : Worker σ → Traced (Worker σ)) (n : ℕ) (w : Worker σ) :
    turns turn (n + 1) w = (turn (turns turn n w)).val := Function.iterate_succ_apply' ..

theorem readTurn_of_stopped (h : w.running = false) : readTurn kind w = pure w := by
  unfold readTurn
  rw [h]
  rfl

/-- A run of the common read loop. -/
abbrev loopRun (kind : LineKind σ) (request : Line → σ → Option ℕ) (w : Worker σ) : ReadRun σ :=
  readRun (readTurn kind) readMore kind request w

namespace ReadRun

variable {n k : ℕ}

theorem loop_stopped (hstop : ((loopRun kind request w).before n).running = false) :
    ((loopRun kind request w).before (n + 1)).running = false := by
  show (turns (readTurn kind) (n + 1) w).running = false
  rw [turns_succ', readTurn_of_stopped (w := turns (readTurn kind) n w) hstop]
  exact hstop

theorem loop_running (hrun : ((loopRun kind request w).before n).running = true) (hk : k ≤ n) :
    ((loopRun kind request w).before k).running = true := by
  induction n, hk using Nat.le_induction with
  | base => exact hrun
  | succ n _ ih =>
    refine ih (Bool.of_not_eq_false fun hstop => ?_)
    rw [loop_stopped hstop] at hrun
    cases hrun

/-- A turn that receives something scans it. -/
theorem loop_scans (hfilled : ((loopRun kind request w).filled n).running = true) :
    ((loopRun kind request w).before n).running = true ∧
      (loopRun kind request w).filled n = readMore ((loopRun kind request w).before n) ∧
      readTurn kind ((loopRun kind request w).before n) = ((loopRun kind request w).filled n).scanBuffer kind := by
  have hbefore : ((loopRun kind request w).before n).running = true := by
    by_contra hstop
    have heq : (loopRun kind request w).filled n = (loopRun kind request w).before n := if_neg hstop
    exact hstop (heq ▸ hfilled)
  have heq : (loopRun kind request w).filled n = readMore ((loopRun kind request w).before n) := if_pos hbefore
  refine ⟨hbefore, heq, ?_⟩
  rw [heq] at hfilled ⊢
  exact readTurn_of_running hbefore hfilled

theorem loop_next (hfilled : ((loopRun kind request w).filled n).running = true) :
    (loopRun kind request w).before (n + 1) = (((loopRun kind request w).filled n).scanBuffer kind).val :=
  (turns_succ' ..).trans (congrArg Traced.val (loop_scans hfilled).2.2)

/-- A turn that receives nothing reads nothing, and is the last one. -/
theorem loop_ends (hfilled : ((loopRun kind request w).filled n).running ≠ true) :
    (loopRun kind request w).before (n + 1) = (loopRun kind request w).filled n ∧
      (loopRun kind request w).reads n = [] := by
  have hturn : readTurn kind ((loopRun kind request w).before n) = pure ((loopRun kind request w).filled n) := by
    by_cases hbefore : ((loopRun kind request w).before n).running = true
    · have hmore : (loopRun kind request w).filled n = readMore ((loopRun kind request w).before n) :=
        if_pos hbefore
      rw [hmore] at hfilled ⊢
      unfold readTurn
      rw [hbefore]
      exact if_neg hfilled
    · have hstop : (loopRun kind request w).filled n = (loopRun kind request w).before n := if_neg hbefore
      rw [hstop, readTurn_of_stopped (Bool.eq_false_iff.mpr hbefore)]
  exact ⟨(turns_succ' ..).trans (congrArg Traced.val hturn), congrArg Traced.reads hturn⟩

theorem loop_payload {line : Line} {needed : ℕ}
    (h : (loopRun kind request w).payload n = some (line, needed)) :
    ((loopRun kind request w).filled n).running = true ∧
      scannedLine kind ((loopRun kind request w).filled n) = some line ∧
      payloadLine kind request ((loopRun kind request w).filled n) = some (line, needed) := by
  have hrun : ((loopRun kind request w).filled n).running = true := by
    by_contra hstop
    have hnone : (loopRun kind request w).payload n = none := if_neg hstop
    rw [hnone] at h
    cases h
  have heq : (loopRun kind request w).payload n = payloadLine kind request ((loopRun kind request w).filled n) :=
    if_pos hrun
  rw [heq] at h
  refine ⟨hrun, ?_, h⟩
  cases hline : scannedLine kind ((loopRun kind request w).filled n) with
  | none =>
    rw [payloadLine_of_none hline] at h
    cases h
  | some line' =>
    rw [payloadLine_of_scanned hline] at h
    obtain ⟨needed', -, heq'⟩ := Option.map_eq_some_iff.mp h
    cases heq'
    rfl

theorem gone_succ (run : ReadRun σ) (n : ℕ) :
    run.gone (n + 1) = run.gone n + ((run.filled n).totalRead - (run.before (n + 1)).totalRead) := by
  unfold gone
  rw [List.range_succ, List.map_append, List.sum_append]
  rfl

theorem gone_mono (run : ReadRun σ) (h : k ≤ n) : run.gone k ≤ run.gone n := by
  induction n, h using Nat.le_induction with
  | base => exact Nat.le_refl _
  | succ n _ ih =>
    rw [gone_succ]
    omega

/-- By the turns after a header its line has left the buffer. -/
theorem gone_behind {line : Line} {needed : ℕ} (h : (loopRun kind request w).payload k = some (line, needed))
    (hk : k < n) (hrun : ((loopRun kind request w).before n).running = true) :
    (loopRun kind request w).gone k + line.newline_pos < (loopRun kind request w).gone n := by
  obtain ⟨hfilled, hline, -⟩ := loop_payload h
  have hnext := loop_next hfilled
  have hrunning := loop_running hrun hk
  rw [Nat.succ_eq_add_one, hnext] at hrunning
  obtain ⟨d, hd, -, hnewline⟩ := scanBuffer_shift hrunning
  have hlt := hnewline line hline
  have hmono := (loopRun kind request w).gone_mono hk
  rw [Nat.succ_eq_add_one, gone_succ, hnext] at hmono
  omega

theorem mem_taken {run : ReadRun σ} {line : Line} {needed i : ℕ} (h : run.payload n = some (line, needed)) :
    i ∈ run.taken n ↔ line.newline_pos < i ∧
      i < line.newline_pos + 1 + min (line.total_read - (line.newline_pos - line.line_buffer + 1)) needed := by
  unfold taken
  rw [h]
  exact List.mem_range'_1

theorem taken_of_none {run : ReadRun σ} (h : run.payload n = none) : run.taken n = [] := by
  unfold taken
  rw [h]

/-- The payloads of two turns have a byte in common only if the later header lies within the earlier payload. -/
theorem unused_iff_ahead {line : Line} {needed : ℕ}
    (h : (loopRun kind request w).payload n = some (line, needed))
    (hreach : line.line_buffer = 0 ∨ needed ≤ line.total_read - (line.newline_pos + 1)) :
    (∀ i ∈ (loopRun kind request w).taken n, ∀ k < n,
      ¬ (loopRun kind request w).TakenBy k ((loopRun kind request w).origin n i)) ↔
    (0 < needed → line.newline_pos + 1 < line.total_read → ∀ k < n, ∀ p,
      (loopRun kind request w).TakenBy k p → p ≤ (loopRun kind request w).origin n line.newline_pos) := by
  constructor
  · rintro hunused hneeded hbuffered k hk p ⟨j, hj, hlt, rfl⟩
    by_contra hahead
    unfold origin at hahead
    have hrun := (loop_scans (loop_payload h).1).1
    have hfirst : line.newline_pos + 1 ∈ (loopRun kind request w).taken n := (mem_taken h).mpr (by omega)
    refine hunused _ hfirst k hk ?_
    cases hpayload : (loopRun kind request w).payload k with
    | none =>
      rw [taken_of_none hpayload] at hj
      cases hj
    | some earlier =>
      obtain ⟨line', needed'⟩ := earlier
      -- the payload of the earlier turn reaches from its newline, which is gone, to `j`
      have hgone := gone_behind hpayload hk hrun
      have hbounds := (mem_taken hpayload).mp hj
      unfold TakenBy origin
      exact ⟨(loopRun kind request w).gone n + (line.newline_pos + 1) - (loopRun kind request w).gone k,
        (mem_taken hpayload).mpr (by omega), by omega, by omega⟩
  · intro hahead i hi k hk htaken
    have hbounds := (mem_taken h).mp hi
    have hle := hahead (by omega) (by omega) k hk _ htaken
    unfold origin at hle
    omega

/-- Step lemma: what a turn reads is among the received bytes exactly when the payload is in reach. -/
theorem loop_received (hkind : kind.ReadsPayload request) (hfits : Fits ((loopRun kind request w).before n)) :
    (∀ i ∈ (loopRun kind request w).reads n,
      i < ((loopRun kind request w).filled n).totalRead ∧ i < MAX_BUFFER_SIZE) ↔
    ∀ line needed, (loopRun kind request w).payload n = some (line, needed) →
      line.line_buffer = 0 ∨ needed ≤ line.total_read - (line.newline_pos + 1) := by
  by_cases hfilled : ((loopRun kind request w).filled n).running = true
  · obtain ⟨hbefore, hmore, hscan⟩ := loop_scans hfilled
    have hroom : ((loopRun kind request w).filled n).totalRead < MAX_BUFFER_SIZE := by
      rw [hmore]
      exact readMore_totalRead (hfits hbefore)
    have hpayload : (loopRun kind request w).payload n =
        payloadLine kind request ((loopRun kind request w).filled n) := if_pos hfilled
    have hreads : (loopRun kind request w).reads n =
        (((loopRun kind request w).filled n).scanBuffer kind).reads := congrArg Traced.reads hscan
    rw [hpayload, hreads, ← within_scanBuffer hkind hroom]
    constructor
    · intro hreceived i hi
      exact (hreceived i hi).1
    · intro hwithin i hi
      have hlt := hwithin i hi
      exact ⟨hlt, by omega⟩
  · have hpayload : (loopRun kind request w).payload n = none := if_neg hfilled
    rw [hpayload, (loop_ends hfilled).2]
    refine iff_of_true (fun i hi => absurd hi List.not_mem_nil) fun _ _ h => ?_
    cases h

theorem loop_readsRight (hkind : kind.ReadsPayload request) (hfits : Fits w) (n : ℕ) :
    (loopRun kind request w).ReadsRight n ↔ (loopRun kind request w).PayloadInReach n := by
  have hreceived := loop_received (n := n) hkind (turns_invariant Fits (fun _ => readTurn_fits) hfits n)
  constructor
  · intro hright
    have hreach := hreceived.mp hright.received
    exact ⟨hreach, fun line needed h => (unused_iff_ahead h (hreach line needed h)).mp hright.unused⟩
  · intro hreach
    refine ⟨hreceived.mpr hreach.reach, fun line needed h i hi => ((mem_taken h).mp hi).1, ?_⟩
    cases hpayload : (loopRun kind request w).payload n with
    | none =>
      rw [taken_of_none hpayload]
      exact fun i hi => absurd hi List.not_mem_nil
    | some payload =>
      obtain ⟨line, needed⟩ := payload
      exact (unused_iff_ahead hpayload (hreach.reach line needed hpayload)).mpr (hreach.ahead line needed hpayload)

end ReadRun

/-! ## The workers -/

/-- With accumulation enabled a run of the histogram worker is one of the common read loop. -/
theorem prvHstRun_eq {env : Env} {w : Worker Hst.PrvHstChannel} (hon : w.channel.accumulationEnable = true)
    (h : Fits w) : prvHstRun env w = loopRun (jsonhistoLines env) (histRequest env) w := by
  have hinv : ∀ n, (turns (prvHstWorkerThread env) n w).channel.accumulationEnable = true ∧
      Fits (turns (prvHstWorkerThread env) n w) :=
    turns_invariant (fun w : Worker Hst.PrvHstChannel => w.channel.accumulationEnable = true ∧ Fits w)
      (fun _ => prvHst_turn_on env) ⟨hon, h⟩
  have hturns : ∀ n, turns (prvHstWorkerThread env) n w = turns (readTurn (jsonhistoLines env)) n w :=
    prvHst_turns_eq hon h
  simp only [hturns] at hinv
  have hturn : ∀ n, prvHstWorkerThread env (turns (readTurn (jsonhistoLines env)) n w) =
      readTurn (jsonhistoLines env) (turns (readTurn (jsonhistoLines env)) n w) :=
    fun n => prvHst_turn_eq (hinv n).1 (hinv n).2
  have hfilled : ∀ n, filledBy (fun w => if w.channel.accumulationEnable then prvHstReadMore w else w)
      (turns (readTurn (jsonhistoLines env)) n w) =
        filledBy readMore (turns (readTurn (jsonhistoLines env)) n w) := by
    intro n
    unfold filledBy
    by_cases hrun : (turns (readTurn (jsonhistoLines env)) n w).running = true
    · rw [if_pos hrun, if_pos hrun]
      exact (if_pos (hinv n).1).trans (prvHstReadMore_eq ((hinv n).2 hrun))
    · rw [if_neg hrun, if_neg hrun]
  unfold prvHstRun loopRun readRun
  simp only [hturns, hturn, hfilled]

/-- With accumulation disabled it reads nothing. -/
theorem prvHstRun_off (env : Env) {w : Worker Hst.PrvHstChannel} (hoff : w.channel.accumulationEnable = false)
    (n : ℕ) : (prvHstRun env w).reads n = [] ∧ (prvHstRun env w).payload n = none := by
  have hoff' : (turns (prvHstWorkerThread env) n w).channel.accumulationEnable = false := by
    refine turns_invariant (fun w : Worker Hst.PrvHstChannel => w.channel.accumulationEnable = false)
      (fun w hw => ?_) hoff n
    rw [prvHst_turn_off hw]
    exact hw
  have hfilled : (prvHstRun env w).filled n = turns (prvHstWorkerThread env) n w := by
    show (if _ then if _ then _ else _ else _) = _
    rw [hoff']
    exact ite_self _
  have hrequest : ∀ line, histRequest env line ((prvHstRun env w).filled n).channel = none := by
    intro line
    unfold histRequest
    rw [hfilled, hoff']
    rfl
  refine ⟨?_, ?_⟩
  · show (prvHstWorkerThread env (turns (prvHstWorkerThread env) n w)).reads = []
    rw [prvHst_turn_off hoff']
    rfl
  · show (if ((prvHstRun env w).filled n).running = true then
      payloadLine (jsonhistoLines env) (histRequest env) ((prvHstRun env w).filled n) else none) = none
    cases hline : scannedLine (jsonhistoLines env) ((prvHstRun env w).filled n) with
    | none => rw [payloadLine_of_none hline, ite_self]
    | some line => rw [payloadLine_of_scanned hline, hrequest, Option.map_none, ite_self]

/-- In every turn of every run, whatever is received and however it is cut: the bytes read are received bytes, and
those that become pixels or bins lie behind their header and were not used before, exactly when the header in the
buffer, if it gets as far as its payload, starts the buffer or has all of its payload behind it, and has no payload of
an earlier frame behind it. -/
theorem reads_received_iff (env : Env) (buffer : ℕ → UInt8) (client : NetworkClient) (n : ℕ) :
    (∀ (stream : PreviewJsonimageStream) (images : List Image),
      let run := previewRun env stream (.start buffer client images)
      run.ReadsRight n ↔ run.PayloadInReach n) ∧
    (∀ images : List Image,
      let run := imgRun env (.start buffer client images)
      run.ReadsRight n ↔ run.PayloadInReach n) ∧
    (∀ channel : Hst.PrvHstChannel,
      let run := prvHstRun env (.start buffer client channel)
      run.ReadsRight n ↔ run.PayloadInReach n) := by
  refine ⟨fun stream images => ?_, fun images => ?_, fun channel => ?_⟩
  · exact ReadRun.loop_readsRight (jsonimageLines_readsPayload _ _ _) (fits_start _ _ _) n
  · exact ReadRun.loop_readsRight (jsonimageLines_readsPayload _ _ _) (fits_start _ _ _) n
  · intro run
    cases hon : channel.accumulationEnable with
    | true =>
      have heq : run = loopRun (jsonhistoLines env) (histRequest env) (.start buffer client channel) :=
        prvHstRun_eq hon (fits_start _ _ _)
      rw [heq]
      exact ReadRun.loop_readsRight (jsonhistoLines_readsPayload env) (fits_start _ _ _) n
    | false =>
      obtain ⟨hreads, hpayload⟩ := prvHstRun_off env (w := .start buffer client channel) hon n
      refine iff_of_true ⟨?_, ?_, ?_⟩ ⟨?_, ?_⟩
      · rw [hreads]
        exact fun i hi => absurd hi List.not_mem_nil
      · rw [hpayload]
        exact fun _ _ h => absurd h.symm (Option.some_ne_none _)
      · rw [ReadRun.taken_of_none hpayload]
        exact fun i hi => absurd hi List.not_mem_nil
      · rw [hpayload]
        exact fun _ _ h => absurd h.symm (Option.some_ne_none _)
      · rw [hpayload]
        exact fun _ _ h => absurd h.symm (Option.some_ne_none _)

/-- The two frames of one pixel, the first one cut in the middle of its payload. -/
def cutPixelRun : ReadRun (List Image) :=
  previewRun pixelEnv ⟨0, 8⟩ (.start (fun _ => 0)
    ⟨true, [pixelFrame1.message.line ++ [1], [2] ++ pixelFrame2.message.line, [3, 4]]⟩ [])

/-- A header of a frame of 32 pixels. -/
def wideHeader : List UInt8 := "\x7b\"width\":32,\"height\":1\x7d".toList.map Char.toUInt8

def wideEnv : Env where
  parse := fun text =>
    if text = wideHeader then some (.object [("width", .number_integer 32), ("height", .number_integer 1)])
    else pixelEnv.parse text
  alloc := fun _ => true

/-- A frame of 32 pixels whose payload is the second frame of one pixel; then one byte of something else. -/
def nestedRun : ReadRun (List Image) :=
  previewRun wideEnv ⟨0, 8⟩ (.start (fun _ => 0)
    ⟨true, [wideHeader ++ ['\n'.toUInt8] ++ pixelFrame2.message.line ++ [3, 4], [0]]⟩ [])

/-- The second header comes to lie behind the byte of the first payload that was received with the first
header. So the second turn reads the byte behind those received, and takes it for the first byte of the second
pixel. And a payload that is in the buffer with its header is scanned again in the next turn: the header within it is
taken for one, and an image is put that was never sent. -/
theorem reads_past_received :
    (¬ cutPixelRun.ReadsRight 1 ∧
      (cutPixelRun.before 2).channel.map Image.pixels = [[0x0102], [0x0003]]) ∧
    (¬ nestedRun.ReadsRight 1 ∧
      (nestedRun.before 2).channel.map (fun image => (image.width, image.uniqueId)) = [(32, 0), (1, 2)] ∧
      (nestedRun.before 2).channel.getLast?.map Image.pixels = some [0x0304]) := by
  refine ⟨⟨fun h => ?_, by decide +kernel⟩, fun h => ?_, by decide +kernel, by decide +kernel⟩
  · have hread : (cutPixelRun.filled 1).totalRead ∈ cutPixelRun.reads 1 := by decide +kernel
    exact Nat.lt_irrefl _ (h.received _ hread).1
  · have htaken : 62 ∈ nestedRun.taken 1 ∧ nestedRun.origin 1 62 = nestedRun.origin 0 86 := by decide +kernel
    refine h.unused 62 htaken.1 0 Nat.one_pos ⟨86, ?_, ?_, htaken.2.symm⟩
    · decide +kernel
    · decide +kernel

end ADTimePix3.Stream
