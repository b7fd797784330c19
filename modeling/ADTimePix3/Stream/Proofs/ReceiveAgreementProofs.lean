import ADTimePix3.Hst.Proofs.PrvHstProofs
import ADTimePix3.Stream.Proofs.OccupancyProofs
import ADTimePix3.Stream.Proofs.ReceiveLoopProofs
import ADTimePix3.Stream.ReadBounds

/-!
# The two models of the read loops

The workers of `Stream/Worker.lean`, which have a client and a channel, go through runs of the read loops of
`Stream/ReceiveLoop.lean`: with the bytes that the client gives and with what the line function returns, the
line buffer is the same after every turn (`readTurn_agrees`, `turns_agree`), and the accesses of all of them are
right (`workers_agree`).
-/

namespace ADTimePix3.Stream.ReceiveLoop

open Logged Memory NetworkClient

variable {σ : Type} {kind : LineKind σ} {rules : LineRules} {turn : Turn} {w : Worker σ}

/-- The client's next result. Nothing comes back when nothing was asked for, or when there are no more pieces. -/
def recvOf (client : NetworkClient) : Recv where
  result := fun max_size => (client.receive max_size).1
  closed := (client.pending.headD []).isEmpty
  length_le := fun _ _ h => length_receive_le (Prod.ext h rfl)
  closed_of_nil := by
    intro max_size h
    have hcon : client.connected = true := by
      by_contra hcon
      unfold NetworkClient.receive at h
      rw [if_neg hcon] at h
      cases h
    rw [receive_of_connected hcon] at h
    have hnil := Option.some.inj h
    cases hpending : client.pending with
    | nil => exact Or.inr rfl
    | cons c cs =>
      rw [hpending] at hnil
      rcases List.take_eq_nil_iff.mp hnil with hzero | hc
      · exact Or.inl hzero
      · exact Or.inr (by rw [hc]; rfl)

/-- A parser whose exceptions are all a `json::parse_error`. -/
def parsedOf (parse : List UInt8 → Option Json) (text : List UInt8) : Parsed :=
  match parse text with
  | some j => .value j
  | none => .parse_error

def lineBufferOf (w : Worker σ) : LineBuffer := ⟨w.buffer, w.totalRead⟩

/-- The line buffer of a worker that is still in its loop. -/
def viewOf (w : Worker σ) : Option LineBuffer := if w.running then some (lineBufferOf w) else none

/-- The turn is the next one of the worker. -/
structure Meets (turn : Turn) (rules : LineRules) (kind : LineKind σ) (w : Worker σ) : Prop where
  running : turn.running = true
  stillRunning : turn.stillRunning = true
  connected : turn.connected = true
  recv : turn.recv = recvOf w.client
  line : ∀ line, Delimited line → (rules.processLine (parsedOf kind.parse) turn line).val =
    some (kind.processLine line (readMore w).client w.channel).val.ok

/-- The rules find the same headers. -/
structure LineRules.Of (rules : LineRules) (kind : LineKind σ) : Prop where
  countChars : rules.countChars = kind.countChars
  headerKeys : rules.headerKeys = kind.headerKeys

theorem LineRules.Of.isHeader (h : rules.Of kind) (text : List UInt8) :
    rules.isHeader (parsedOf kind.parse) text = kind.isHeader text := by
  unfold LineRules.isHeader LineKind.isHeader parsedOf
  rw [h.headerKeys]
  cases kind.parse text <;> rfl

/-! ## The scan -/

theorem viewOf_of_running (hrun : w.running = true) : viewOf w = some (lineBufferOf w) := if_pos hrun

theorem viewOf_resetIfFull (hrun : w.running = true) :
    viewOf w.resetIfFull = some (lineBufferOf w).resetIfFull := by
  unfold Worker.resetIfFull LineBuffer.resetIfFull
  rw [hrun, Bool.true_and]
  show viewOf _ = some (if w.totalRead ≥ MAX_BUFFER_SIZE - 1 then _ else _)
  by_cases hfull : w.totalRead ≥ MAX_BUFFER_SIZE - 1
  · rw [if_pos (decide_eq_true hfull), if_pos hfull]
    rfl
  · rw [if_neg (by rwa [decide_eq_true_eq]), if_neg hfull]
    exact viewOf_of_running hrun

theorem resetIfFull_resetIfFull (lb : LineBuffer) : lb.resetIfFull.resetIfFull = lb.resetIfFull := by
  have hroom : lb.resetIfFull.totalRead + 1 < MAX_BUFFER_SIZE := roomy_resetIfFull lb
  exact if_neg (by omega)

theorem dropLine_agrees {newline_pos : ℕ} (hrun : w.running = true) (hnl : newline_pos < w.totalRead)
    (hroom : w.totalRead < MAX_BUFFER_SIZE) :
    (Scanned.done ((lineBufferOf w).dropLine newline_pos).val).finish =
      viewOf (w.dropLine newline_pos).val.resetIfFull := by
  have hmax := maxBufferSize_lt
  have hsub := (yields_sub (a := w.totalRead) (b := newline_pos + 1) (by omega) (by omega)).val
  rw [viewOf_resetIfFull (w := (w.dropLine newline_pos).val) hrun]
  refine congrArg (fun lb => some (LineBuffer.resetIfFull lb)) ?_
  show (⟨moveDown w.buffer (newline_pos + 1) (sub w.totalRead (newline_pos + 1)).val,
    (sub w.totalRead (newline_pos + 1)).val⟩ : LineBuffer) = _
  rw [hsub]
  rfl

/-- What is done after a receive. -/
theorem scanLine_agrees (hrules : rules.Of kind)
    (hline : ∀ line, Delimited line → (rules.processLine (parsedOf kind.parse) turn line).val =
      some (kind.processLine line w.client w.channel).val.ok)
    (hrun : w.running = true) (hroom : w.totalRead < MAX_BUFFER_SIZE) :
    (scanLine rules (parsedOf kind.parse) turn (lineBufferOf w)).val.finish =
      viewOf (w.scanBuffer kind).val := by
  have hmax := maxBufferSize_lt
  unfold scanLine Worker.scanBuffer Worker.scanLine
  rw [Traced.val_map, Traced.val_bind]
  unfold lineBufferOf
  dsimp only
  cases hnl : (memchr w.buffer '\n' w.totalRead).val with
  | none =>
    dsimp only
    rw [Traced.val_pure, viewOf_resetIfFull hrun]
    exact congrArg some (resetIfFull_resetIfFull (lineBufferOf w))
  | some newline_pos =>
    obtain ⟨hlt, -, -⟩ := memchr_eq_some.mp hnl
    dsimp only
    rw [Traced.val_bind, ← hrules.countChars]
    cases hstart : (findJsonStart rules.countChars w.buffer newline_pos).val with
    | none => exact dropLine_agrees hrun hlt hroom
    | some json_start =>
      have hheld : (memchr (lineBufferOf w).buffer '\n' (lineBufferOf w).totalRead).val = some newline_pos := hnl
      have hline' := hline ⟨set w.buffer newline_pos 0, json_start, newline_pos, w.totalRead⟩
        (delimited_header hheld hstart hroom)
      have hbefore := (findJsonStart_spec hstart).1
      have hsub := (yields_sub (a := newline_pos) (b := json_start) (by omega) (by omega)).val
      dsimp only
      rw [Logged.val_bind, hsub, hrules.isHeader, Traced.val_bind, val_readRange]
      show Scanned.finish (Logged.val (if kind.isHeader
        (slice w.buffer json_start (newline_pos - json_start)) = true then _ else _)) = _
      by_cases hheader : kind.isHeader (slice w.buffer json_start (newline_pos - json_start)) = true
      · rw [if_pos hheader, if_pos hheader]
        have hset : ((⟨w.buffer, w.totalRead⟩ : LineBuffer).setNul newline_pos).val =
            ⟨set w.buffer newline_pos 0, w.totalRead⟩ := rfl
        rw [Logged.val_bind, hset, Logged.val_bind, Traced.val_bind]
        dsimp only
        rw [hline']
        rcases hresult : (kind.processLine ⟨set w.buffer newline_pos 0, json_start, newline_pos, w.totalRead⟩
          w.client w.channel).val with ⟨ok, client, channel⟩
        cases ok with
        | false => rfl
        | true =>
          exact dropLine_agrees
            (w := { w with buffer := set w.buffer newline_pos 0, client := client, channel := channel })
            hrun hlt hroom
      · rw [if_neg hheader, if_neg hheader]
        exact dropLine_agrees hrun hlt hroom

/-! ## Turns -/

/-- The receive: the worker leaves its loop, or the buffer holds the new bytes. -/
theorem readMore_agrees (hrun : w.running = true) (hroom : w.totalRead + 1 < MAX_BUFFER_SIZE) :
    ((lineBufferOf w).receive (recvOf w.client) (MAX_BUFFER_SIZE - w.totalRead - 1)).val.map
        (fun lb => (lb.setNul lb.totalRead).val) = viewOf (readMore w) := by
  have hmax := maxBufferSize_lt
  unfold readMore Worker.receive LineBuffer.receive
  rw [Logged.val_bind]
  unfold recvOf lineBufferOf
  dsimp only
  rcases hreceive : w.client.receive (MAX_BUFFER_SIZE - w.totalRead - 1) with ⟨_ | _ | ⟨b, bytes⟩, client⟩
  · rfl
  · rfl
  · have hlength := length_receive_le hreceive
    have hsum : Counts.wrapAdd (2 ^ 64) w.totalRead (b :: bytes).length = w.totalRead + (b :: bytes).length :=
      Nat.mod_eq_of_lt (by omega)
    dsimp only
    rw [Logged.val_pure, Option.map_some]
    unfold Worker.terminate viewOf
    dsimp only
    rw [hrun, if_pos rfl, if_pos rfl]
    show some (⟨set (store w.buffer w.totalRead (b :: bytes))
      (Counts.wrapAdd (2 ^ 64) w.totalRead (b :: bytes).length) 0,
      Counts.wrapAdd (2 ^ 64) w.totalRead (b :: bytes).length⟩ : LineBuffer) = _
    rw [hsum]
    rfl

/-- Step lemma: after a turn the line buffers are the same. -/
theorem readTurn_agrees (hrules : rules.Of kind) (hturn : Meets turn rules kind w) (hrun : w.running = true)
    (hfits : Fits w) :
    (ReceiveLoop.readTurn rules (parsedOf kind.parse) turn (lineBufferOf w)).val =
      viewOf (Stream.readTurn kind w).val := by
  have hmax := maxBufferSize_lt
  have hroom := hfits hrun
  have hmore := readMore_agrees hrun hroom
  have hspace := (yields_sub (a := MAX_BUFFER_SIZE) (b := w.totalRead) (by omega) hmax).val
  have hsize := (yields_sub (a := MAX_BUFFER_SIZE - w.totalRead) (b := 1) (by omega) (by omega)).val
  have hread : (Stream.readTurn kind w).val =
      if (readMore w).running = true then ((readMore w).scanBuffer kind).val else readMore w := by
    unfold Stream.readTurn
    rw [hrun]
    show Traced.val (if (readMore w).running = true then _ else _) = _
    by_cases hrunning : (readMore w).running = true
    · rw [if_pos hrunning, if_pos hrunning]
    · rw [if_neg hrunning, if_neg hrunning]
      rfl
  unfold ReceiveLoop.readTurn
  rw [hturn.running, hturn.stillRunning, hturn.connected, hturn.recv, hread, Bool.not_true, Bool.or_false,
    if_neg Bool.false_ne_true, if_neg Bool.false_ne_true, Logged.val_bind, Logged.val_bind]
  show Logged.val (((lineBufferOf w).receive (recvOf w.client)
    (sub (sub MAX_BUFFER_SIZE w.totalRead).val 1).val) >>= _) = _
  rw [hspace, hsize, Logged.val_bind]
  cases hlb : ((lineBufferOf w).receive (recvOf w.client) (MAX_BUFFER_SIZE - w.totalRead - 1)).val with
  | none =>
    rw [hlb, Option.map_none] at hmore
    have hstopped : ¬(readMore w).running = true := fun hrunning => by
      rw [viewOf_of_running hrunning] at hmore
      cases hmore
    rw [if_neg hstopped, ← hmore]
    rfl
  | some lb =>
    rw [hlb, Option.map_some] at hmore
    have hrunning : (readMore w).running = true := by
      by_contra hstopped
      unfold viewOf at hmore
      rw [if_neg hstopped] at hmore
      cases hmore
    rw [viewOf_of_running hrunning] at hmore
    rw [if_pos hrunning]
    have hclient := hturn.line
    rw [← readMore_channel w] at hclient
    rw [← scanLine_agrees hrules hclient hrunning (readMore_totalRead hroom), ← Option.some.inj hmore]
    rfl

/-- The inputs of a loop for a run of a worker: the turns that it takes until it leaves its loop. -/
def inputsOf (worker : Worker σ → Memory.Traced (Worker σ)) (turnOf : Worker σ → Turn) : ℕ → Worker σ → List Turn
  | 0, _ => []
  | n + 1, w => if w.running then turnOf w :: inputsOf worker turnOf n (worker w).val else []

/-- Turn by turn: a run of a worker is a run of a loop that does the same in every turn. -/
theorem turns_agree {step : Turn → LineBuffer → Logged Access (Option LineBuffer)}
    {worker : Worker σ → Memory.Traced (Worker σ)} {turnOf : Worker σ → Turn}
    (hstep : ∀ w, Fits w → w.running = true → (step (turnOf w) (lineBufferOf w)).val = viewOf (worker w).val)
    (hfits : ∀ w, Fits w → Fits (worker w).val) (hstop : ∀ w, w.running = false → (worker w).val = w)
    (hw : Fits w) (hrun : w.running = true) (n : ℕ) :
    (loop step (inputsOf worker turnOf n w) (lineBufferOf w)).val = viewOf (turns worker n w) := by
  induction n generalizing w with
  | zero => exact (viewOf_of_running hrun).symm
  | succ n ih =>
    have hturn := hstep w hw hrun
    rw [turns_succ, inputsOf, if_pos hrun, loop, Logged.val_bind, hturn]
    by_cases hrunning : (worker w).val.running = true
    · rw [viewOf_of_running hrunning]
      exact ih (hfits w hw) hrunning
    · have hstopped : turns worker n (worker w).val = (worker w).val :=
        Function.iterate_fixed (hstop _ (Bool.eq_false_iff.mpr hrunning)) n
      have hview : viewOf (worker w).val = none := if_neg hrunning
      rw [hstopped, hview]
      rfl

/-! ## The workers -/

/-- What a line function makes of a header: the payload that it asks for, and what it returns. -/
def processingOf (connected : Bool) (request : Option ℕ) (ok : Bool) : Processing :=
  match request with
  | none => .early ok
  | some binary_needed => .payload binary_needed connected ok

theorem val_processHeader {line : Line} {j : Json} {connected ok : Bool} {request : Option ℕ}
    (h : turn.process line j = processingOf connected request ok) : (processHeader turn line j).val = ok := by
  unfold processHeader
  rw [h]
  cases request <;> rfl

/-- The next turn of a worker, with what its line function asks for and returns. -/
def turnOf (w : Worker σ) (accumulationEnable : Bool) (request : Line → Option ℕ) (processLine : Line → Bool) :
    Turn where
  running := true
  stillRunning := true
  connected := true
  accumulationEnable := accumulationEnable
  hasClient := true
  recv := recvOf w.client
  lineAccumulationEnable := accumulationEnable
  process := fun line _ => processingOf (readMore w).client.connected (request line) (processLine line)

/-- The next turn of `runPreviewTcpWorker` and of `imgWorkerThread`. -/
def jsonimageTurn (env : Env) (integrates : Bool) (addrTh0 addrTh1 : ℕ) (w : Worker (List Image)) : Turn :=
  turnOf w true (fun line => imageRequest env integrates line w.channel) fun line =>
    (Stream.processJsonimageLine env integrates addrTh0 addrTh1 line (readMore w).client w.channel).val.ok

/-- The next turn of `prvHstWorkerThread`. -/
def jsonhistoTurn (env : Env) (w : Worker Hst.PrvHstChannel) : Turn :=
  turnOf w w.channel.accumulationEnable (fun line => histRequest env line w.channel) fun line =>
    (Hst.processPrvHstDataLine env line (readMore w).client w.channel).val.ok

/-- `processPreviewJsonimageLine` and `processImgDataLine`. -/
theorem meets_jsonimage (env : Env) (integrates : Bool) (addrTh0 addrTh1 : ℕ) (w : Worker (List Image)) :
    Meets (jsonimageTurn env integrates addrTh0 addrTh1 w) jsonimageLines
      (Stream.jsonimageLines env (Stream.processJsonimageLine env integrates addrTh0 addrTh1)) w := by
  refine ⟨rfl, rfl, rfl, rfl, ?_⟩
  intro line h
  have hstart : line.line_buffer < MAX_BUFFER_SIZE := Nat.lt_trans h.start_lt (Nat.lt_trans h.end_lt h.room)
  show (processJsonimageLine (parsedOf env.parse) _ line).val =
    some (Stream.processJsonimageLine env integrates addrTh0 addrTh1 line (readMore w).client w.channel).val.ok
  unfold processJsonimageLine parsedOf
  rw [val_skipBinary hstart h.brace]
  dsimp only
  rw [h.brace, if_neg (by simp)]
  cases hparse : env.parse (readCString line.buffer line.line_buffer).val with
  | none =>
    rw [val_processJsonimageLine hstart h.brace]
    unfold acceptHeader
    rw [hparse]
    rfl
  | some j => exact congrArg some (val_processHeader rfl)

/-- `processPrvHstDataLine`, with accumulation enabled. -/
theorem meets_jsonhisto (env : Env) (w : Worker Hst.PrvHstChannel) (hon : w.channel.accumulationEnable = true) :
    Meets (jsonhistoTurn env w) jsonhistoLines (Stream.jsonhistoLines env) w := by
  refine ⟨rfl, rfl, rfl, rfl, ?_⟩
  intro line h
  have hmax := maxBufferSize_lt
  have hbound : line.newline_pos < 2 ^ 64 := Nat.lt_trans h.end_lt (Nat.lt_trans h.room hmax)
  have hlength := (yields_sub (Nat.le_of_lt h.start_lt) hbound).val
  have hlineOn : (jsonhistoTurn env w).lineAccumulationEnable = true := hon
  show (processPrvHstDataLine (parsedOf env.parse) _ line).val =
    some (Hst.processPrvHstDataLine env line (readMore w).client w.channel).val.ok
  unfold processPrvHstDataLine
  rw [hlineOn]
  show Logged.val (if line.newline_pos ≤ line.line_buffer then _ else _) = _
  rw [if_neg (Nat.not_le.mpr h.start_lt), Logged.val_bind, hlength]
  show Logged.val (if line.newline_pos - line.line_buffer = 0 then _ else _) = _
  rw [if_neg (Nat.sub_ne_zero_of_lt h.start_lt), val_skipBinary h.start_lt h.brace]
  dsimp only
  rw [h.brace, if_neg (by simpa using h.start_lt), Logged.val_bind, hlength]
  unfold parsedOf
  cases hparse : env.parse (slice line.buffer line.line_buffer (line.newline_pos - line.line_buffer)) with
  | none =>
    rw [Hst.val_processPrvHstDataLine hon h.start_lt h.brace]
    unfold Hst.acceptHistHeader
    rw [hparse]
    rfl
  | some j => exact congrArg some (val_processHeader rfl)

theorem of_jsonimage (env : Env)
    (processLine : Line → NetworkClient → List Image → Traced (LineResult (List Image))) :
    jsonimageLines.Of (Stream.jsonimageLines env processLine) := ⟨rfl, rfl⟩

theorem of_jsonhisto (env : Env) : jsonhistoLines.Of (Stream.jsonhistoLines env) := ⟨rfl, rfl⟩

/-- Step lemma for the two workers of the common read loop. -/
theorem jsonimage_agrees (env : Env) (integrates : Bool) (addrTh0 addrTh1 : ℕ) (w : Worker (List Image))
    (hw : Fits w) (hrun : w.running = true) :
    (readTurn jsonimageLines (parsedOf env.parse) (jsonimageTurn env integrates addrTh0 addrTh1 w)
      (lineBufferOf w)).val =
      viewOf (Stream.readTurn
        (Stream.jsonimageLines env (Stream.processJsonimageLine env integrates addrTh0 addrTh1)) w).val := by
  have hagrees := readTurn_agrees (of_jsonimage env _) (meets_jsonimage env integrates addrTh0 addrTh1 w) hrun hw
  exact hagrees

/-- Step lemma for the histogram worker, with accumulation enabled or not. -/
theorem prvHst_agrees (env : Env) (w : Worker Hst.PrvHstChannel) (hw : Fits w) (hrun : w.running = true) :
    (prvHstWorkerThread (parsedOf env.parse) (jsonhistoTurn env w) (lineBufferOf w)).val =
      viewOf (Stream.prvHstWorkerThread env w).val := by
  cases hon : w.channel.accumulationEnable with
  | true =>
    have hroomy : Roomy (lineBufferOf w) := hw hrun
    have haccumulate : (jsonhistoTurn env w).accumulationEnable = true := hon
    rw [prvHstWorkerThread_eq hroomy haccumulate rfl, prvHst_turn_eq hon hw]
    have hagrees := readTurn_agrees (of_jsonhisto env) (meets_jsonhisto env w hon) hrun hw
    exact hagrees
  | false =>
    have haccumulate : (jsonhistoTurn env w).accumulationEnable = false := hon
    rw [prvHst_turn_off hon, Traced.val_pure, viewOf_of_running hrun]
    unfold prvHstWorkerThread
    rw [haccumulate]
    rfl

theorem readTurn_of_stopped (hstop : w.running = false) : (Stream.readTurn kind w).val = w := by
  unfold Stream.readTurn
  rw [hstop]
  rfl

/-- A parser whose exceptions are all caught lets a line function return. -/
theorem jsonimageLines_returns_parsedOf (parse : List UInt8 → Option Json) :
    jsonimageLines.Returns (parsedOf parse) := by
  intro turn line j h _
  have hskip : (skipBinary true line.buffer line.line_buffer MAX_BUFFER_SIZE).val = line.line_buffer :=
    val_skipBinary (Nat.lt_trans h.start_lt (Nat.lt_trans h.end_lt h.room)) h.brace
  show Yields _ _ (processJsonimageLine (parsedOf parse) turn line)
  unfold processJsonimageLine parsedOf
  rw [hskip]
  dsimp only
  rw [h.brace, if_neg (by simp)]
  cases parse (Stream.readCString line.buffer line.line_buffer).val with
  | none => exact yields_pure (Option.some_ne_none true)
  | some j' =>
    refine yields_bind (yields_processHeader h turn j') fun ok _ => ?_
    exact yields_pure (Option.some_ne_none ok)

/-- A run of a read loop has the line buffer that a worker has, and its accesses are right. -/
def RunsAs (run : Logged Access (Option LineBuffer)) (w : Worker σ) : Prop :=
  run.val = viewOf w ∧ ∀ access ∈ run.log, access.Right

/-- Every run of the three workers is a run of the read loops: the line buffer is the same after it, at every receive
there is room for what is asked for and the NUL, no byte is written outside the buffer and no subtraction
underflows. -/
theorem workers_agree (env : Env) (buffer : ℕ → UInt8) (client : NetworkClient) (n : ℕ) :
    (∀ (stream : PreviewJsonimageStream) (images : List Image),
      let worker := Stream.runPreviewTcpWorker env stream
      let w : Worker (List Image) := .start buffer client images
      let turn := jsonimageTurn env true stream.ndAddrThreshold0 stream.ndAddrThreshold1
      RunsAs (loop (runPreviewTcpWorker (parsedOf env.parse)) (inputsOf worker turn n w) (start buffer))
        (turns worker n w)) ∧
    (∀ images : List Image,
      let worker := Stream.imgWorkerThread env
      let w : Worker (List Image) := .start buffer client images
      RunsAs (loop (imgWorkerThread (parsedOf env.parse)) (inputsOf worker (jsonimageTurn env false 1 13) n w)
        (start buffer)) (turns worker n w)) ∧
    ∀ channel : Hst.PrvHstChannel,
      let worker := Stream.prvHstWorkerThread env
      let w : Worker Hst.PrvHstChannel := .start buffer client channel
      RunsAs (loop (prvHstWorkerThread (parsedOf env.parse)) (inputsOf worker (jsonhistoTurn env) n w)
        (start buffer)) (turns worker n w) := by
  have hjsonimage : ∀ turn lb, Roomy lb →
      Yields Access.Right (Stays Roomy) (readTurn jsonimageLines (parsedOf env.parse) turn lb) :=
    fun turn _ h => yields_readTurn (jsonimageLines_returns_parsedOf env.parse) turn h
  refine ⟨fun stream images => ⟨?_, ?_⟩, fun images => ⟨?_, ?_⟩, fun channel => ⟨?_, ?_⟩⟩
  · exact turns_agree (jsonimage_agrees env true stream.ndAddrThreshold0 stream.ndAddrThreshold1)
      (fun _ => readTurn_fits) (fun _ => readTurn_of_stopped) (fits_start buffer client images) rfl n
  · exact (yields_loop hjsonimage _ (roomy_start buffer)).log
  · exact turns_agree (jsonimage_agrees env false 1 13) (fun _ => readTurn_fits)
      (fun _ => readTurn_of_stopped) (fits_start buffer client images) rfl n
  · exact (yields_loop hjsonimage _ (roomy_start buffer)).log
  · refine turns_agree (prvHst_agrees env) ?_ ?_ (fits_start buffer client channel) rfl n
    · intro w hw
      cases hon : w.channel.accumulationEnable with
      | true => exact (prvHst_turn_on env ⟨hon, hw⟩).2
      | false => rwa [prvHst_turn_off hon]
    · intro w hstop
      unfold Stream.prvHstWorkerThread
      rw [hstop]
      rfl
  · exact (yields_loop (fun turn _ h => yields_prvHstWorkerThread _ turn h) _ (roomy_start buffer)).log

end ADTimePix3.Stream.ReceiveLoop
