import ADTimePix3.Stream.ReceiveLoop
import ADTimePix3.Stream.Proofs.JsonImageProofs
import ADTimePix3.Stream.Proofs.LineBufferProofs

/-!
# How full the line buffer gets, with the machine's arithmetic

At the start of every turn there is room in the buffer for one more byte and the NUL (`Roomy`), and with it
everything that the turn logs is right. An exception that left a line function would skip the reset of a full
buffer; none does, because the line function parses the text that the worker has parsed before
(`processLine_returns`).
-/

namespace ADTimePix3.Stream.ReceiveLoop

open Counts Logged Memory

variable {parse : List UInt8 → Parsed} {turn : Turn} {line : Line} {lb : LineBuffer} {a b : ℕ}

/-- A NUL ends the text, as in a C string. -/
def EndsAtNul (parse : List UInt8 → Parsed) : Prop := ∀ text rest, parse (text ++ 0 :: rest) = parse text

/-! ## Subtractions -/

theorem wrapAdd_sub (hle : b ≤ a) (ha : a < 2 ^ 64) : wrapAdd (2 ^ 64) a (2 ^ 64 - b) = a - b := by
  unfold wrapAdd
  have hsum : a + (2 ^ 64 - b) = (a - b) + 2 ^ 64 := by omega
  rw [hsum, Nat.add_mod_right, Nat.mod_eq_of_lt (by omega)]

theorem yields_sub (hle : b ≤ a) (ha : a < 2 ^ 64) : Yields Access.Right (· = a - b) (sub a b) :=
  yields_tell_bind hle (yields_pure (wrapAdd_sub hle ha))

/-! ## The line functions -/

/-- A line as the workers give it to the line function: it starts with a brace, ends with the NUL that has taken
the place of the newline, and lies inside the buffer. -/
structure Delimited (line : Line) : Prop where
  start_lt : line.line_buffer < line.newline_pos
  brace : line.buffer line.line_buffer = '{'.toUInt8
  nul : line.buffer line.newline_pos = 0
  end_lt : line.newline_pos < line.total_read
  room : line.total_read < MAX_BUFFER_SIZE

theorem maxBufferSize_lt : MAX_BUFFER_SIZE < 2 ^ 64 := by decide

theorem yields_takePayload (h : Delimited line) (binary_needed : ℕ) (connected : Bool) :
    Yields Access.Right (fun _ => True) (takePayload line binary_needed connected) := by
  obtain ⟨hstart, -, -, hend, hroom⟩ := h
  have hmax := maxBufferSize_lt
  refine yields_bind (yields_sub (by omega) (by omega)) fun line_length hlength => ?_
  refine yields_bind (yields_sub (by omega) (by omega)) fun remaining _ => ?_
  show Yields _ _ (if _ then _ else _)
  by_cases hmore : (min remaining binary_needed < binary_needed && connected) = true
  · rw [if_pos hmore]
    exact yields_tell_bind (Nat.min_le_right _ _) (yields_pure trivial)
  · rw [if_neg hmore]
    exact yields_pure trivial

theorem yields_processHeader (h : Delimited line) (turn : Turn) (j : Json) :
    Yields Access.Right (fun _ => True) (processHeader turn line j) := by
  unfold processHeader
  rcases turn.process line j with ok | ⟨binary_needed, connected, ok⟩
  · exact yields_pure trivial
  · exact yields_bind (yields_takePayload h binary_needed connected) fun _ _ => yields_pure trivial

/-- The C string at the start of the line is the line's text, or the text up to its first NUL. -/
theorem Delimited.readCString (h : Delimited line) :
    slice line.buffer line.line_buffer (line.newline_pos - line.line_buffer) =
        (Stream.readCString line.buffer line.line_buffer).val ∨
      ∃ rest, slice line.buffer line.line_buffer (line.newline_pos - line.line_buffer) =
        (Stream.readCString line.buffer line.line_buffer).val ++ 0 :: rest := by
  obtain ⟨hstart, -, hnul, hend, hroom⟩ := h
  obtain ⟨r, hr, hle, hfind⟩ := readCString_find (Nat.le_of_lt hstart) (Nat.lt_trans hend hroom) hnul
  have hval : (Stream.readCString line.buffer line.line_buffer).val =
      slice line.buffer line.line_buffer (r - line.line_buffer) := by
    unfold Stream.readCString
    rw [Traced.val_bind, hfind]
    rfl
  have hzero : line.buffer r = 0 := by
    have htest := (val_find_eq_some.mp hfind).2.2.1
    rw [Traced.val_map, val_read] at htest
    exact beq_iff_eq.mp htest
  rw [hval]
  rcases Nat.eq_or_lt_of_le hle with rfl | hlt
  · exact Or.inl rfl
  · refine Or.inr ⟨slice line.buffer (r + 1) (line.newline_pos - (r + 1)), ?_⟩
    have hlength : line.newline_pos - line.line_buffer =
        (r - line.line_buffer) + (line.newline_pos - (r + 1) + 1) := by omega
    rw [hlength, slice_add, Nat.add_sub_cancel' hr, slice_succ, hzero]

/-- So the header parses when it is read again as a C string. -/
theorem Delimited.parse_readCString (h : Delimited line) (hparse : EndsAtNul parse) :
    parse (Stream.readCString line.buffer line.line_buffer).val =
      parse (slice line.buffer line.line_buffer (line.newline_pos - line.line_buffer)) := by
  rcases h.readCString with htext | ⟨rest, htext⟩
  · rw [htext]
  · rw [htext, hparse]

/-- What a line function needs of a line, and does with it: its subtractions are right, and it returns. -/
def LineRules.Returns (rules : LineRules) (parse : List UInt8 → Parsed) : Prop :=
  ∀ turn line j, Delimited line →
    parse (slice line.buffer line.line_buffer (line.newline_pos - line.line_buffer)) = .value j →
    Yields Access.Right (fun result => result ≠ none) (rules.processLine parse turn line)

theorem jsonimageLines_returns (hparse : EndsAtNul parse) : jsonimageLines.Returns parse := by
  intro turn line j h hvalue
  have hskip : (skipBinary true line.buffer line.line_buffer MAX_BUFFER_SIZE).val = line.line_buffer :=
    val_skipBinary (Nat.lt_trans h.start_lt (Nat.lt_trans h.end_lt h.room)) h.brace
  show Yields _ _ (processJsonimageLine parse turn line)
  unfold processJsonimageLine
  rw [hskip]
  dsimp only
  rw [h.brace, if_neg (by simp), h.parse_readCString hparse, hvalue]
  refine yields_bind (yields_processHeader h turn j) fun ok _ => ?_
  exact yields_pure (Option.some_ne_none ok)

theorem jsonhistoLines_returns (parse : List UInt8 → Parsed) : jsonhistoLines.Returns parse := by
  intro turn line j h hvalue
  have hskip : (skipBinary false line.buffer line.line_buffer line.newline_pos).val = line.line_buffer :=
    val_skipBinary h.start_lt h.brace
  have hmax := maxBufferSize_lt
  have hbound : line.newline_pos < 2 ^ 64 := Nat.lt_trans h.end_lt (Nat.lt_trans h.room hmax)
  show Yields _ _ (processPrvHstDataLine parse turn line)
  unfold processPrvHstDataLine
  cases turn.lineAccumulationEnable
  · exact yields_pure (Option.some_ne_none true)
  show Yields _ _ (if line.newline_pos ≤ line.line_buffer then _ else _)
  rw [if_neg (Nat.not_le.mpr h.start_lt)]
  refine yields_bind (yields_sub (Nat.le_of_lt h.start_lt) hbound) fun line_length _ => ?_
  show Yields _ _ (if line_length = 0 then _ else _)
  by_cases hempty : line_length = 0
  · rw [if_pos hempty]
    exact yields_pure (Option.some_ne_none true)
  rw [if_neg hempty, hskip]
  dsimp only
  rw [h.brace, if_neg (by simpa using h.start_lt)]
  refine yields_bind (yields_sub (Nat.le_of_lt h.start_lt) hbound) fun json_length hlength => ?_
  rw [hlength, hvalue]
  refine yields_bind (yields_processHeader h turn j) fun ok _ => ?_
  exact yields_pure (Option.some_ne_none ok)

/-! ## The scan -/

/-- There is room for one more byte and the NUL. -/
def Roomy (lb : LineBuffer) : Prop := lb.totalRead + 1 < MAX_BUFFER_SIZE

theorem roomy_start (buffer : ℕ → UInt8) : Roomy (start buffer) := show 0 + 1 < 32768 by decide

theorem roomy_resetIfFull (lb : LineBuffer) : Roomy lb.resetIfFull := by
  unfold LineBuffer.resetIfFull
  by_cases hfull : lb.totalRead ≥ MAX_BUFFER_SIZE - 1
  · rw [if_pos hfull]
    exact roomy_start lb.buffer
  · rw [if_neg hfull]
    unfold Roomy
    omega

/-- A turn that ends without an exception leaves room. -/
theorem stays_finish_done (lb : LineBuffer) : Stays Roomy (Scanned.done lb).finish :=
  stays_some.mpr (roomy_resetIfFull lb)

theorem yields_setNul {index : ℕ} (h : index < MAX_BUFFER_SIZE) :
    Yields Access.Right (fun lb' => lb' = { lb with buffer := set lb.buffer index 0 }) (lb.setNul index) :=
  yields_tell_bind h (yields_pure rfl)

theorem yields_dropLine {newline_pos : ℕ} (hnl : newline_pos < lb.totalRead)
    (hroom : lb.totalRead < MAX_BUFFER_SIZE) :
    Yields Access.Right (fun scanned : Scanned => Stays Roomy scanned.finish)
      (do return Scanned.done (← lb.dropLine newline_pos)) := by
  have hmax := maxBufferSize_lt
  refine yields_bind (Q := fun _ => True) ?_ fun lb' _ => yields_pure (stays_finish_done lb')
  exact yields_bind (yields_sub (by omega) (by omega)) fun _ _ => yields_pure trivial

theorem LineRules.exists_value {rules : LineRules} {text : List UInt8}
    (h : rules.isHeader parse text = true) : ∃ j, parse text = .value j := by
  unfold LineRules.isHeader at h
  cases hvalue : parse text with
  | value j => exact ⟨j, rfl⟩
  | parse_error => rw [hvalue] at h; cases h
  | other_exception => rw [hvalue] at h; cases h

/-- The header that the worker has found, as it is given to the line function. -/
theorem delimited_header {countChars : Bool} {newline_pos json_start : ℕ}
    (hnl : (memchr lb.buffer '\n' lb.totalRead).val = some newline_pos)
    (hstart : (findJsonStart countChars lb.buffer newline_pos).val = some json_start)
    (hroom : lb.totalRead < MAX_BUFFER_SIZE) :
    Delimited ⟨set lb.buffer newline_pos 0, json_start, newline_pos, lb.totalRead⟩ := by
  obtain ⟨hlt, -, -⟩ := memchr_eq_some.mp hnl
  obtain ⟨hbefore, hbrace⟩ := findJsonStart_spec hstart
  refine ⟨Nat.lt_of_succ_lt hbefore, ?_, if_pos rfl, hlt, hroom⟩
  show set lb.buffer newline_pos 0 json_start = _
  rw [← hbrace]
  exact if_neg (by omega)

/-- The scan is right, and no exception is thrown: the line function returns. -/
theorem yields_scanLine {rules : LineRules} (hrules : rules.Returns parse) (turn : Turn)
    (hroom : lb.totalRead < MAX_BUFFER_SIZE) :
    Yields Access.Right (fun scanned : Scanned => Stays Roomy scanned.finish) (scanLine rules parse turn lb) := by
  have hmax := maxBufferSize_lt
  unfold scanLine
  cases hnl : (memchr lb.buffer '\n' lb.totalRead).val with
  | none => exact yields_pure (stays_finish_done _)
  | some newline_pos =>
    obtain ⟨hlt, -, -⟩ := memchr_eq_some.mp hnl
    dsimp only
    cases hstart : (findJsonStart rules.countChars lb.buffer newline_pos).val with
    | none => exact yields_dropLine hlt hroom
    | some json_start =>
      have hline := delimited_header hnl hstart hroom
      have hbefore := (findJsonStart_spec hstart).1
      refine yields_bind (yields_sub (by omega) (by omega)) fun json_length hlength => ?_
      rw [hlength]
      by_cases hheader :
          rules.isHeader parse (slice lb.buffer json_start (newline_pos - json_start)) = true
      · rw [if_pos hheader]
        refine yields_bind (yields_setNul (by omega)) fun lb' hlb' => ?_
        subst hlb'
        obtain ⟨j, hvalue⟩ := LineRules.exists_value hheader
        rw [← slice_set_of_outside (q := newline_pos) 0 (Or.inr (by omega))] at hvalue
        refine yields_bind (hrules turn _ j hline hvalue) fun result hreturns => ?_
        rcases result with _ | _ | _
        · exact absurd rfl hreturns
        · exact yields_pure stays_none
        · exact yields_dropLine hlt hroom
      · rw [if_neg hheader]
        exact yields_dropLine hlt hroom

/-! ## The turns -/

/-- What a receive leaves in a buffer with room: room for the NUL. -/
theorem yields_receive (h : Roomy lb) (recv : Recv) {max_size : ℕ}
    (hmax : max_size = MAX_BUFFER_SIZE - lb.totalRead - 1) :
    Yields Access.Right (Stays fun lb' => lb'.totalRead < MAX_BUFFER_SIZE) (lb.receive recv max_size) := by
  unfold Roomy at h
  have hsize := maxBufferSize_lt
  refine yields_tell_bind ?_ ?_
  · refine ⟨by omega, by omega, by omega, fun hnil => ?_⟩
    rcases recv.closed_of_nil max_size hnil with hzero | hclosed
    · omega
    · exact hclosed
  · rcases hresult : recv.result max_size with _ | _ | ⟨b, bytes⟩
    · exact yields_pure stays_none
    · exact yields_pure stays_none
    · have hlen := recv.length_le max_size _ hresult
      refine yields_pure (stays_some.mpr ?_)
      show wrapAdd (2 ^ 64) lb.totalRead (b :: bytes).length < MAX_BUFFER_SIZE
      unfold wrapAdd
      rw [Nat.mod_eq_of_lt (by omega)]
      omega

/-- From the bytes that were received to the end of the turn. -/
theorem yields_scanReceived {rules : LineRules} (hrules : rules.Returns parse) (turn : Turn)
    (hroom : lb.totalRead < MAX_BUFFER_SIZE) :
    Yields Access.Right (Stays Roomy)
      (do
        let lb ← lb.setNul lb.totalRead
        return (← scanLine rules parse turn lb).finish) := by
  refine yields_bind (yields_setNul hroom) fun lb' hlb' => ?_
  have hroom' : lb'.totalRead < MAX_BUFFER_SIZE := by rw [hlb']; exact hroom
  exact yields_bind (yields_scanLine hrules turn hroom') fun scanned hscanned => yields_pure hscanned

/-- Step lemma: a turn of the common read loop is right, and leaves room. -/
theorem yields_readTurn {rules : LineRules} (hrules : rules.Returns parse) (turn : Turn) (h : Roomy lb) :
    Yields Access.Right (Stays Roomy) (readTurn rules parse turn lb) := by
  have hmax := maxBufferSize_lt
  have hroom : lb.totalRead + 1 < MAX_BUFFER_SIZE := h
  unfold readTurn
  by_cases hrun : (!turn.running || !turn.stillRunning) = true
  · rw [if_pos hrun]
    exact yields_pure stays_none
  rw [if_neg hrun]
  by_cases hcon : (!turn.connected) = true
  · rw [if_pos hcon]
    exact yields_pure (stays_some.mpr h)
  rw [if_neg hcon]
  refine yields_bind (yields_sub (by omega) (by omega)) fun space hspace => ?_
  refine yields_bind (yields_sub (by omega) (by omega)) fun max_size hsize => ?_
  refine yields_bind (yields_receive h turn.recv (by omega)) fun received hreceived => ?_
  cases received with
  | none => exact yields_pure stays_none
  | some lb' => exact yields_scanReceived hrules turn (hreceived lb' rfl)

/-- With room in the buffer the guards of the histogram worker on its size do not apply. -/
theorem prvHstWorkerThread_eq (h : Roomy lb) (haccumulate : turn.accumulationEnable = true)
    (hclient : turn.hasClient = true) :
    prvHstWorkerThread parse turn lb = readTurn jsonhistoLines parse turn lb := by
  have hmax := maxBufferSize_lt
  have hroom : lb.totalRead + 1 < MAX_BUFFER_SIZE := h
  unfold prvHstWorkerThread readTurn
  rw [haccumulate, hclient, Bool.not_true, Bool.or_false, if_neg Bool.false_ne_true,
    if_neg (by omega : ¬lb.totalRead ≥ MAX_BUFFER_SIZE)]
  refine if_congr Iff.rfl rfl (if_congr Iff.rfl rfl (bind_eq_of_val (bind_eq_of_val ?_)))
  have hspace := (yields_sub (a := MAX_BUFFER_SIZE) (b := lb.totalRead) (by omega) hmax).val
  have hsize := (yields_sub (a := MAX_BUFFER_SIZE - lb.totalRead) (b := 1) (by omega) (by omega)).val
  rw [hspace, hsize]
  have hnotFull : ¬(decide (MAX_BUFFER_SIZE - lb.totalRead - 1 = 0) ||
      decide (MAX_BUFFER_SIZE - lb.totalRead - 1 > MAX_BUFFER_SIZE)) = true := by
    rw [Bool.or_eq_true, decide_eq_true_eq, decide_eq_true_eq]
    omega
  rw [if_neg hnotFull]
  refine bind_eq_of_val ?_
  have hreceived : Stays (fun lb' : LineBuffer => lb'.totalRead < MAX_BUFFER_SIZE)
      (lb.receive turn.recv (MAX_BUFFER_SIZE - lb.totalRead - 1)).val := (yields_receive h turn.recv rfl).val
  cases hlb : (lb.receive turn.recv (MAX_BUFFER_SIZE - lb.totalRead - 1)).val with
  | none => rfl
  | some lb' =>
    have hroom' := hreceived lb' hlb
    dsimp only
    rw [if_neg (by omega : ¬lb'.totalRead ≥ MAX_BUFFER_SIZE)]

/-- Step lemma for the histogram worker. -/
theorem yields_prvHstWorkerThread (parse : List UInt8 → Parsed) (turn : Turn) (h : Roomy lb) :
    Yields Access.Right (Stays Roomy) (prvHstWorkerThread parse turn lb) := by
  by_cases hread : turn.accumulationEnable = true ∧ turn.hasClient = true
  · rw [prvHstWorkerThread_eq h hread.1 hread.2]
    exact yields_readTurn (jsonhistoLines_returns parse) turn h
  · unfold prvHstWorkerThread
    by_cases hrun : (!turn.running || !turn.stillRunning) = true
    · rw [if_pos hrun]
      exact yields_pure stays_none
    rw [if_neg hrun]
    by_cases hcon : (!turn.connected || !turn.accumulationEnable) = true
    · rw [if_pos hcon]
      exact yields_pure (stays_some.mpr h)
    have hclient : (!turn.hasClient) = true := by
      simp only [Bool.or_eq_true, Bool.not_eq_true', not_or, Bool.not_eq_false] at hcon
      rw [Bool.not_eq_true', ← Bool.not_eq_true]
      exact fun hclient => hread ⟨hcon.2, hclient⟩
    rw [if_neg hcon, if_pos hclient]
    exact yields_pure stays_none

/-- In every run of the three workers, whatever is received and whatever the line functions make of it, there is
room at every receive for what is asked for and the NUL, and no byte is written outside the buffer and no
subtraction underflows. -/
theorem accesses_right (hparse : EndsAtNul parse) (buffer : ℕ → UInt8) (turns : List Turn) :
    (∀ access ∈ (loop (runPreviewTcpWorker parse) turns (start buffer)).log, access.Right) ∧
      (∀ access ∈ (loop (imgWorkerThread parse) turns (start buffer)).log, access.Right) ∧
      ∀ access ∈ (loop (prvHstWorkerThread parse) turns (start buffer)).log, access.Right := by
  have hstart := roomy_start buffer
  have hjsonimage : ∀ turn lb, Roomy lb →
      Yields Access.Right (Stays Roomy) (readTurn jsonimageLines parse turn lb) :=
    fun turn _ h => yields_readTurn (jsonimageLines_returns hparse) turn h
  refine ⟨?_, ?_, ?_⟩
  · exact (yields_loop hjsonimage turns hstart).log
  · exact (yields_loop hjsonimage turns hstart).log
  · exact (yields_loop (fun turn _ h => yields_prvHstWorkerThread parse turn h) turns hstart).log

/-! ### A header with half of its payload -/

/-- A parser that knows one text, and reads up to a NUL. -/
def parseOnly (header : List UInt8) (j : Json) (text : List UInt8) : Parsed :=
  if text.takeWhile (· != 0) = header then .value j else .parse_error

theorem endsAtNul_parseOnly (header : List UInt8) (j : Json) : EndsAtNul (parseOnly header j) := by
  intro text rest
  have htake : (text ++ 0 :: rest).takeWhile (· != 0) = text.takeWhile (· != 0) := by
    induction text with
    | nil => rfl
    | cons c text ih => rw [List.cons_append, List.takeWhile_cons, List.takeWhile_cons, ih]
  unfold parseOnly
  rw [htake]

def pixelRecv : Recv where
  result := fun max_size => some ((pixelHeader '1' ++ ['\n'.toUInt8, 1]).take max_size)
  closed := false
  length_le := by
    intro max_size bytes h
    rw [← Option.some.inj h]
    exact List.length_take_le _ _
  closed_of_nil := by
    intro max_size h
    have hlength := congrArg List.length (Option.some.inj h)
    have hsome : 0 < (pixelHeader '1' ++ ['\n'.toUInt8, 1]).length := by decide +kernel
    rw [List.length_take, List.length_nil] at hlength
    exact Or.inl (by omega)

def pixelTurn : Turn where
  running := true
  stillRunning := true
  connected := true
  accumulationEnable := true
  hasClient := true
  recv := pixelRecv
  lineAccumulationEnable := true
  process := fun _ _ => .payload 2 true true

/-- The turn asks for the second byte of the payload. -/
theorem accesses_right_pixel :
    let parse := parseOnly (pixelHeader '1') (pixelJson 1)
    let buffer : ℕ → UInt8 := fun _ => 0
    ((∀ access ∈ (loop (runPreviewTcpWorker parse) [pixelTurn] (start buffer)).log, access.Right) ∧
      (∀ access ∈ (loop (imgWorkerThread parse) [pixelTurn] (start buffer)).log, access.Right) ∧
      ∀ access ∈ (loop (prvHstWorkerThread parse) [pixelTurn] (start buffer)).log, access.Right) ∧
    (loop (imgWorkerThread parse) [pixelTurn] (start buffer)).log.length = 10 :=
  ⟨accesses_right (endsAtNul_parseOnly _ _) (fun _ => 0) [pixelTurn], by decide +kernel⟩

end ADTimePix3.Stream.ReceiveLoop
