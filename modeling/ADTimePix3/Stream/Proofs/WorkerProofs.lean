import ADTimePix3.Stream.Message
import ADTimePix3.Stream.Worker
import ADTimePix3.Stream.Proofs.LineBufferProofs
import ADTimePix3.Stream.Proofs.NetworkClientProofs

/-!
# What the read loop does with a stream of messages

A kind of line `Handles` a message when its line function, given the header at the start of the buffer with
some of the payload behind it, takes the rest of the payload from the client. The read loop then turns an
aligned stream of such messages into the same sequence of channel states (`turns_stream`), however the
stream is cut otherwise.
-/

namespace ADTimePix3.Stream

open Memory Traced Chunks NetworkClient

variable {σ : Type} {kind : LineKind σ} {w : Worker σ}

/-- A text that parses is a header when it has one of the members. -/
theorem LineKind.isHeader_of_parse {text : List UInt8} {j : Json} (h : kind.parse text = some j) :
    kind.isHeader text = kind.headerKeys.any j.contains := by
  unfold LineKind.isHeader
  rw [h]

/-! ## Turns -/

theorem turns_succ (turn : Worker σ → Traced (Worker σ)) (n : ℕ) (w : Worker σ) :
    turns turn (n + 1) w = turns turn n (turn w).val := rfl

theorem turns_add (turn : Worker σ → Traced (Worker σ)) (n m : ℕ) (w : Worker σ) :
    turns turn (n + m) w = turns turn m (turns turn n w) := by
  rw [turns, Nat.add_comm, Function.iterate_add_apply]
  rfl

/-- What every turn preserves holds after any number of them. -/
theorem turns_invariant {turn : Worker σ → Traced (Worker σ)} (inv : Worker σ → Prop)
    (hturn : ∀ w, inv w → inv (turn w).val) (hw : inv w) (n : ℕ) : inv (turns turn n w) := by
  induction n generalizing w with
  | zero => exact hw
  | succ n ih =>
    rw [turns_succ]
    exact ih (hturn w hw)

theorem readTurn_of_running (h : w.running = true) (hmore : (readMore w).running = true) :
    readTurn kind w = (readMore w).scanBuffer kind := by
  rw [readTurn, h]
  show (if (readMore w).running = true then _ else _) = _
  rw [if_pos hmore]

/-- The worker with some more bytes, and the NUL behind them. -/
theorem readMore_of_receive {b : UInt8} {bytes : List UInt8} {client : NetworkClient}
    (hrun : w.running = true)
    (h : w.client.receive (MAX_BUFFER_SIZE - w.totalRead - 1) = (some (b :: bytes), client)) :
    readMore w =
      { w with
        buffer := set (store w.buffer w.totalRead (b :: bytes)) (w.totalRead + (b :: bytes).length) 0
        totalRead := w.totalRead + (b :: bytes).length
        client := client } := by
  unfold readMore Worker.receive
  rw [h]
  show Worker.terminate _ = _
  unfold Worker.terminate
  rw [if_pos hrun]

theorem readTurn_closed (hrun : w.running = true) (h : Ready w.client []) :
    (readTurn kind w).val.running = false ∧ (readTurn kind w).val.channel = w.channel := by
  obtain ⟨client, hrecv⟩ := h.receive_nil (MAX_BUFFER_SIZE - w.totalRead - 1)
  have hmore : readMore w = { w.exit with client := client } := by
    unfold readMore Worker.receive
    rw [hrecv]
    rfl
  unfold readTurn
  rw [hrun, hmore]
  exact ⟨rfl, rfl⟩

theorem turns_of_stopped (hstop : w.running = false) (n : ℕ) : turns (readTurn kind) n w = w := by
  induction n with
  | zero => rfl
  | succ n ih =>
    have hturn : (readTurn kind w).val = w := by
      unfold readTurn
      rw [hstop]
      rfl
    rw [turns_succ, hturn, ih]

@[simp] theorem readMore_channel (w : Worker σ) : (readMore w).channel = w.channel := by
  unfold readMore Worker.receive Worker.terminate
  rcases w.client.receive (MAX_BUFFER_SIZE - w.totalRead - 1) with ⟨_ | _ | ⟨b, bytes⟩, client⟩
  · rfl
  · rfl
  · cases w.running <;> rfl

/-- What holds between the channel before and after the line function holds between the channel before and
after the scan. -/
theorem scanLine_channel {r : σ → σ → Prop} (hrefl : ∀ ch, r ch ch)
    (hkind : ∀ line client ch, r ch (kind.processLine line client ch).val.channel) (w : Worker σ) :
    r w.channel (w.scanLine kind).val.channel := by
  unfold Worker.scanLine
  rw [val_bind]
  cases (memchr w.buffer '\n' w.totalRead).val with
  | none => exact hrefl w.channel
  | some nl =>
    show r w.channel (findJsonStart kind.countChars w.buffer nl >>= _ : Traced (Worker σ)).val.channel
    rw [val_bind]
    cases (findJsonStart kind.countChars w.buffer nl).val with
    | none => exact hrefl w.channel
    | some start =>
      show r w.channel (readRange w.buffer start (nl - start) >>= _ : Traced (Worker σ)).val.channel
      rw [val_bind, val_readRange]
      by_cases hheader : kind.isHeader (slice w.buffer start (nl - start)) = true
      · rw [if_pos hheader]
        have hprocess := hkind ⟨set w.buffer nl 0, start, nl, w.totalRead⟩ w.client w.channel
        show r w.channel (kind.processLine ⟨set w.buffer nl 0, start, nl, w.totalRead⟩ w.client w.channel
          >>= _ : Traced (Worker σ)).val.channel
        rw [val_bind]
        cases (kind.processLine ⟨set w.buffer nl 0, start, nl, w.totalRead⟩ w.client w.channel).val.ok
        · exact hprocess
        · exact hprocess
      · rw [if_neg hheader]
        exact hrefl w.channel

/-- And between the channel before and after a turn. -/
theorem readTurn_channel {r : σ → σ → Prop} (hrefl : ∀ ch, r ch ch)
    (hkind : ∀ line client ch, r ch (kind.processLine line client ch).val.channel) (w : Worker σ) :
    r w.channel (readTurn kind w).val.channel := by
  unfold readTurn
  by_cases hrun : w.running = true
  · rw [hrun]
    show r w.channel (if (readMore w).running = true then _ else _ : Traced (Worker σ)).val.channel
    by_cases hmore : (readMore w).running = true
    · rw [if_pos hmore, ← readMore_channel w]
      unfold Worker.scanBuffer
      rw [val_map]
      have hscan := scanLine_channel hrefl hkind (readMore w)
      unfold Worker.resetIfFull
      by_cases hfull : (((readMore w).scanLine kind).val.running &&
          ((readMore w).scanLine kind).val.totalRead ≥ MAX_BUFFER_SIZE - 1) = true
      · rw [if_pos hfull]
        exact hscan
      · rw [if_neg hfull]
        exact hscan
    · rw [if_neg hmore, val_pure, readMore_channel]
      exact hrefl w.channel
  · rw [Bool.eq_false_iff.mpr hrun]
    exact hrefl w.channel

/-- While the worker reads, its channel leads to the one it has when it leaves the loop. -/
theorem turns_channel {r : σ → σ → Prop} (hrefl : ∀ ch, r ch ch)
    (htrans : ∀ ch ch' ch'', r ch ch' → r ch' ch'' → r ch ch'')
    (hkind : ∀ line client ch, r ch (kind.processLine line client ch).val.channel) {last : ℕ}
    (hstop : (turns (readTurn kind) last w).running = false) (n : ℕ) :
    r (turns (readTurn kind) n w).channel (turns (readTurn kind) last w).channel := by
  have hmore : ∀ w' : Worker σ, ∀ m, r w'.channel (turns (readTurn kind) m w').channel := by
    intro w' m
    refine turns_invariant (fun w'' => r w'.channel w''.channel) ?_ (hrefl w'.channel) m
    intro w'' hw''
    exact htrans _ _ _ hw'' (readTurn_channel hrefl hkind w'')
  rcases Nat.le_total n last with hle | hle
  · obtain ⟨m, rfl⟩ := Nat.exists_eq_add_of_le hle
    rw [turns_add]
    exact hmore _ m
  · obtain ⟨m, rfl⟩ := Nat.exists_eq_add_of_le hle
    rw [turns_add, turns_of_stopped hstop]
    exact hrefl _

/-! ## Scanning the buffer -/

theorem resetIfFull_of_lt (h : w.totalRead < MAX_BUFFER_SIZE - 1) : w.resetIfFull = w := by
  unfold Worker.resetIfFull
  rw [if_neg]
  rw [Bool.and_eq_true, decide_eq_true_eq]
  omega

/-- Without a newline nothing happens, as long as there is room. -/
theorem scanBuffer_partial (hnl : ∀ i < w.totalRead, w.buffer i ≠ '\n'.toUInt8)
    (hroom : w.totalRead < MAX_BUFFER_SIZE - 1) : (w.scanBuffer kind).val = w := by
  have hscan : (w.scanLine kind).val = w := by
    unfold Worker.scanLine
    rw [val_bind, memchr_eq_none hnl]
    rfl
  unfold Worker.scanBuffer
  rw [val_map, hscan, resetIfFull_of_lt hroom]

/-- The kind of line takes the message from one channel state to the next: its header is one, and the line
function takes from the client what is not in the buffer. -/
structure LineKind.Handles (kind : LineKind σ) (m : Message) (ch ch' : σ) : Prop where
  isHeader : kind.isHeader m.header = true
  process : ∀ buffer n client tail, n ≤ m.payload.length →
    Holds buffer 0 m.header → buffer m.header.length = 0 →
    Holds buffer m.line.length (m.payload.take n) →
    m.line.length + n < MAX_BUFFER_SIZE →
    Ready client (m.payload.drop n ++ tail) →
    ∃ client', (kind.processLine ⟨buffer, 0, m.header.length, m.line.length + n⟩ client ch).val =
        ⟨true, client', ch'⟩ ∧
      Ready client' tail ∧ KeepsCuts client (m.payload.length - n) client'

theorem Message.length_line (m : Message) : m.line.length = m.header.length + 1 := by
  rw [Message.line, List.length_append, List.length_singleton]

theorem Message.Framed.two_le {m : Message} (h : m.Framed) : 2 ≤ m.header.length := by
  obtain ⟨rest, hrest⟩ := h.starts
  rw [← hrest, List.length_append]
  show 2 ≤ 2 + rest.length
  omega

/-- The payload that lies behind the header at the start of the buffer is what is copied. -/
theorem val_copyBuffered_message {m : Message} {buffer : ℕ → UInt8} {n : ℕ} (hn : n ≤ m.payload.length)
    (hpayload : Holds buffer m.line.length (m.payload.take n)) :
    (copyBuffered ⟨buffer, 0, m.header.length, m.line.length + n⟩ m.payload.length).val =
      m.payload.take n := by
  have hline := m.length_line
  have htake : (m.payload.take n).length = n := by rw [List.length_take]; omega
  have hmin : min (m.line.length + n - (m.header.length + 1)) m.payload.length = n := by omega
  have hslice := hpayload.slice_eq
  rw [htake, hline] at hslice
  rw [val_copyBuffered, hmin, hslice]

/-- The copied part of a payload and the part that is taken from the client. -/
theorem payload_taken {m : Message} {buffer : ℕ → UInt8} {client : NetworkClient} {n : ℕ} {tail : List UInt8}
    {take : NetworkClient → ℕ → Option (List UInt8) × NetworkClient} (htakes : TakesExactly take)
    (hn : n ≤ m.payload.length) (hpayload : Holds buffer m.line.length (m.payload.take n))
    (hready : Ready client (m.payload.drop n ++ tail)) :
    ∃ client',
      (copyBuffered ⟨buffer, 0, m.header.length, m.line.length + n⟩ m.payload.length).val =
        m.payload.take n ∧
      take client (m.payload.length - (m.payload.take n).length) = (some (m.payload.drop n), client') ∧
      Ready client' tail ∧ KeepsCuts client (m.payload.length - n) client' := by
  have hlen : (m.payload.take n).length = n := by rw [List.length_take]; omega
  have hdrop : (m.payload.drop n).length = m.payload.length - n := List.length_drop
  obtain ⟨client', hrecv, hready', hcuts⟩ := htakes hready
  rw [hdrop] at hrecv hcuts
  refine ⟨client', val_copyBuffered_message hn hpayload, ?_, hready', hcuts⟩
  rw [hlen, hrecv]

/-- What lies at the start of the buffer when a framed header does. -/
theorem Message.Framed.brace_quote {m : Message} (h : m.Framed) {buffer : ℕ → UInt8}
    (hbuf : Holds buffer 0 m.header) : buffer 0 = '{'.toUInt8 ∧ buffer 1 = '"'.toUInt8 := by
  obtain ⟨rest, hrest⟩ := h.starts
  have htwo := h.two_le
  rw [hbuf.at (show 0 < m.header.length by omega), hbuf.at (show 1 < m.header.length by omega)]
  simp only [← hrest]
  exact ⟨rfl, rfl⟩

/-- A framed header with a NUL behind it is a C string. -/
theorem Message.Framed.readCString_eq {m : Message} (h : m.Framed) {buffer : ℕ → UInt8}
    (hbuf : Holds buffer 0 m.header) (hnul : buffer m.header.length = 0)
    (hlen : m.header.length < MAX_BUFFER_SIZE) : (readCString buffer 0).val = m.header := by
  rw [val_readCString (Nat.zero_le _) hlen hnul, Nat.sub_zero, hbuf.slice_eq]
  intro r _ hr
  rw [hbuf.at hr]
  exact fun heq => h.nul_notMem (heq ▸ List.getElem_mem hr)

theorem Message.Framed.memchr_eq {m : Message} (h : m.Framed) {buffer : ℕ → UInt8} {n : ℕ}
    (hbuf : Holds buffer 0 m.line) (hn : m.line.length ≤ n) :
    (memchr buffer '\n' n).val = some m.header.length := by
  have hline := m.length_line
  rw [memchr_eq_some]
  refine ⟨by omega, ?_, fun r hr => ?_⟩
  · have hnl : Holds buffer (0 + m.header.length) ['\n'.toUInt8] := hbuf.append_right
    have hat := hnl 0 Nat.one_pos
    rwa [Nat.zero_add, Nat.add_zero] at hat
  · have hheader : Holds buffer 0 m.header := hbuf.append_left
    rw [hheader.at hr]
    exact fun heq => h.newline_notMem (heq ▸ List.getElem_mem hr)

theorem scanLine_header {newline_pos json_start : ℕ}
    (hnl : (memchr w.buffer '\n' w.totalRead).val = some newline_pos)
    (hstart : (findJsonStart kind.countChars w.buffer newline_pos).val = some json_start)
    (hheader : kind.isHeader (slice w.buffer json_start (newline_pos - json_start)) = true)
    {result : LineResult σ}
    (hresult : (kind.processLine ⟨set w.buffer newline_pos 0, json_start, newline_pos, w.totalRead⟩
      w.client w.channel).val = result) :
    (w.scanLine kind).val =
      let w' : Worker σ :=
        { w with
          buffer := set w.buffer newline_pos 0
          client := result.client
          channel := result.channel }
      if result.ok then (w'.dropLine newline_pos).val else w'.exit := by
  unfold Worker.scanLine
  rw [val_bind, hnl]
  show (findJsonStart kind.countChars w.buffer newline_pos >>= _).val = _
  rw [val_bind, hstart]
  show (readRange w.buffer json_start (newline_pos - json_start) >>= _).val = _
  rw [val_bind, val_readRange, if_pos hheader]
  show (kind.processLine ⟨set w.buffer newline_pos 0, json_start, newline_pos, w.totalRead⟩ w.client
    w.channel >>= _).val = _
  rw [val_bind, hresult]
  cases result.ok <;> rfl

/-- A complete header with some of its payload: the message is processed, and the payload in the buffer
stays there. -/
theorem scanBuffer_line {m : Message} {ch' : σ} {n : ℕ} {tail : List UInt8} (hm : m.Framed)
    (hkind : kind.Handles m w.channel ch') (hrun : w.running = true) (hn : n ≤ m.payload.length)
    (hbuf : Holds w.buffer 0 (m.line ++ m.payload.take n)) (htot : w.totalRead = m.line.length + n)
    (hroom : w.totalRead < MAX_BUFFER_SIZE) (hready : Ready w.client (m.payload.drop n ++ tail)) :
    ∃ w', (w.scanBuffer kind).val = w' ∧ w'.running = true ∧ w'.channel = ch' ∧ w'.totalRead = n ∧
      Holds w'.buffer 0 (m.payload.take n) ∧ Ready w'.client tail ∧
      KeepsCuts w.client (m.payload.length - n) w'.client := by
  have hlen : (m.payload.take n).length = n := by rw [List.length_take]; omega
  have hline := m.length_line
  have htwo := hm.two_le
  have hheader : Holds w.buffer 0 m.header := hbuf.append_left.append_left
  have hpayload : Holds w.buffer m.line.length (m.payload.take n) := by
    have hright := hbuf.append_right
    rwa [Nat.zero_add] at hright
  have hnl := hm.memchr_eq hbuf.append_left (show m.line.length ≤ w.totalRead by omega)
  obtain ⟨hbrace, hquote⟩ := hm.brace_quote hheader
  have hstart := findJsonStart_zero kind.countChars hbrace hquote htwo
  have htext : slice w.buffer 0 (m.header.length - 0) = m.header := hheader.slice_eq
  -- the line function sees the header with a NUL in place of the newline
  have hpayload' : Holds (set w.buffer m.header.length 0) m.line.length (m.payload.take n) :=
    hpayload.set_of_outside (Or.inl (by omega))
  obtain ⟨client', hprocess, hready', hcuts⟩ := hkind.process (set w.buffer m.header.length 0) n w.client
    tail hn (hheader.set_of_outside (Or.inr (by omega))) (if_pos rfl) hpayload' (by omega) hready
  rw [← htot] at hprocess
  have hscan := scanLine_header hnl hstart (by rw [htext]; exact hkind.isHeader) hprocess
  have hmoved : Holds (moveDown (set w.buffer m.header.length 0) (m.header.length + 1) n) 0
      (m.payload.take n) := by
    have hdown := hpayload'.moveDown
    rwa [hlen, hline] at hdown
  refine ⟨{ w with
      buffer := moveDown (set w.buffer m.header.length 0) (m.header.length + 1) n
      totalRead := n
      client := client'
      channel := ch' }, ?_, hrun, rfl, rfl, hmoved, hready', hcuts⟩
  have hrem : w.totalRead - (m.header.length + 1) = n := by omega
  unfold Worker.scanBuffer
  rw [val_map, hscan, ← hrem]
  exact resetIfFull_of_lt (show w.totalRead - (m.header.length + 1) < MAX_BUFFER_SIZE - 1 by omega)

/-! ## One message -/

theorem Message.length_bytes (m : Message) : m.bytes.length = m.line.length + m.payload.length := by
  rw [Message.bytes, List.length_append]

theorem Message.Framed.no_newline {m : Message} (h : m.Framed) {buffer : ℕ → UInt8} {k : ℕ}
    (hbuf : Holds buffer 0 (m.bytes.take k)) (hk : k < m.line.length) :
    ∀ i < k, buffer i ≠ '\n'.toUInt8 := by
  intro i hi
  have hline := m.length_line
  have htake : m.bytes.take k = m.header.take k := by
    rw [Message.bytes, Message.line, List.append_assoc, List.take_append_of_le_length (by omega)]
  rw [htake] at hbuf
  have hlt : i < (m.header.take k).length := by rw [List.length_take]; omega
  rw [hbuf.at hlt]
  exact fun heq => h.newline_notMem (List.mem_of_mem_take (heq ▸ List.getElem_mem hlt))

/-- The worker after a receive that stays within a message. -/
theorem readMore_within {m : Message} {tail : List UInt8} (hrun : w.running = true)
    (hroom : w.totalRead + 1 < MAX_BUFFER_SIZE) (hlt : w.totalRead < m.bytes.length)
    (hbuf : Holds w.buffer 0 (m.bytes.take w.totalRead))
    (hready : Ready w.client (m.bytes.drop w.totalRead ++ tail))
    (hcut : tail = [] ∨ ∃ k, 0 < k ∧ w.totalRead + k ≤ m.bytes.length ∧ Ends k w.client.pending) :
    ∃ n, 0 < n ∧ (readMore w).totalRead = w.totalRead + n ∧ w.totalRead + n ≤ m.bytes.length ∧
      w.totalRead + n < MAX_BUFFER_SIZE ∧ (readMore w).running = true ∧
      (readMore w).channel = w.channel ∧
      Holds (readMore w).buffer 0 (m.bytes.take (w.totalRead + n)) ∧
      Ready (readMore w).client (m.bytes.drop (w.totalRead + n) ++ tail) ∧
      KeepsCuts w.client n (readMore w).client ∧
      ∀ k, 0 < k → Ends k w.client.pending → n ≤ k := by
  have hxs : m.bytes.drop w.totalRead ++ tail ≠ [] := by
    apply List.ne_nil_of_length_pos
    rw [List.length_append, List.length_drop]
    omega
  obtain ⟨bytes, zs, client, hrecv, hne, hle, hsplit, hready', hcuts, hcross⟩ :=
    hready.receive hxs (MAX_BUFFER_SIZE - w.totalRead - 1) (by omega)
  obtain ⟨b, bytes, rfl⟩ := List.exists_cons_of_ne_nil hne
  -- the receive stays within the message: there is nothing else, or a cut stops it
  have hlen : w.totalRead + (b :: bytes).length ≤ m.bytes.length := by
    rcases hcut with rfl | ⟨k, hk, hkle, hends⟩
    · have hlengths := congrArg List.length hsplit
      rw [List.append_nil, List.length_append, List.length_drop] at hlengths
      omega
    · have hstop := hcross k hk hends
      omega
  obtain ⟨htake, rfl⟩ := take_append_of_drop hsplit hlen
  have hlentake : (m.bytes.take w.totalRead).length = w.totalRead := by rw [List.length_take]; omega
  have hstored : Holds (store w.buffer w.totalRead (b :: bytes)) 0
      (m.bytes.take (w.totalRead + (b :: bytes).length)) := by
    have hstore := hbuf.store (b :: bytes)
    rwa [hlentake, htake] at hstore
  rw [readMore_of_receive hrun hrecv]
  refine ⟨(b :: bytes).length, List.length_pos_iff.mpr hne, rfl, hlen, by omega, hrun, rfl, ?_, hready',
    hcuts, hcross⟩
  refine hstored.set_of_outside (Or.inr ?_)
  rw [List.length_take]
  omega

/-- From the beginning of a header in the buffer to the message processed. The induction is on the part of
the header that is still to come: a receive either leaves some of it, or completes the header. -/
theorem turns_message {m : Message} {ch' : σ} {tail : List UInt8} (hm : m.Framed)
    (hlen : m.line.length < MAX_BUFFER_SIZE) (hrun : w.running = true)
    (hkind : kind.Handles m w.channel ch') (hlt : w.totalRead < m.line.length)
    (hbuf : Holds w.buffer 0 (m.bytes.take w.totalRead))
    (hready : Ready w.client (m.bytes.drop w.totalRead ++ tail))
    (hcut : tail = [] ∨ Ends (m.line.length - w.totalRead) w.client.pending) :
    ∃ n w', turns (readTurn kind) n w = w' ∧ w'.running = true ∧ w'.channel = ch' ∧
      (tail = [] ∨ w'.totalRead = 0) ∧ w'.totalRead + 1 < MAX_BUFFER_SIZE ∧ Ready w'.client tail ∧
      KeepsCuts w.client (m.bytes.length - w.totalRead) w'.client := by
  have hbytes := m.length_bytes
  generalize hk : m.line.length - w.totalRead = k
  induction k using Nat.strong_induction_on generalizing w with
  | _ k ih =>
    have hcut' : tail = [] ∨ ∃ k, 0 < k ∧ w.totalRead + k ≤ m.bytes.length ∧ Ends k w.client.pending :=
      hcut.imp_right fun hends => ⟨m.line.length - w.totalRead, by omega, by omega, hends⟩
    obtain ⟨n, hn, htot, hnle, hroom, hrun', hch, hbuf', hready', hcuts, hcross⟩ :=
      readMore_within hrun (by omega) (by omega) hbuf hready hcut'
    by_cases hpart : w.totalRead + n < m.line.length
    · -- some of the header is still to come
      have hturn : (readTurn kind w).val = readMore w := by
        rw [readTurn_of_running hrun hrun', scanBuffer_partial]
        · rw [htot]
          exact hm.no_newline hbuf' hpart
        · omega
      have hcut'' : tail = [] ∨ Ends (m.line.length - (readMore w).totalRead) (readMore w).client.pending := by
        refine hcut.imp_right fun hends => ?_
        rw [htot, ← Nat.sub_sub]
        exact hcuts _ (by omega) hends
      rw [← hch] at hkind
      rw [← htot] at hbuf' hready' hpart
      obtain ⟨turnsLeft, w', hturns, hrun'', hch', hempty, hroom', hready'', hcuts'⟩ :=
        ih (m.line.length - (readMore w).totalRead) (by omega) hrun' hkind hpart hbuf' hready' hcut'' rfl
      refine ⟨turnsLeft + 1, w', ?_, hrun'', hch', hempty, hroom', hready'', ?_⟩
      · rw [turns_succ, hturn, hturns]
      · have htrans := hcuts.trans hcuts'
        rwa [htot, show n + (m.bytes.length - (w.totalRead + n)) = m.bytes.length - w.totalRead by omega]
          at htrans
    · -- the header is complete, with `extra` bytes of payload behind it
      obtain ⟨extra, hextra⟩ : ∃ extra, w.totalRead + n = m.line.length + extra :=
        ⟨w.totalRead + n - m.line.length, by omega⟩
      have hpayload : m.bytes.take (w.totalRead + n) = m.line ++ m.payload.take extra := by
        rw [hextra, Message.bytes, List.take_length_add_append]
      have hrest : m.bytes.drop (w.totalRead + n) = m.payload.drop extra := by
        rw [hextra, Message.bytes, List.drop_length_add_append]
      rw [← hch] at hkind
      rw [hpayload] at hbuf'
      rw [hrest] at hready'
      obtain ⟨w', hscan, hrun'', hch', htot', hbuf'', hready'', hcuts'⟩ :=
        scanBuffer_line hm hkind hrun' (by omega) hbuf' (by omega) (by omega) hready'
      refine ⟨1, w', ?_, hrun'', hch', ?_, by omega, hready'', ?_⟩
      · rw [turns_succ, readTurn_of_running hrun hrun', hscan]
        rfl
      · refine hcut.imp_right fun hends => ?_
        have hstop := hcross _ (by omega) hends
        omega
      · have htrans := hcuts.trans hcuts'
        rwa [show n + (m.payload.length - extra) = m.bytes.length - w.totalRead by omega] at htrans

/-! ## Streams -/

theorem streamOf_cons (m : Message) (messages : List Message) :
    streamOf (m :: messages) = m.bytes ++ streamOf messages := rfl

/-- A client that has delivered the first of the messages is aligned with the others. -/
theorem Aligned.tail {m : Message} {messages : List Message} {client client' : NetworkClient}
    (h : Aligned (m :: messages) client.pending) (hcuts : KeepsCuts client m.bytes.length client') :
    Aligned messages client'.pending := by
  intro before m' after heq hafter
  have hends := h (m :: before) m' after (by rw [heq, List.cons_append]) hafter
  rw [streamOf_cons, List.length_append, Nat.add_assoc] at hends
  have hends' := hcuts _ (Nat.le_add_right _ _) hends
  rwa [Nat.add_sub_cancel_left] at hends'

theorem aligned_pair {m m' : Message} {pieces : List (List UInt8)} (h : Ends m.line.length pieces) :
    Aligned [m, m'] pieces := by
  intro before m'' after heq hafter
  rcases before with _ | ⟨_, _ | ⟨_, before⟩⟩
  · obtain ⟨rfl, -⟩ := List.cons.inj heq
    rwa [show (streamOf []).length = 0 from rfl, Nat.zero_add]
  · obtain ⟨-, hrest⟩ := List.cons.inj heq
    exact absurd (List.cons.inj hrest).2.symm hafter
  · obtain ⟨-, hrest⟩ := List.cons.inj heq
    obtain ⟨-, hnil⟩ := List.cons.inj hrest
    exact absurd hnil.symm (List.append_ne_nil_of_right_ne_nil _ (List.cons_ne_nil _ _))

/-- An aligned stream of messages is processed message by message, and then the loop is left. -/
theorem turns_stream {F : Type} {message : F → Message} {next : σ → F → σ} (inv : σ → Prop)
    {frames : List F} (hframed : ∀ f ∈ frames, (message f).Framed)
    (hlen : ∀ f ∈ frames, (message f).line.length < MAX_BUFFER_SIZE)
    (hkind : ∀ f ∈ frames, ∀ ch, inv ch → kind.Handles (message f) ch (next ch f) ∧ inv (next ch f))
    (hrun : w.running = true) (hinv : inv w.channel) (hempty : frames = [] ∨ w.totalRead = 0)
    (hready : Ready w.client (streamOf (frames.map message)))
    (haligned : Aligned (frames.map message) w.client.pending) :
    ∃ n, (turns (readTurn kind) n w).running = false ∧
      (turns (readTurn kind) n w).channel = frames.foldl next w.channel := by
  induction frames generalizing w with
  | nil => exact ⟨1, readTurn_closed hrun hready⟩
  | cons f frames ih =>
    have hmem : f ∈ f :: frames := List.mem_cons_self
    have htot : w.totalRead = 0 := hempty.resolve_left (List.cons_ne_nil f frames)
    have hline := (message f).length_line
    obtain ⟨hhandles, hinv'⟩ := hkind f hmem w.channel hinv
    have hcut : streamOf (frames.map message) = [] ∨
        Ends ((message f).line.length - w.totalRead) w.client.pending := by
      cases frames with
      | nil => exact Or.inl rfl
      | cons f' frames =>
        have hends := haligned [] (message f) _ rfl (List.cons_ne_nil _ _)
        rw [show (streamOf []).length = 0 from rfl, Nat.zero_add] at hends
        rw [htot, Nat.sub_zero]
        exact Or.inr hends
    rw [List.map_cons, streamOf_cons] at hready
    obtain ⟨n, w', hturns, hrun', hch, hempty', -, hready', hcuts⟩ :=
      turns_message (hframed f hmem) (hlen f hmem) hrun hhandles (by omega)
        (by rw [htot, List.take_zero]; exact holds_nil)
        (by rw [htot, List.drop_zero]; exact hready) hcut
    rw [htot, Nat.sub_zero] at hcuts
    have hempty'' : frames = [] ∨ w'.totalRead = 0 := by
      rcases hempty' with hnil | hzero
      · cases frames with
        | nil => exact Or.inl rfl
        | cons f' frames =>
          have hlengths := congrArg List.length hnil
          have hline' := (message f').length_line
          rw [List.map_cons, streamOf_cons, List.length_append, Message.length_bytes] at hlengths
          rw [List.length_nil] at hlengths
          omega
      · exact Or.inr hzero
    obtain ⟨n', hrun'', hch'⟩ :=
      ih (fun f' hf' => hframed f' (List.mem_cons_of_mem f hf'))
        (fun f' hf' => hlen f' (List.mem_cons_of_mem f hf'))
        (fun f' hf' => hkind f' (List.mem_cons_of_mem f hf')) hrun' (hch ▸ hinv') hempty'' hready'
        (haligned.tail hcuts)
    refine ⟨n + n', ?_, ?_⟩
    · rw [turns_add, hturns, hrun'']
    · rw [turns_add, hturns, hch', hch, List.foldl_cons]

end ADTimePix3.Stream
