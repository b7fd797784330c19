import ADTimePix3.Stream.Proofs.WorkerProofs

/-!
# How full the line buffer gets

While a worker reads there is room in its line buffer for at least one more byte and the NUL (`Fits`). So the
guards of the histogram worker on the size of the buffer never apply, and with accumulation enabled its loop
is the common read loop (`prvHst_turns_eq`).
-/

namespace ADTimePix3.Stream

open Memory Traced

variable {σ : Type} {kind : LineKind σ} {w : Worker σ}

/-- A worker that reads has room in its buffer. -/
def Fits (w : Worker σ) : Prop := w.running = true → w.totalRead + 1 < MAX_BUFFER_SIZE

theorem fits_start (buffer : ℕ → UInt8) (client : NetworkClient) (channel : σ) :
    Fits (.start buffer client channel) := fun _ => show 0 + 1 < 32768 by decide

/-- A receive of at most the free space leaves room for the NUL. -/
theorem receive_totalRead (w : Worker σ) (max_size : ℕ) :
    (w.receive max_size).totalRead ≤ w.totalRead + max_size := by
  unfold Worker.receive
  rcases hrecv : w.client.receive max_size with ⟨_ | _ | ⟨b, bytes⟩, client⟩
  · exact Nat.le_add_right _ _
  · exact Nat.le_add_right _ _
  · exact Nat.add_le_add_left (NetworkClient.length_receive_le hrecv) _

theorem terminate_totalRead (w : Worker σ) : w.terminate.totalRead = w.totalRead := by
  unfold Worker.terminate
  cases w.running <;> rfl

theorem readMore_totalRead (h : w.totalRead + 1 < MAX_BUFFER_SIZE) :
    (readMore w).totalRead < MAX_BUFFER_SIZE := by
  unfold readMore
  rw [terminate_totalRead]
  have hle := receive_totalRead w (MAX_BUFFER_SIZE - w.totalRead - 1)
  omega

/-- The scan ends with the reset of a full buffer. -/
theorem scanBuffer_fits (w : Worker σ) : Fits (w.scanBuffer kind).val := by
  unfold Worker.scanBuffer
  rw [val_map]
  generalize (w.scanLine kind).val = w'
  unfold Worker.resetIfFull
  by_cases hfull : (w'.running && w'.totalRead ≥ MAX_BUFFER_SIZE - 1) = true
  · rw [if_pos hfull]
    exact fun _ => show 0 + 1 < 32768 by decide
  · rw [if_neg hfull]
    intro hrun
    rw [hrun, Bool.true_and, decide_eq_true_eq] at hfull
    omega

/-- Step lemma: a turn leaves room. -/
theorem readTurn_fits (h : Fits w) : Fits (readTurn kind w).val := by
  unfold readTurn
  by_cases hrun : w.running = true
  · rw [hrun]
    show Fits (if (readMore w).running = true then (readMore w).scanBuffer kind else pure (readMore w) :
      Traced (Worker σ)).val
    by_cases hmore : (readMore w).running = true
    · rw [if_pos hmore]
      exact scanBuffer_fits (readMore w)
    · rw [if_neg hmore]
      exact fun hrunning => absurd hrunning hmore
  · rw [Bool.eq_false_iff.mpr hrun]
    exact h

/-! ## The histogram worker -/

/-- With room in the buffer the guards do not apply. -/
theorem prvHstReadMore_eq (h : w.totalRead + 1 < MAX_BUFFER_SIZE) : prvHstReadMore w = readMore w := by
  have hle := receive_totalRead w (MAX_BUFFER_SIZE - w.totalRead - 1)
  have hnotOver : ¬ w.totalRead ≥ MAX_BUFFER_SIZE := by omega
  have hspace : ¬ MAX_BUFFER_SIZE - w.totalRead - 1 = 0 := by omega
  have hnotOver' : ¬ (w.receive (MAX_BUFFER_SIZE - w.totalRead - 1)).totalRead ≥ MAX_BUFFER_SIZE := by omega
  simp only [prvHstReadMore, if_neg hnotOver, if_neg hspace, if_neg hnotOver', readMore]

variable {env : Env} {w : Worker Hst.PrvHstChannel}

theorem prvHst_turn_eq (hon : w.channel.accumulationEnable = true) (h : Fits w) :
    prvHstWorkerThread env w = readTurn (jsonhistoLines env) w := by
  unfold prvHstWorkerThread readTurn
  rw [hon]
  by_cases hrun : w.running = true
  · rw [hrun, prvHstReadMore_eq (h hrun)]
    rfl
  · rw [Bool.eq_false_iff.mpr hrun]
    rfl

theorem prvHst_turn_off (hoff : w.channel.accumulationEnable = false) : prvHstWorkerThread env w = pure w := by
  unfold prvHstWorkerThread
  rw [hoff, Bool.not_false, Bool.or_true]
  rfl

/-- The line function does not touch the switch, and adds at most one histogram. -/
theorem processPrvHstDataLine_channel (line : Line) (client : NetworkClient) (ch : Hst.PrvHstChannel) :
    (Hst.processPrvHstDataLine env line client ch).val.channel.accumulationEnable = ch.accumulationEnable ∧
      ch.handed <+: (Hst.processPrvHstDataLine env line client ch).val.channel.handed := by
  unfold Hst.processPrvHstDataLine
  by_cases hon : (!ch.accumulationEnable) = true
  · rw [if_pos hon]
    exact ⟨rfl, List.prefix_rfl⟩
  rw [if_neg hon]
  by_cases hstart : line.newline_pos ≤ line.line_buffer
  · rw [if_pos hstart]
    exact ⟨rfl, List.prefix_rfl⟩
  rw [if_neg hstart, val_bind]
  generalize (skipBinary false line.buffer line.line_buffer line.newline_pos).val = start
  by_cases hend : start ≥ line.newline_pos
  · rw [if_pos hend]
    exact ⟨rfl, List.prefix_rfl⟩
  rw [if_neg hend, val_bind, val_read]
  by_cases hbrace : (line.buffer start != '{'.toUInt8) = true
  · rw [if_pos hbrace]
    exact ⟨rfl, List.prefix_rfl⟩
  rw [if_neg hbrace, val_bind, val_readRange]
  rcases Hst.acceptHistHeader env ch.state (slice line.buffer start (line.newline_pos - start))
    with ⟨ok, state⟩ | ⟨header, state⟩
  · exact ⟨rfl, List.prefix_rfl⟩
  · show (Hst.addHistogram header line client { ch with state := state }).val.channel.accumulationEnable = _ ∧
      _ <+: (Hst.addHistogram header line client { ch with state := state }).val.channel.handed
    unfold Hst.addHistogram
    rw [val_bind]
    rcases Hst.receiveBins client (header.binaryNeeded - (copyBuffered line header.binaryNeeded).val.length)
      with ⟨_ | rest, client'⟩
    · exact ⟨rfl, List.prefix_rfl⟩
    · exact ⟨rfl, List.prefix_append _ _⟩

/-- Step lemma: accumulation stays enabled, and there is room. -/
theorem prvHst_turn_on (env : Env) (hon : w.channel.accumulationEnable = true ∧ Fits w) :
    (prvHstWorkerThread env w).val.channel.accumulationEnable = true ∧ Fits (prvHstWorkerThread env w).val := by
  rw [prvHst_turn_eq hon.1 hon.2]
  have hkept : (readTurn (jsonhistoLines env) w).val.channel.accumulationEnable =
      w.channel.accumulationEnable :=
    readTurn_channel (r := fun ch ch' => ch'.accumulationEnable = ch.accumulationEnable)
      (fun _ => rfl) (fun line client ch => (processPrvHstDataLine_channel line client ch).1) w
  exact ⟨hkept.trans hon.1, readTurn_fits hon.2⟩

/-- With accumulation enabled the worker goes through the common read loop. -/
theorem prvHst_turns_eq (hon : w.channel.accumulationEnable = true) (h : Fits w) (n : ℕ) :
    turns (prvHstWorkerThread env) n w = turns (readTurn (jsonhistoLines env)) n w := by
  induction n generalizing w with
  | zero => rfl
  | succ n ih =>
    obtain ⟨hon', h'⟩ := prvHst_turn_on env ⟨hon, h⟩
    rw [turns_succ, turns_succ, ih hon' h', prvHst_turn_eq hon h]

end ADTimePix3.Stream
