import ADTimePix3.Acquire.Proofs.DeadlockProofs

/-!
# Proofs: a worker that may come to wait does

The condition under which a stop is safe leaves nothing out: if `acquireStop` begins where a worker may come to
wait, the worker can, by steps of its own, and then the client can come to it.

Main result: `stop_reaches_deadlock`.
-/

namespace ADTimePix3.Acquire.Workers

/-! ## One worker -/

/-- The worker can come to wait without anybody else. -/
def CanBlock (c : Channel) (ch : ChannelState) : Prop :=
  ∃ inputs ch', Runs.run (workerStep c) ch inputs = some ch' ∧ ch'.Blocked

theorem CanBlock.of_blocked {c : Channel} {ch : ChannelState} (h : ch.Blocked) : CanBlock c ch := ⟨[], ch, rfl, h⟩

theorem CanBlock.of_step {c : Channel} {ch ch₁ : ChannelState} (input : WorkerInput)
    (hstep : workerStep c ch input = some ch₁) (h : CanBlock c ch₁) : CanBlock c ch := by
  obtain ⟨inputs, ch', hrun, hblocked⟩ := h
  exact ⟨input :: inputs, ch', (Runs.run_cons_of_some _ hstep inputs).trans hrun, hblocked⟩

section Open

variable {c : Channel} {running connected isOpen : Bool} {locks available : ℕ}

/-- A worker that takes `n` of the bytes it needs. -/
theorem workerStep_recvExact {need n : ℕ} (hpos : 0 < available) (hneed : need ≠ 0)
    (hn : min need (min available (max 1 n)) = n) :
    workerStep c ⟨running, connected, locks, some ⟨available, isOpen⟩, .recvExact need⟩ (goesOn n .next) =
      some ⟨running, connected, locks, some ⟨available - n, isOpen⟩, .recvExact (need - n)⟩ := by
  have htaken : min need (Socket.count ⟨available, isOpen⟩ n) = n := hn
  unfold workerStep
  simp only [if_neg hneed, if_pos hpos]
  rw [show (goesOn n .next).bytes = n from rfl, htaken]
  rfl

/-- A worker that takes what has arrived, and needs more. -/
theorem workerStep_recvExact_all {need : ℕ} (hpos : 0 < available) (h : available < need) :
    workerStep c ⟨running, connected, locks, some ⟨available, isOpen⟩, .recvExact need⟩ (goesOn available .next) =
      some ⟨running, connected, locks, some ⟨0, isOpen⟩, .recvExact (need - available)⟩ := by
  rw [workerStep_recvExact hpos (by omega) (by omega), Nat.sub_self]

/-- A worker that takes all it needs. -/
theorem workerStep_recvExact_needed {need : ℕ} (hpos : 0 < need) (h : need ≤ available) :
    workerStep c ⟨running, connected, locks, some ⟨available, isOpen⟩, .recvExact need⟩ (goesOn need .next) =
      some ⟨running, connected, locks, some ⟨available - need, isOpen⟩, .recvExact 0⟩ := by
  rw [workerStep_recvExact (by omega) (by omega) (by omega), Nat.sub_self]

theorem canBlock_recvExact {need : ℕ} (h : available < need) :
    CanBlock c ⟨running, true, locks, some ⟨available, true⟩, .recvExact need⟩ := by
  have hblocked : ∀ {n : ℕ}, 0 < n → CanBlock c ⟨running, true, locks, some ⟨0, true⟩, .recvExact n⟩ := by
    intro n hn
    obtain ⟨m, rfl⟩ := Nat.exists_eq_add_one_of_ne_zero (Nat.ne_of_gt hn)
    exact CanBlock.of_blocked ⟨Or.inr ⟨m, rfl⟩, rfl⟩
  rcases Nat.eq_zero_or_pos available with rfl | hpos
  · exact hblocked h
  · exact CanBlock.of_step _ (workerStep_recvExact_all hpos h) (hblocked (Nat.sub_pos_of_lt h))

theorem canBlock_parse : CanBlock c ⟨running, true, locks, some ⟨available, true⟩, .parse⟩ :=
  CanBlock.of_step (goesOn 0 (.pixels (available + 1))) rfl (canBlock_recvExact (Nat.lt_succ_self _))

theorem canBlock_process : CanBlock c ⟨running, true, locks, some ⟨available, true⟩, .process⟩ :=
  CanBlock.of_step (goesOn 0 .next) rfl canBlock_parse

theorem canBlock_recv : CanBlock c ⟨running, true, locks, some ⟨available, true⟩, .recv⟩ := by
  rcases Nat.eq_zero_or_pos available with rfl | hpos
  · exact CanBlock.of_blocked ⟨Or.inl rfl, rfl⟩
  · have hstep : workerStep c ⟨running, true, locks, some ⟨available, true⟩, .recv⟩ (goesOn available .next) =
        some ⟨running, true, locks - 1, some ⟨available - min available (max 1 available), true⟩, .process⟩ := by
      simp [workerStep, goesOn, hpos, Socket.count, Socket.drop]
    exact CanBlock.of_step _ hstep canBlock_process

theorem canBlock_receive : CanBlock c ⟨running, true, locks, some ⟨available, true⟩, .receive⟩ :=
  CanBlock.of_step (goesOn 0 .next) rfl canBlock_recv

theorem canBlock_readConnected : CanBlock c ⟨running, true, locks, some ⟨available, true⟩, .readConnected⟩ := by
  have hstep : workerStep c ⟨running, true, locks, some ⟨available, true⟩, .readConnected⟩ (goesOn 0 .next) =
      some ⟨running, true, locks, some ⟨available, true⟩, .receive⟩ := by
    simp [workerStep, goesOn]
  exact CanBlock.of_step _ hstep canBlock_receive

theorem canBlock_checkRunning : CanBlock c ⟨true, true, locks, some ⟨available, true⟩, .checkRunning⟩ :=
  CanBlock.of_step (goesOn 0 .next) rfl canBlock_readConnected

theorem canBlock_flags : CanBlock c ⟨true, true, locks, some ⟨available, true⟩, .flags⟩ :=
  CanBlock.of_step (goesOn 0 .next) rfl canBlock_checkRunning

theorem canBlock_loopHead : CanBlock c ⟨true, true, locks, some ⟨available, true⟩, .loopHead⟩ :=
  CanBlock.of_step (goesOn 0 .next) rfl canBlock_flags

theorem canBlock_connect : CanBlock c ⟨true, true, locks, some ⟨available, true⟩, .connect⟩ :=
  CanBlock.of_step (goesOn 0 .next) rfl canBlock_checkRunning

theorem canBlock_parsed : CanBlock c ⟨true, true, locks, some ⟨available, true⟩, .parsed⟩ :=
  CanBlock.of_step (goesOn 0 .next) rfl canBlock_loopHead

/-- With the running flag set, the worker can go round the loop when it has got its pixels. -/
theorem canBlock_recvExact_running (need : ℕ) :
    CanBlock c ⟨true, true, locks, some ⟨available, true⟩, .recvExact need⟩ := by
  rcases Nat.lt_or_ge available need with hlt | hle
  · exact canBlock_recvExact hlt
  · have hlast : ∀ {locks available : ℕ},
        CanBlock c ⟨true, true, locks, some ⟨available, true⟩, .recvExact 0⟩ := by
      intro locks available
      exact CanBlock.of_step (goesOn 0 .next) rfl canBlock_parsed
    rcases Nat.eq_zero_or_pos need with rfl | hpos
    · exact hlast
    · exact CanBlock.of_step _ (workerStep_recvExact_needed hpos hle) hlast

end Open

theorem canBlock_of_mayBlock {c : Channel} {ch : ChannelState} (hmay : ch.mayBlock = true)
    (hconnected : ch.connected = true) : CanBlock c ch := by
  obtain ⟨running, connected, locks, socket, worker⟩ := ch
  obtain rfl : connected = true := hconnected
  by_cases hopen : ChannelState.IsOpen ⟨running, true, locks, socket, worker⟩
  · obtain ⟨available, hsocket⟩ := hopen
    obtain rfl : socket = some ⟨available, true⟩ := hsocket
    cases worker with
    | absent | closed | disconnect | finished => cases hmay
    | loopHead =>
      obtain rfl : running = true := hmay
      exact canBlock_loopHead
    | flags =>
      obtain rfl : running = true := hmay
      exact canBlock_flags
    | connect =>
      obtain rfl : running = true := hmay
      exact canBlock_connect
    | checkRunning =>
      obtain rfl : running = true := hmay
      exact canBlock_checkRunning
    | parsed =>
      obtain rfl : running = true := hmay
      exact canBlock_parsed
    | readConnected => exact canBlock_readConnected
    | receive => exact canBlock_receive
    | recv => exact canBlock_recv
    | process => exact canBlock_process
    | parse => exact canBlock_parse
    | recvExact need =>
      simp only [ChannelState.mayBlock, Bool.or_eq_true, decide_eq_true_eq] at hmay
      rcases hmay with rfl | hlt
      · exact canBlock_recvExact_running need
      · exact canBlock_recvExact hlt
  · rw [mayBlock_of_not_open hopen] at hmay
    cases hmay

/-- The worker can come to a state where it waits, or where its mutex is free. -/
def CanYield (c : Channel) (ch : ChannelState) : Prop :=
  ∃ inputs ch', Runs.run (workerStep c) ch inputs = some ch' ∧ (ch'.Blocked ∨ ch'.locks = 0)

theorem CanYield.of_free {c : Channel} {ch : ChannelState} (h : ch.locks = 0) : CanYield c ch :=
  ⟨[], ch, rfl, Or.inr h⟩

theorem CanYield.of_blocked {c : Channel} {ch : ChannelState} (h : ch.Blocked) : CanYield c ch :=
  ⟨[], ch, rfl, Or.inl h⟩

theorem CanYield.of_step {c : Channel} {ch ch₁ : ChannelState} (input : WorkerInput)
    (hstep : workerStep c ch input = some ch₁) (h : CanYield c ch₁) : CanYield c ch := by
  obtain ⟨inputs, ch', hrun, hend⟩ := h
  exact ⟨input :: inputs, ch', (Runs.run_cons_of_some _ hstep inputs).trans hrun, hend⟩

theorem canYield_recvExact {c : Channel} {running connected : Bool} {socket : Option Socket} (need : ℕ) :
    CanYield c ⟨running, connected, 2, socket, .recvExact need⟩ := by
  have hlast : ∀ {socket : Option Socket}, CanYield c ⟨running, connected, 2, socket, .recvExact 0⟩ := by
    intro socket
    have hparsed : CanYield c ⟨running, connected, 1, socket, .parsed⟩ :=
      CanYield.of_step (goesOn 0 .next) rfl (CanYield.of_free rfl)
    exact CanYield.of_step (goesOn 0 .next) rfl hparsed
  have hempty : ∀ {need : ℕ} {isOpen : Bool}, 0 < need →
      CanYield c ⟨running, connected, 2, some ⟨0, isOpen⟩, .recvExact need⟩ := by
    intro need isOpen hneed
    obtain ⟨m, rfl⟩ := Nat.exists_eq_add_one_of_ne_zero (Nat.ne_of_gt hneed)
    cases isOpen with
    | true => exact CanYield.of_blocked ⟨Or.inr ⟨m, rfl⟩, rfl⟩
    | false => exact CanYield.of_step (goesOn 0 .next) rfl (CanYield.of_free rfl)
  rcases Nat.eq_zero_or_pos need with rfl | hneed
  · exact hlast
  · rcases socket with _ | ⟨available, isOpen⟩
    · obtain ⟨m, rfl⟩ := Nat.exists_eq_add_one_of_ne_zero (Nat.ne_of_gt hneed)
      exact CanYield.of_step (goesOn 0 .next) rfl (CanYield.of_free rfl)
    · rcases Nat.eq_zero_or_pos available with rfl | hpos
      · exact hempty hneed
      · rcases Nat.lt_or_ge available need with hlt | hle
        · exact CanYield.of_step _ (workerStep_recvExact_all hpos hlt) (hempty (Nat.sub_pos_of_lt hlt))
        · exact CanYield.of_step _ (workerStep_recvExact_needed hneed hle) hlast

theorem canYield (c : Channel) {ch : ChannelState} (hlocks : ch.locks = ch.worker.depth) : CanYield c ch := by
  obtain ⟨running, connected, locks, socket, worker⟩ := ch
  obtain rfl : locks = worker.depth := hlocks
  cases worker with
  | parse => exact CanYield.of_step (goesOn 0 .next) rfl (CanYield.of_free rfl)
  | parsed => exact CanYield.of_step (goesOn 0 .next) rfl (CanYield.of_free rfl)
  | recvExact need => exact canYield_recvExact need
  | recv =>
    rcases socket with _ | ⟨available, isOpen⟩
    · exact CanYield.of_step (goesOn 0 .next) rfl (CanYield.of_free rfl)
    · rcases available with _ | n
      · cases isOpen with
        | true => exact CanYield.of_blocked ⟨Or.inl rfl, rfl⟩
        | false => exact CanYield.of_step (goesOn 0 .next) rfl (CanYield.of_free rfl)
      · exact CanYield.of_step (goesOn 0 .next) rfl (CanYield.of_free rfl)
  | _ => exact CanYield.of_free rfl

/-! ## The client -/

@[simp] theorem State.setChannel_setChannel (s : State) (c : Channel) (ch ch' : ChannelState) :
    (s.setChannel c ch).setChannel c ch' = s.setChannel c ch' := by
  unfold State.setChannel
  rw [Function.update_idem]

/-- A run of one worker is a run. -/
theorem run_worker {c : Channel} {inputs : List WorkerInput} {ch' : ChannelState} (s : State)
    (h : Runs.run (workerStep c) (s.channels c) inputs = some ch') :
    Runs.run step s (inputs.map (.worker c)) = some (s.setChannel c ch') := by
  induction inputs generalizing s with
  | nil =>
    obtain rfl := Option.some.inj h
    rw [List.map_nil, Runs.run_nil, State.setChannel, Function.update_eq_self]
  | cons input inputs ih =>
    obtain ⟨ch₁, hstep, h⟩ := Option.bind_eq_some_iff.mp h
    have hstep' : step s (.worker c input) = some (s.setChannel c ch₁) := by
      rw [step, hstep, Option.map_some]
    rw [List.map_cons, Runs.run_cons_of_some step hstep', ih (s.setChannel c ch₁), State.setChannel_setChannel]
    rw [State.setChannel_self]
    exact h

/-- The client comes to a worker that waits, or waits before. -/
theorem flags_reach_deadlock (cs : List Channel) {rest : List StopOp} {c : Channel} (hc : c ∈ cs) (s : State)
    (hlocked : s.Locked) (hclient : s.client = cs.map .flags ++ rest) (hblocked : (s.channels c).Blocked) :
    ∃ events s', Runs.run step s events = some s' ∧ s'.Deadlocked := by
  induction cs generalizing s with
  | nil => cases hc
  | cons c' cs ih =>
    have hdead : ∀ {t : State}, t.client = s.client → (t.channels c').Blocked → t.Deadlocked := by
      intro t ht hwaits
      refine ⟨.flags c', cs.map .flags ++ rest, c', ?_, rfl, hwaits⟩
      rw [ht, hclient]
      rfl
    by_cases hne : c' = c
    · subst hne
      exact ⟨[], s, rfl, hdead rfl hblocked⟩
    · obtain ⟨inputs, ch', hworker, hend⟩ := canYield c' (hlocked c')
      have hrun := run_worker s hworker
      rcases hend with hwaits | hfree
      · refine ⟨_, _, hrun, hdead rfl ?_⟩
        rw [State.setChannel_self]
        exact hwaits
      · -- the mutex is free: the client takes it, and goes on
        have hrest : c ∈ cs := by
          rcases List.mem_cons.mp hc with heq | hmem
          · exact absurd heq.symm hne
          · exact hmem
        have hstep : step (s.setChannel c' ch') .client =
            some ⟨(s.setChannel c' { ch' with running := false }).channels, cs.map .flags ++ rest⟩ := by
          have hclient' : (s.setChannel c' ch').client = .flags c' :: (cs.map .flags ++ rest) := hclient
          simp only [step, clientStep, hclient', StopOp.channel, State.setChannel_self, StopOp.apply, hfree,
            if_true, Option.map_some, State.setChannel_setChannel]
        have hlocked₁ := locked_of_run hlocked hrun
        obtain ⟨events, s', hrun', hs'⟩ := ih hrest _ (hlocked₁.step hstep) rfl (by
          show ((s.setChannel c' { ch' with running := false }).channels c).Blocked
          rw [State.setChannel_ne s (Ne.symm hne)]
          exact hblocked)
        refine ⟨inputs.map (.worker c') ++ .client :: events, s', ?_, hs'⟩
        rw [Runs.run_append_of_some step hrun, Runs.run_cons_of_some step hstep]
        exact hrun'

/-! ## Open connections -/

/-- The driver knows of an open connection. -/
structure ChannelState.Linked (ch : ChannelState) : Prop where
  connected : ch.IsOpen → ch.connected = true
  closed : ch.worker = .closed → ¬ ch.IsOpen

theorem linked_of_not_open {ch : ChannelState} (h : ¬ ch.IsOpen) : ch.Linked :=
  ⟨fun hopen => absurd hopen h, fun _ => h⟩

/-- A worker that goes on without touching the connection. -/
theorem ChannelState.Linked.kept {ch ch' : ChannelState} (h : ch.Linked) (hopen : ch'.IsOpen → ch.IsOpen)
    (hconnected : ch'.connected = ch.connected) (hworker : ch'.worker ≠ .closed) : ch'.Linked where
  connected := by
    intro hopen'
    rw [hconnected]
    exact h.connected (hopen hopen')
  closed := fun hclosed => absurd hclosed hworker

theorem WorkerMove.linked {ch ch' : ChannelState} {input : WorkerInput} (h : WorkerMove input ch ch')
    (hch : ch.Linked) : ch'.Linked := by
  cases h with
  | look h =>
    refine hch.kept id rfl ?_
    generalize ch.worker = pc at h
    cases h with
    | loopHead => cases ch.running <;> simp
    | flags h => rcases h with rfl | rfl | rfl <;> simp
    | checkRunning => cases ch.running <;> simp
    | readConnected h => rcases h with rfl | rfl <;> simp
  | accepted _ _ => exact ⟨fun _ => rfl, fun hclosed => by cases hclosed⟩
  | refused _ _ => exact linked_of_not_open (not_isOpen_of_none rfl)
  | recv n _ hsk => exact hch.kept (isOpen_of_drop hsk rfl) rfl (by simp)
  | ended _ hclosed => exact linked_of_not_open hclosed
  | closed hpc => exact linked_of_not_open fun hopen => hch.closed hpc hopen
  | parse _ h => exact hch.kept id rfl (by rcases h with rfl | rfl <;> simp)
  | recvExact _ hsk _ => exact hch.kept (isOpen_of_drop hsk rfl) rfl (by simp)
  | fails _ hclosed => exact linked_of_not_open hclosed
  | disconnect _ => exact linked_of_not_open (not_isOpen_of_none rfl)
  | receive _ | process _ | pixels _ _ | complete _ | parsed _ => exact hch.kept id rfl (by simp)

def State.Linked (s : State) : Prop := ∀ c, (s.channels c).Linked

theorem State.Linked.setChannel {s : State} (h : s.Linked) {c : Channel} {ch : ChannelState} (hch : ch.Linked) :
    (s.setChannel c ch).Linked := by
  intro c'
  by_cases hc : c' = c
  · subst hc
    rw [State.setChannel_self]
    exact hch
  · rw [State.setChannel_ne s hc]
    exact h c'

theorem apply_linked {op : StopOp} {ch ch' : ChannelState} (h : op.apply ch = some ch') (hch : ch.Linked) :
    ch'.Linked := by
  cases op with
  | flags c =>
    simp only [StopOp.apply] at h
    split_ifs at h
    obtain rfl := Option.some.inj h
    exact ⟨hch.connected, hch.closed⟩
  | join c =>
    simp only [StopOp.apply] at h
    split at h
    · obtain rfl := Option.some.inj h
      exact hch.kept id rfl (by simp)
    · obtain rfl := Option.some.inj h
      exact hch.kept id rfl (by simp)
    · cases h
  | disconnect c =>
    simp only [StopOp.apply] at h
    split_ifs at h
    obtain rfl := Option.some.inj h
    exact linked_of_not_open (not_isOpen_of_none rfl)
  | request =>
    obtain rfl := Option.some.inj h
    exact hch

theorem State.Linked.step {s s' : State} {a : Action} (h : s.Linked) (hstep : step s a = some s') : s'.Linked := by
  cases a with
  | startWorker c =>
    simp only [Workers.step] at hstep
    split_ifs at hstep
    obtain rfl := Option.some.inj hstep
    refine h.setChannel ?_
    unfold startWorker
    split_ifs
    · exact (h c).kept id rfl (by simp)
    · exact h c
  | stop caller =>
    simp only [Workers.step] at hstep
    split_ifs at hstep
    obtain rfl := Option.some.inj hstep
    exact h
  | client =>
    simp only [Workers.step, clientStep] at hstep
    split at hstep
    next => cases hstep
    next op rest hclient =>
      split at hstep
      next =>
        obtain rfl := Option.some.inj hstep
        exact h
      next c hc =>
        obtain ⟨ch, happly, rfl⟩ := Option.map_eq_some_iff.mp hstep
        exact h.setChannel (apply_linked happly (h c))
  | worker c input =>
    obtain ⟨ch, hworker, rfl⟩ := Option.map_eq_some_iff.mp hstep
    exact h.setChannel ((workerStep_move hworker).linked (h c))
  | serverSends c bytes =>
    simp only [Workers.step] at hstep
    split at hstep
    next available hsocket =>
      obtain rfl := Option.some.inj hstep
      have hopen : (s.channels c).IsOpen := ⟨available, hsocket⟩
      exact h.setChannel ⟨fun _ => (h c).connected hopen, fun hclosed => absurd hopen ((h c).closed hclosed)⟩
    next => cases hstep
  | serverCloses c =>
    simp only [Workers.step] at hstep
    split at hstep
    next =>
      obtain rfl := Option.some.inj hstep
      refine h.setChannel (linked_of_not_open ?_)
      rintro ⟨available, hopen⟩
      cases hopen
    next => cases hstep

theorem linked_init : State.init.Linked := by
  intro c
  exact linked_of_not_open (not_isOpen_of_none rfl)

/-- If `acquireStop` begins where a worker may come to wait, the client can come to wait for one. -/
theorem stop_reaches_deadlock {events : List Action} {s : State} (hrun : Runs.run step State.init events = some s)
    (hidle : s.client = []) {c : Channel} (hmay : (s.channels c).mayBlock = true) :
    ∃ events' s', Runs.run step s (.stop .acquireStop :: events') = some s' ∧ s'.Deadlocked := by
  have hlocked : s.Locked := locked_of_run locked_init hrun
  have hlinked : s.Linked := Runs.run_preserves (fun _ _ _ h hstep => h.step hstep) linked_init hrun
  have hopen : (s.channels c).IsOpen := by
    by_contra hclosed
    rw [mayBlock_of_not_open hclosed] at hmay
    cases hmay
  obtain ⟨inputs, ch', hworker, hblocked⟩ := canBlock_of_mayBlock hmay ((hlinked c).connected hopen)
  have hstop : step s (.stop .acquireStop) = some { s with client := Caller.acquireStop.ops } := by
    simp only [step, hidle, if_true]
  have hwait := run_worker { s with client := Caller.acquireStop.ops } hworker
  have hlocked' := locked_of_run (hlocked.step hstop) hwait
  have hmem : c ∈ [.prvImg, .prvImg1, .img, .prvHst] := by
    cases c <;> simp
  obtain ⟨events', s', hrun', hdead⟩ := flags_reach_deadlock [.prvImg, .prvImg1, .img, .prvHst]
    hmem _ hlocked' rfl (by rw [State.setChannel_self]; exact hblocked)
  refine ⟨inputs.map (.worker c) ++ events', s', ?_, hdead⟩
  rw [Runs.run_cons_of_some step hstop, Runs.run_append_of_some step hwait]
  exact hrun'

end ADTimePix3.Acquire.Workers
