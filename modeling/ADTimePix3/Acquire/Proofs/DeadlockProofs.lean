import ADTimePix3.Acquire.Workers

/-!
# Proofs: the stop and a waiting worker

A worker waits in `recv` with its mutex locked, and the client wants that mutex, or the end of the worker, before
it sends `/measurement/stop`. So once they have met, only the server can part them. They do not meet when no
worker may come to wait at the time a stop begins.

Main results: `not_deadlocked_of_unhindered`, `deadlocked_stays`, `stop_deadlocks`.
-/

namespace ADTimePix3.Acquire.Workers

/-! ## What a worker can do -/

/-- The server keeps the connection open. -/
def ChannelState.IsOpen (ch : ChannelState) : Prop := ∃ available, ch.socket = some ⟨available, true⟩

/-- A step that only looks at flags. -/
inductive Looks (running : Bool) : WorkerPc → WorkerPc → Prop
  | loopHead : Looks running .loopHead (if running then .flags else .disconnect)
  | flags {pc' : WorkerPc} (h : pc' = .connect ∨ pc' = .loopHead ∨ pc' = .checkRunning) : Looks running .flags pc'
  | checkRunning : Looks running .checkRunning (if running then .readConnected else .disconnect)
  | readConnected {pc' : WorkerPc} (h : pc' = .receive ∨ pc' = .loopHead) : Looks running .readConnected pc'

/-- A step of a worker. -/
inductive WorkerMove (input : WorkerInput) (ch : ChannelState) : ChannelState → Prop
  | look {pc' : WorkerPc} (h : Looks ch.running ch.worker pc') : WorkerMove input ch { ch with worker := pc' }
  | accepted (hpc : ch.worker = .connect) (h : input.accepted = true) :
    WorkerMove input ch { ch with connected := true, socket := some ⟨0, true⟩, worker := .checkRunning }
  | refused {pc' : WorkerPc} (hpc : ch.worker = .connect) (h : pc' = .loopHead ∨ pc' = .checkRunning) :
    WorkerMove input ch { ch with connected := false, socket := none, worker := pc' }
  | receive (hpc : ch.worker = .receive) : WorkerMove input ch { ch with locks := ch.locks + 1, worker := .recv }
  | recv {sk : Socket} (n : ℕ) (hpc : ch.worker = .recv) (h : ch.socket = some sk) :
    WorkerMove input ch { ch with socket := some (sk.drop n), locks := ch.locks - 1, worker := .process }
  | ended (hpc : ch.worker = .recv) (h : ¬ ch.IsOpen) :
    WorkerMove input ch { ch with locks := ch.locks - 1, worker := .closed }
  | closed (hpc : ch.worker = .closed) :
    WorkerMove input ch { ch with connected := false, running := false, worker := .disconnect }
  | process (hpc : ch.worker = .process) : WorkerMove input ch { ch with locks := ch.locks + 1, worker := .parse }
  | parse {pc' : WorkerPc} (hpc : ch.worker = .parse) (h : pc' = .loopHead ∨ pc' = .disconnect) :
    WorkerMove input ch { ch with locks := ch.locks - 1, worker := pc' }
  | pixels (need : ℕ) (hpc : ch.worker = .parse) :
    WorkerMove input ch { ch with locks := ch.locks + 1, worker := .recvExact need }
  | recvExact {sk : Socket} {need n : ℕ} (hpc : ch.worker = .recvExact need) (h : ch.socket = some sk)
    (hn : n ≤ need) :
    WorkerMove input ch { ch with socket := some (sk.drop n), worker := .recvExact (need - n) }
  | complete (hpc : ch.worker = .recvExact 0) :
    WorkerMove input ch { ch with locks := ch.locks - 1, worker := .parsed }
  | fails {need : ℕ} (hpc : ch.worker = .recvExact need) (h : ¬ ch.IsOpen) :
    WorkerMove input ch { ch with locks := ch.locks - 2, worker := .disconnect }
  | parsed (hpc : ch.worker = .parsed) :
    WorkerMove input ch { ch with locks := ch.locks - 1, worker := .loopHead }
  | disconnect (hpc : ch.worker = .disconnect) :
    WorkerMove input ch { ch with connected := false, socket := none, worker := .finished }

/-- A `recv` that returns no bytes is one of a connection that is not open. -/
theorem not_isOpen_of_closed {ch : ChannelState} {sk : Socket} (hsocket : ch.socket = some sk)
    (h : ¬ sk.isOpen = true) : ¬ ch.IsOpen := by
  rintro ⟨available, hopen⟩
  rw [hopen] at hsocket
  exact h (congrArg Socket.isOpen (Option.some.inj hsocket)).symm

theorem not_isOpen_of_none {ch : ChannelState} (hsocket : ch.socket = none) : ¬ ch.IsOpen := by
  rintro ⟨available, hopen⟩
  rw [hopen] at hsocket
  cases hsocket

theorem workerStep_move {c : Channel} {ch ch' : ChannelState} {input : WorkerInput}
    (h : workerStep c ch input = some ch') : WorkerMove input ch ch' := by
  unfold workerStep at h
  split at h
  next => cases h
  next => cases h
  next hpc =>
    obtain rfl := Option.some.inj h
    exact .look (hpc ▸ .loopHead)
  next hpc =>
    split_ifs at h <;> obtain rfl := Option.some.inj h <;> exact .look (hpc ▸ .flags (by simp))
  next hpc =>
    by_cases haccepted : input.accepted = true
    · rw [if_pos haccepted] at h
      obtain rfl := Option.some.inj h
      exact .accepted hpc haccepted
    · rw [if_neg haccepted] at h
      obtain rfl := Option.some.inj h
      refine .refused hpc ?_
      split <;> simp
  next hpc =>
    obtain rfl := Option.some.inj h
    exact .look (hpc ▸ .checkRunning)
  next hpc =>
    split_ifs at h <;> obtain rfl := Option.some.inj h <;> exact .look (hpc ▸ .readConnected (by simp))
  next hpc =>
    obtain rfl := Option.some.inj h
    exact .receive hpc
  next hpc =>
    split at h
    next hnone =>
      obtain rfl := Option.some.inj h
      exact .ended hpc (not_isOpen_of_none hnone)
    next sk hsk =>
      split_ifs at h with hpos hopen
      · obtain rfl := Option.some.inj h
        exact .recv _ hpc hsk
      · obtain rfl := Option.some.inj h
        exact .ended hpc (not_isOpen_of_closed hsk hopen)
  next hpc =>
    obtain rfl := Option.some.inj h
    exact .closed hpc
  next hpc =>
    obtain rfl := Option.some.inj h
    exact .process hpc
  next hpc =>
    split at h <;> obtain rfl := Option.some.inj h
    · exact .parse hpc (Or.inl rfl)
    · exact .parse hpc (Or.inr rfl)
    · exact .pixels _ hpc
  next need hpc =>
    split_ifs at h with hneed
    · obtain rfl := Option.some.inj h
      exact .complete (hneed ▸ hpc)
    · split at h
      next hnone =>
        obtain rfl := Option.some.inj h
        exact .fails hpc (not_isOpen_of_none hnone)
      next sk hsk =>
        split_ifs at h with hpos hopen
        · obtain rfl := Option.some.inj h
          exact .recvExact hpc hsk (Nat.min_le_left ..)
        · obtain rfl := Option.some.inj h
          exact .fails hpc (not_isOpen_of_closed hsk hopen)
  next hpc =>
    obtain rfl := Option.some.inj h
    exact .parsed hpc
  next hpc =>
    obtain rfl := Option.some.inj h
    exact .disconnect hpc

/-! ## Workers that do not come to wait -/

theorem mayBlock_of_not_open {ch : ChannelState} (h : ¬ ch.IsOpen) : ch.mayBlock = false := by
  unfold ChannelState.mayBlock
  split
  next available hsocket => exact absurd ⟨available, hsocket⟩ h
  next => rfl

theorem mayBlock_of_blocked {ch : ChannelState} (h : ch.Blocked) : ch.mayBlock = true := by
  obtain ⟨hworker, hsocket⟩ := h
  unfold ChannelState.mayBlock
  rw [hsocket]
  rcases hworker with hrecv | ⟨n, hexact⟩
  · rw [hrecv]
  · rw [hexact]
    simp

theorem Socket.eq_of_isOpen {sk : Socket} (h : sk.isOpen = true) : sk = ⟨sk.available, true⟩ := by
  rw [← h]

/-- Receiving does not open a connection. -/
theorem isOpen_of_drop {ch ch' : ChannelState} {sk : Socket} {n : ℕ} (hsk : ch.socket = some sk)
    (hsocket : ch'.socket = some (sk.drop n)) (h : ch'.IsOpen) : ch.IsOpen := by
  obtain ⟨available, hopen⟩ := h
  rw [hsocket] at hopen
  have hisOpen : sk.isOpen = true := (Socket.mk.inj (Option.some.inj hopen)).2
  exact ⟨sk.available, hsk.trans (congrArg some (Socket.eq_of_isOpen hisOpen))⟩

/-- Only connecting opens a connection. -/
theorem WorkerMove.isOpen {ch ch' : ChannelState} {input : WorkerInput} (h : WorkerMove input ch ch')
    (hconnect : ch.worker ≠ .connect) (hopen : ch'.IsOpen) : ch.IsOpen := by
  cases h with
  | accepted hpc _ => exact absurd hpc hconnect
  | refused hpc _ => exact absurd hpc hconnect
  | recv n hpc hsk => exact isOpen_of_drop hsk rfl hopen
  | recvExact hpc hsk _ => exact isOpen_of_drop hsk rfl hopen
  | disconnect _ => exact absurd hopen (not_isOpen_of_none rfl)
  | _ => exact hopen

/-- The worker looks at its running flag before the next `recv`. -/
def WorkerPc.looking : WorkerPc → Prop
  | .loopHead | .flags | .connect | .checkRunning | .parsed => True
  | _ => False

/-- The worker may come to a `recv` without looking at its running flag. -/
def WorkerPc.reading : WorkerPc → Prop
  | .readConnected | .receive | .recv | .process | .parse => True
  | _ => False

/-- The worker has no `recv` before it. -/
def WorkerPc.leaving : WorkerPc → Prop
  | .absent | .closed | .disconnect | .finished => True
  | _ => False

theorem mayBlock_looking {ch : ChannelState} (hpc : ch.worker.looking) :
    ch.mayBlock = false ↔ (ch.IsOpen → ch.running = false) := by
  by_cases hopen : ch.IsOpen
  · obtain ⟨available, hsocket⟩ := hopen
    have hrunning : ch.mayBlock = ch.running := by
      unfold ChannelState.mayBlock
      rw [hsocket]
      cases hworker : ch.worker <;> rw [hworker] at hpc <;> first | rfl | exact hpc.elim
    rw [hrunning]
    exact ⟨fun h _ => h, fun h => h ⟨available, hsocket⟩⟩
  · exact iff_of_true (mayBlock_of_not_open hopen) fun h => absurd h hopen

theorem mayBlock_reading {ch : ChannelState} (hpc : ch.worker.reading) : ch.mayBlock = false ↔ ¬ ch.IsOpen := by
  constructor
  · rintro hsafe ⟨available, hsocket⟩
    unfold ChannelState.mayBlock at hsafe
    rw [hsocket] at hsafe
    cases hworker : ch.worker <;> rw [hworker] at hpc hsafe <;> first | exact hpc.elim | cases hsafe
  · exact mayBlock_of_not_open

theorem mayBlock_leaving {ch : ChannelState} (hpc : ch.worker.leaving) : ch.mayBlock = false := by
  unfold ChannelState.mayBlock
  split
  · cases hworker : ch.worker <;> rw [hworker] at hpc <;> first | rfl | exact hpc.elim
  · rfl

theorem mayBlock_recvExact {ch : ChannelState} {need : ℕ} (hpc : ch.worker = .recvExact need) :
    ch.mayBlock = false ↔
      ∀ available, ch.socket = some ⟨available, true⟩ → ch.running = false ∧ need ≤ available := by
  by_cases hopen : ch.IsOpen
  · obtain ⟨available, hsocket⟩ := hopen
    have hmay : ch.mayBlock = (ch.running || decide (available < need)) := by
      unfold ChannelState.mayBlock
      rw [hsocket, hpc]
    rw [hmay, Bool.or_eq_false_iff, decide_eq_false_iff_not, Nat.not_lt]
    constructor
    · intro h available' hsocket'
      obtain rfl := (Socket.mk.inj (Option.some.inj (hsocket.symm.trans hsocket'))).1
      exact h
    · intro h
      exact h available hsocket
  · exact iff_of_true (mayBlock_of_not_open hopen) fun available h => absurd ⟨available, h⟩ hopen

theorem Looks.mayBlock {ch : ChannelState} {pc' : WorkerPc} (h : Looks ch.running ch.worker pc')
    (hsafe : ch.mayBlock = false) : ChannelState.mayBlock { ch with worker := pc' } = false := by
  by_cases hopen : ch.IsOpen
  · generalize hworker : ch.worker = pc at h
    have hoff : pc.looking → ch.running = false := by
      intro hpc
      exact (mayBlock_looking (hworker ▸ hpc)).mp hsafe hopen
    cases h with
    | loopHead =>
      rw [hoff trivial]
      exact mayBlock_leaving trivial
    | flags h =>
      refine (mayBlock_looking ?_).mpr fun _ => hoff trivial
      rcases h with rfl | rfl | rfl <;> trivial
    | checkRunning =>
      rw [hoff trivial]
      exact mayBlock_leaving trivial
    | readConnected h => exact absurd hopen ((mayBlock_reading (by rw [hworker]; trivial)).mp hsafe)
  · exact mayBlock_of_not_open hopen

/-- A worker that may not come to wait still may not after a step, unless it connects with the flag set. -/
theorem WorkerMove.mayBlock {ch ch' : ChannelState} {input : WorkerInput} (h : WorkerMove input ch ch')
    (hsafe : ch.mayBlock = false)
    (hconnect : ch.worker = .connect → input.accepted = true → ch.running = false) : ch'.mayBlock = false := by
  have hreading : ch.worker.reading → ¬ ch.IsOpen := fun hpc => (mayBlock_reading hpc).mp hsafe
  cases h with
  | look h => exact h.mayBlock hsafe
  | accepted hpc haccepted =>
    refine (mayBlock_looking ?_).mpr ?_
    · trivial
    · exact fun _ => hconnect hpc haccepted
  | refused _ _ => exact mayBlock_of_not_open (not_isOpen_of_none rfl)
  | receive hpc => exact mayBlock_of_not_open (hreading (by rw [hpc]; trivial))
  | recv n hpc hsk =>
    exact mayBlock_of_not_open fun hopen => hreading (by rw [hpc]; trivial) (isOpen_of_drop hsk rfl hopen)
  | ended _ _ => exact mayBlock_leaving trivial
  | closed _ => exact mayBlock_leaving trivial
  | process hpc => exact mayBlock_of_not_open (hreading (by rw [hpc]; trivial))
  | parse hpc _ => exact mayBlock_of_not_open (hreading (by rw [hpc]; trivial))
  | pixels need hpc => exact mayBlock_of_not_open (hreading (by rw [hpc]; trivial))
  | recvExact hpc hsk hn =>
    -- the bytes it still needs have arrived, and it takes no more than it needs
    refine (mayBlock_recvExact rfl).mpr ?_
    intro available hsocket
    obtain ⟨hcount, hisOpen⟩ := Socket.mk.inj (Option.some.inj hsocket)
    have hsocket' : ch.socket = some ⟨_, true⟩ := hsk.trans (congrArg some (Socket.eq_of_isOpen hisOpen))
    obtain ⟨hoff, hneed⟩ := (mayBlock_recvExact hpc).mp hsafe _ hsocket'
    exact ⟨hoff, by omega⟩
  | complete hpc =>
    refine (mayBlock_looking ?_).mpr ?_
    · trivial
    · rintro ⟨available, hsocket⟩
      exact ((mayBlock_recvExact hpc).mp hsafe available hsocket).1
  | fails _ hclosed => exact mayBlock_leaving trivial
  | parsed hpc =>
    have hoff : ch.IsOpen → ch.running = false := (mayBlock_looking (by rw [hpc]; trivial)).mp hsafe
    refine (mayBlock_looking ?_).mpr ?_
    · trivial
    · exact hoff
  | disconnect _ => exact mayBlock_leaving trivial

theorem mayBlock_flags {ch : ChannelState} (h : ch.mayBlock = false) :
    ChannelState.mayBlock { ch with running := false } = false := by
  by_cases hopen : ch.IsOpen
  · cases hworker : ch.worker with
    | loopHead | flags | connect | checkRunning | parsed =>
      refine (mayBlock_looking ?_).mpr ?_
      · trivial
      · exact fun _ => rfl
    | readConnected | receive | recv | process | parse =>
      exact absurd hopen ((mayBlock_reading (by rw [hworker]; trivial)).mp h)
    | recvExact need =>
      refine (mayBlock_recvExact rfl).mpr ?_
      intro available hsocket
      exact ⟨rfl, ((mayBlock_recvExact hworker).mp h available hsocket).2⟩
    | absent | closed | disconnect | finished => exact mayBlock_leaving trivial
  · exact mayBlock_of_not_open hopen

/-- Bytes that arrive do not make a worker wait. -/
theorem mayBlock_sends {ch : ChannelState} {available : ℕ} (hsocket : ch.socket = some ⟨available, true⟩)
    (h : ch.mayBlock = false) (bytes : ℕ) :
    ChannelState.mayBlock { ch with socket := some ⟨available + bytes, true⟩ } = false := by
  have hopen : ch.IsOpen := ⟨available, hsocket⟩
  cases hworker : ch.worker with
  | loopHead | flags | connect | checkRunning | parsed =>
    have hoff : ch.running = false := (mayBlock_looking (by rw [hworker]; trivial)).mp h hopen
    refine (mayBlock_looking ?_).mpr ?_
    · trivial
    · exact fun _ => hoff
  | readConnected | receive | recv | process | parse =>
    exact absurd hopen ((mayBlock_reading (by rw [hworker]; trivial)).mp h)
  | recvExact need =>
    refine (mayBlock_recvExact rfl).mpr ?_
    intro available' hsocket'
    obtain ⟨hoff, hneed⟩ := (mayBlock_recvExact hworker).mp h available hsocket
    obtain rfl := (Socket.mk.inj (Option.some.inj hsocket')).1
    exact ⟨hoff, Nat.le_add_right_of_le hneed⟩
  | absent | closed | disconnect | finished => exact mayBlock_leaving trivial

/-! ## Runs without waiting -/

@[simp] theorem State.setChannel_self (s : State) (c : Channel) (ch : ChannelState) :
    (s.setChannel c ch).channels c = ch := Function.update_self ..

theorem State.setChannel_ne (s : State) {c c' : Channel} (h : c' ≠ c) (ch : ChannelState) :
    (s.setChannel c ch).channels c' = s.channels c' := Function.update_of_ne h ..

/-- No worker that is still to be stopped may come to wait. -/
def State.Safe (s : State) : Prop := ∀ c, s.Stopping c → (s.channels c).mayBlock = false

theorem safe_of_idle {s : State} (h : s.client = []) : s.Safe := by
  rintro c ⟨op, hop, -⟩
  rw [h] at hop
  cases hop

/-- A step that changes one channel, and leaves it safe. -/
theorem State.Safe.setChannel {s : State} (h : s.Safe) {c : Channel} {ch : ChannelState}
    (hch : s.Stopping c → ch.mayBlock = false) : (s.setChannel c ch).Safe := by
  intro c' hstopping
  by_cases hc : c' = c
  · subst hc
    rw [State.setChannel_self]
    exact hch hstopping
  · rw [State.setChannel_ne s hc]
    exact h c' hstopping

theorem apply_mayBlock {op : StopOp} {ch ch' : ChannelState} (h : op.apply ch = some ch')
    (hsafe : ch.mayBlock = false) : ch'.mayBlock = false := by
  cases op with
  | flags c =>
    simp only [StopOp.apply] at h
    split_ifs at h
    obtain rfl := Option.some.inj h
    exact mayBlock_flags hsafe
  | join c =>
    simp only [StopOp.apply] at h
    split at h
    · obtain rfl := Option.some.inj h
      unfold ChannelState.mayBlock
      split <;> rfl
    · obtain rfl := Option.some.inj h
      unfold ChannelState.mayBlock
      split <;> rfl
    · cases h
  | disconnect c =>
    simp only [StopOp.apply] at h
    split_ifs at h
    obtain rfl := Option.some.inj h
    rfl
  | request =>
    obtain rfl := Option.some.inj h
    exact hsafe

theorem State.Safe.client {s s' : State} (h : s.Safe) (hstep : clientStep s = some s') : s'.Safe := by
  unfold clientStep at hstep
  split at hstep
  next => cases hstep
  next op rest hclient =>
    have hrest : ∀ c, (∃ op' ∈ rest, op'.channel = some c) → s.Stopping c := by
      rintro c ⟨op', hop', hc⟩
      exact ⟨op', by rw [hclient]; exact List.mem_cons_of_mem _ hop', hc⟩
    split at hstep
    next =>
      obtain rfl := Option.some.inj hstep
      intro c hstopping
      exact h c (hrest c hstopping)
    next c hc =>
      obtain ⟨ch, happly, rfl⟩ := Option.map_eq_some_iff.mp hstep
      have hstopping : s.Stopping c := ⟨op, by rw [hclient]; exact List.mem_cons_self .., hc⟩
      have hset : (s.setChannel c ch).Safe := h.setChannel fun _ => apply_mayBlock happly (h c hstopping)
      intro c' hstopping'
      exact hset c' (hrest c' hstopping')

theorem State.Safe.step {s s' : State} {a : Action} (h : s.Safe) (hguard : Unhindered s a)
    (hstep : step s a = some s') : s'.Safe := by
  cases a with
  | startWorker c =>
    simp only [Workers.step] at hstep
    split_ifs at hstep with hidle
    obtain rfl := Option.some.inj hstep
    exact safe_of_idle hidle
  | stop caller =>
    simp only [Workers.step] at hstep
    split_ifs at hstep
    obtain rfl := Option.some.inj hstep
    rintro c ⟨op, hop, hc⟩
    exact hguard op hop c (Option.mem_def.mpr hc)
  | client => exact h.client hstep
  | worker c input =>
    obtain ⟨ch, hworker, rfl⟩ := Option.map_eq_some_iff.mp hstep
    refine h.setChannel ?_
    intro hstopping
    exact (workerStep_move hworker).mayBlock (h c hstopping) (hguard hstopping)
  | serverSends c bytes =>
    simp only [Workers.step] at hstep
    split at hstep
    next available hsocket =>
      obtain rfl := Option.some.inj hstep
      exact h.setChannel fun hstopping => mayBlock_sends hsocket (h c hstopping) bytes
    next => cases hstep
  | serverCloses c =>
    simp only [Workers.step] at hstep
    split at hstep
    next available hsocket =>
      obtain rfl := Option.some.inj hstep
      refine h.setChannel fun _ => mayBlock_of_not_open ?_
      rintro ⟨_, hopen⟩
      cases hopen
    next => cases hstep

/-- When no stop begins where a worker may come to wait, and no worker connects while it is stopped, the client
never meets a worker that waits. -/
theorem not_deadlocked_of_unhindered {events : List Action} {s : State}
    (hguard : Runs.Guarded step Unhindered State.init events) (hrun : Runs.run step State.init events = some s) :
    ¬ s.Deadlocked := by
  have hs : s.Safe :=
    Runs.run_invariant (fun s a s' h hguard hstep => h.step hguard hstep) (safe_of_idle rfl) hguard hrun
  rintro ⟨op, rest, c, hclient, hc, hblocked⟩
  have hstopping : s.Stopping c := ⟨op, by rw [hclient]; exact List.mem_cons_self .., hc⟩
  have hsafe := hs c hstopping
  rw [mayBlock_of_blocked hblocked] at hsafe
  cases hsafe

/-! ## A deadlock stays -/

/-- How often a worker holds its mutex. -/
def WorkerPc.depth : WorkerPc → ℕ
  | .recv | .parse | .parsed => 1
  | .recvExact _ => 2
  | _ => 0

/-- The mutex is held as often as the worker has locked it. -/
theorem WorkerMove.locks {ch ch' : ChannelState} {input : WorkerInput} (h : WorkerMove input ch ch')
    (hlocks : ch.locks = ch.worker.depth) : ch'.locks = ch'.worker.depth := by
  have hdepth : ∀ {pc : WorkerPc}, ch.worker = pc → ch.locks = pc.depth := by
    rintro pc rfl
    exact hlocks
  cases h with
  | look h =>
    show ch.locks = _
    rw [hlocks]
    generalize ch.worker = pc at h
    cases h with
    | loopHead => cases ch.running <;> rfl
    | flags h => rcases h with rfl | rfl | rfl <;> rfl
    | checkRunning => cases ch.running <;> rfl
    | readConnected h => rcases h with rfl | rfl <;> rfl
  | accepted hpc _ => exact (hdepth hpc).trans rfl
  | refused hpc h => rcases h with rfl | rfl <;> exact (hdepth hpc).trans rfl
  | receive hpc => exact congrArg (· + 1) (hdepth hpc)
  | recv n hpc _ => exact congrArg (· - 1) (hdepth hpc)
  | ended hpc _ => exact congrArg (· - 1) (hdepth hpc)
  | closed hpc => exact (hdepth hpc).trans rfl
  | process hpc => exact congrArg (· + 1) (hdepth hpc)
  | parse hpc h => rcases h with rfl | rfl <;> exact congrArg (· - 1) (hdepth hpc)
  | pixels need hpc => exact congrArg (· + 1) (hdepth hpc)
  | recvExact hpc _ _ => exact (hdepth hpc).trans rfl
  | complete hpc => exact congrArg (· - 1) (hdepth hpc)
  | fails hpc _ => exact congrArg (· - 2) (hdepth hpc)
  | parsed hpc => exact congrArg (· - 1) (hdepth hpc)
  | disconnect hpc => exact (hdepth hpc).trans rfl

/-- The mutex of each channel is held as often as its worker has locked it. -/
def State.Locked (s : State) : Prop := ∀ c, (s.channels c).locks = (s.channels c).worker.depth

theorem State.Locked.setChannel {s : State} (h : s.Locked) {c : Channel} {ch : ChannelState}
    (hch : ch.locks = ch.worker.depth) : (s.setChannel c ch).Locked := by
  intro c'
  by_cases hc : c' = c
  · subst hc
    rw [State.setChannel_self]
    exact hch
  · rw [State.setChannel_ne s hc]
    exact h c'

theorem apply_locks {op : StopOp} {ch ch' : ChannelState} (h : op.apply ch = some ch')
    (hch : ch.locks = ch.worker.depth) : ch'.locks = ch'.worker.depth := by
  cases op with
  | flags c =>
    simp only [StopOp.apply] at h
    split_ifs at h
    obtain rfl := Option.some.inj h
    exact hch
  | join c =>
    simp only [StopOp.apply] at h
    split at h
    next habsent =>
      obtain rfl := Option.some.inj h
      rw [habsent] at hch
      exact hch
    next hfinished =>
      obtain rfl := Option.some.inj h
      rw [hfinished] at hch
      exact hch
    next => cases h
  | disconnect c =>
    simp only [StopOp.apply] at h
    split_ifs at h
    obtain rfl := Option.some.inj h
    exact hch
  | request =>
    obtain rfl := Option.some.inj h
    exact hch

theorem State.Locked.step {s s' : State} {a : Action} (h : s.Locked) (hstep : step s a = some s') : s'.Locked := by
  cases a with
  | startWorker c =>
    simp only [Workers.step] at hstep
    split_ifs at hstep
    obtain rfl := Option.some.inj hstep
    refine h.setChannel ?_
    unfold startWorker
    split_ifs with hnew
    · have hlocks := h c
      rw [hnew.2] at hlocks
      exact hlocks
    · exact h c
  | stop caller =>
    simp only [Workers.step] at hstep
    split_ifs at hstep
    obtain rfl := Option.some.inj hstep
    exact h
  | client =>
    simp only [Workers.step, clientStep] at hstep
    split at hstep
    next => cases hstep
    next op rest hclient =>
      split at hstep
      next =>
        obtain rfl := Option.some.inj hstep
        exact h
      next c hc =>
        obtain ⟨ch, happly, rfl⟩ := Option.map_eq_some_iff.mp hstep
        exact h.setChannel (apply_locks happly (h c))
  | worker c input =>
    obtain ⟨ch, hworker, rfl⟩ := Option.map_eq_some_iff.mp hstep
    exact h.setChannel ((workerStep_move hworker).locks (h c))
  | serverSends c bytes =>
    simp only [Workers.step] at hstep
    split at hstep
    · obtain rfl := Option.some.inj hstep
      exact h.setChannel (h c)
    · cases hstep
  | serverCloses c =>
    simp only [Workers.step] at hstep
    split at hstep
    · obtain rfl := Option.some.inj hstep
      exact h.setChannel (h c)
    · cases hstep

theorem workerStep_blocked {c : Channel} {ch : ChannelState} (h : ch.Blocked) (input : WorkerInput) :
    workerStep c ch input = none := by
  obtain ⟨running, connected, locks, socket, worker⟩ := ch
  obtain ⟨hworker, hsocket⟩ := h
  obtain rfl : socket = some ⟨0, true⟩ := hsocket
  rcases hworker with hrecv | ⟨n, hexact⟩
  · obtain rfl : worker = .recv := hrecv
    rfl
  · obtain rfl : worker = .recvExact (n + 1) := hexact
    rfl

/-- The client waits at a statement about a channel whose worker is blocked. -/
theorem apply_blocked {op : StopOp} {c : Channel} {ch : ChannelState} (hop : op.channel = some c)
    (h : ch.Blocked) (hlocks : ch.locks = ch.worker.depth) : op.apply ch = none := by
  have hlocked : ch.locks ≠ 0 := by
    rw [hlocks]
    rcases h.1 with hrecv | ⟨n, hexact⟩
    · rw [hrecv]
      exact Nat.succ_ne_zero 0
    · rw [hexact]
      exact Nat.succ_ne_zero 1
  cases op with
  | flags c' => exact if_neg hlocked
  | join c' =>
    simp only [StopOp.apply]
    rcases h.1 with hrecv | ⟨n, hexact⟩
    · rw [hrecv]
    · rw [hexact]
  | disconnect c' => exact if_neg hlocked
  | request => cases hop

theorem deadlocked_step {s s' : State} {a : Action} (hlocked : s.Locked) (h : s.Deadlocked) (hown : a.own = true)
    (hstep : step s a = some s') : s'.Deadlocked ∧ s'.client = s.client := by
  obtain ⟨op, rest, c, hclient, hc, hblocked⟩ := h
  cases a with
  | startWorker c' =>
    simp only [step, hclient] at hstep
    cases hstep
  | stop caller =>
    simp only [step, hclient] at hstep
    cases hstep
  | client =>
    simp only [step, clientStep, hclient, hc, apply_blocked hc hblocked (hlocked c)] at hstep
    cases hstep
  | worker c' input =>
    obtain ⟨ch, hworker, rfl⟩ := Option.map_eq_some_iff.mp hstep
    by_cases hc' : c = c'
    · subst hc'
      rw [workerStep_blocked hblocked] at hworker
      cases hworker
    · refine ⟨⟨op, rest, c, hclient, hc, ?_⟩, rfl⟩
      rw [State.setChannel_ne s hc']
      exact hblocked
  | serverSends c' bytes => cases hown
  | serverCloses c' => cases hown

theorem locked_init : State.init.Locked := fun _ => rfl

theorem locked_of_run {events : List Action} {s s' : State} (h : s.Locked)
    (hrun : Runs.run step s events = some s') : s'.Locked :=
  Runs.run_preserves (fun _ _ _ h hstep => h.step hstep) h hrun

/-- Nothing but the server ends a deadlock: the client stays where it is, before its request. -/
theorem deadlocked_stays {events : List Action} {s s' : State} (hlocked : s.Locked) (h : s.Deadlocked)
    (hown : ∀ a ∈ events, a.own = true) (hrun : Runs.run step s events = some s') :
    s'.Deadlocked ∧ s'.client = s.client := by
  have hkeep : ∀ (t : State) (a : Action) (t' : State), (t.Locked ∧ t.Deadlocked ∧ t.client = s.client) →
      a.own = true → step t a = some t' → t'.Locked ∧ t'.Deadlocked ∧ t'.client = s.client := by
    rintro t a t' ⟨ht, hdead, hclient⟩ ha hstep
    obtain ⟨hdead', hclient'⟩ := deadlocked_step ht hdead ha hstep
    exact ⟨ht.step hstep, hdead', hclient'.trans hclient⟩
  exact (Runs.run_invariant hkeep ⟨hlocked, h, rfl⟩ (Runs.guarded_of_forall hown s) hrun).2

/-! ## Runs of the preview worker -/

/-- The server and the parameters let the worker go on; `bytes` are asked for, of this line. -/
def goesOn (bytes : ℕ) (line : LineOutcome) : WorkerInput := ⟨true, true, true, bytes, line⟩

/-- A worker that has connected, has received and processed 100 bytes, and waits for more. -/
def waitingEvents : List Action :=
  .startWorker .prvImg :: List.replicate 6 (.worker .prvImg (goesOn 100 .next)) ++ [.serverSends .prvImg 100] ++
    List.replicate 8 (.worker .prvImg (goesOn 100 .next))

/-- The server has closed the connection before the stop. -/
def closedEvents : List Action :=
  waitingEvents ++ [.serverCloses .prvImg, .stop .acquireStop] ++
    List.replicate 3 (.worker .prvImg (goesOn 100 .next)) ++ List.replicate 13 .client

theorem stop_after_close :
    Runs.Guarded step Unhindered State.init closedEvents ∧
      ∃ s, Runs.run step State.init closedEvents = some s ∧ s.client = [] ∧ ¬ s.Deadlocked := by
  have hguard : Runs.Guarded step Unhindered State.init closedEvents := by decide +kernel
  have hclient : (Runs.run step State.init closedEvents).map State.client = some [] := by decide +kernel
  obtain ⟨s, hs, hclient⟩ := Option.map_eq_some_iff.mp hclient
  exact ⟨hguard, s, hs, hclient, not_deadlocked_of_unhindered hguard hs⟩

/-- The stop of a worker that waits for an open connection: the client never comes to its request, whatever the
threads do. -/
theorem stop_deadlocks :
    ∃ s, Runs.run step State.init (waitingEvents ++ [.stop .acquireStop]) = some s ∧ s.Deadlocked ∧
      ∀ events s', (∀ a ∈ events, a.own = true) → Runs.run step s events = some s' →
        s'.client = Caller.acquireStop.ops := by
  have hstate : (Runs.run step State.init (waitingEvents ++ [.stop .acquireStop])).map
      (fun s => (s.client, s.channels .prvImg)) =
        some (Caller.acquireStop.ops, ⟨true, true, 1, some ⟨0, true⟩, .recv⟩) := by decide +kernel
  obtain ⟨s, hs, hstate⟩ := Option.map_eq_some_iff.mp hstate
  obtain ⟨hclient, hchannel⟩ := Prod.mk.inj hstate
  have hdead : s.Deadlocked := by
    refine ⟨_, _, .prvImg, hclient, rfl, ?_⟩
    rw [hchannel]
    exact ⟨Or.inl rfl, rfl⟩
  refine ⟨s, hs, hdead, ?_⟩
  intro events s' hown hrun
  have hstays := (deadlocked_stays (locked_of_run locked_init hs) hdead hown hrun).2
  rw [hstays, hclient]

end ADTimePix3.Acquire.Workers
