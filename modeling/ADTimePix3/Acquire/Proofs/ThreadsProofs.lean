import ADTimePix3.Acquire.Agreement

/-!
# Proofs: what a step can do

Each kind of thread is described once: from where to where a step goes, and what becomes of `acquiring` and
`ADAcquire`. What a run keeps is derived from these descriptions.

Main results: `callbackStep_move`, `clientStep_move`, `clientStep_threads`.
-/

namespace ADTimePix3.Acquire

/-! ## `acquireStop` -/

/-- Between clearing the flag and resetting `ADAcquire`. -/
def StopPc.inner (pc : StopPc) : Prop := pc ≠ .clear ∧ pc ≠ .readBack

/-- A step of `acquireStop`: from and to where, and `acquiring` and `ADAcquire` after it. -/
inductive StopMove (input : Input) (s : State) : StopPc → Option StopPc → Bool → ℤ → Prop
  | clear : StopMove input s .clear (some .join) false s.adAcquire
  | inner {pc pc' : StopPc} (h : pc.inner) (h' : pc'.inner) : StopMove input s pc (some pc') s.acquiring s.adAcquire
  | failed (h : input.response.status_code ≠ 200) : StopMove input s .request none s.acquiring s.adAcquire
  | publish : StopMove input s .publish (some .readBack) s.acquiring 0
  | back : StopMove input s .readBack none s.acquiring s.adAcquire

/-- What only the client changes. -/
structure State.Kept (s s' : State) : Prop where
  threads : s'.threads = s.threads
  measurement : s'.measurement = s.measurement
  client : s'.client = s.client

theorem acquireStop_move {self : Option ℕ} {pc : StopPc} {input : Input} {s s' : State} {next : Option StopPc}
    (h : acquireStop self pc input s = some (s', next)) :
    StopMove input s pc next s'.acquiring s'.adAcquire ∧ s.Kept s' := by
  have kept : s.Kept s := ⟨rfl, rfl, rfl⟩
  cases pc with
  | clear =>
    obtain ⟨rfl, rfl⟩ := Prod.mk.inj (Option.some.inj h)
    exact ⟨.clear, rfl, rfl, rfl⟩
  | join =>
    simp only [acquireStop] at h
    split at h
    · obtain ⟨rfl, rfl⟩ := Prod.mk.inj (Option.some.inj h)
      refine ⟨.inner (by simp [StopPc.inner]) ?_, kept⟩
      split <;> simp [StopPc.inner]
    · obtain ⟨rfl, rfl⟩ := Prod.mk.inj (Option.some.inj h)
      exact ⟨.inner (by simp [StopPc.inner]) (by simp [StopPc.inner]), kept⟩
  | joining thread =>
    simp only [acquireStop] at h
    split at h
    · obtain ⟨rfl, rfl⟩ := Prod.mk.inj (Option.some.inj h)
      exact ⟨.inner (by simp [StopPc.inner]) (by simp [StopPc.inner]), kept⟩
    · cases h
  | clearId =>
    obtain ⟨rfl, rfl⟩ := Prod.mk.inj (Option.some.inj h)
    exact ⟨.inner (by simp [StopPc.inner]) (by simp [StopPc.inner]), rfl, rfl, rfl⟩
  | workers =>
    obtain ⟨rfl, rfl⟩ := Prod.mk.inj (Option.some.inj h)
    exact ⟨.inner (by simp [StopPc.inner]) (by simp [StopPc.inner]), kept⟩
  | request =>
    simp only [acquireStop] at h
    split at h
    next hstatus =>
      obtain ⟨rfl, rfl⟩ := Prod.mk.inj (Option.some.inj h)
      exact ⟨.failed hstatus, rfl, rfl, rfl⟩
    next hstatus =>
      obtain ⟨rfl, rfl⟩ := Prod.mk.inj (Option.some.inj h)
      rw [State.stopRequest, if_pos (not_not.mp hstatus)]
      exact ⟨.inner (by simp [StopPc.inner]) (by simp [StopPc.inner]), rfl, rfl, rfl⟩
  | publish =>
    obtain ⟨rfl, rfl⟩ := Prod.mk.inj (Option.some.inj h)
    exact ⟨.publish, rfl, rfl, rfl⟩
  | readBack =>
    simp only [acquireStop] at h
    split at h
    · obtain ⟨rfl, rfl⟩ := Prod.mk.inj (Option.some.inj h)
      exact ⟨.back, kept⟩
    · obtain ⟨_, -, h⟩ := Option.map_eq_some_iff.mp h
      obtain ⟨rfl, rfl⟩ := Prod.mk.inj h
      exact ⟨.back, kept⟩

/-! ## `timePixCallback` -/

/-- A step of a callback thread. -/
inductive CallbackMove (input : Input) (s : State) : CallbackPc → CallbackPc → Bool → ℤ → Prop
  | ready : CallbackMove input s .firstGet .loopHead s.acquiring s.adAcquire
  | abort (h : ¬ (input.response.status_code = 200 ∧ input.response.json.isSome = true)) :
    CallbackMove input s .firstGet .finished false s.adAcquire
  | enter (h : s.acquiring = true) : CallbackMove input s .loopHead .poll s.acquiring s.adAcquire
  | leave (h : s.acquiring = false) : CallbackMove input s .loopHead .finished s.acquiring s.adAcquire
  | poll {pc' : CallbackPc} (h : pc' = .polled ∨ pc' = .afterPoll) :
    CallbackMove input s .poll pc' s.acquiring s.adAcquire
  | pollAborts (h : ¬ (input.response.status_code ≠ 200 ∨ input.response.json.isSome = true)) :
    CallbackMove input s .poll .afterPoll false s.adAcquire
  | polled {pc' : CallbackPc} (h : pc' = .poll ∨ pc' = .afterPoll) :
    CallbackMove input s .polled pc' s.acquiring s.adAcquire
  | afterPoll {pc' : CallbackPc} (h : pc' = .stop .clear ∨ pc' = .loopHead) :
    CallbackMove input s .afterPoll pc' s.acquiring s.adAcquire
  | stop {pc : StopPc} {next : Option StopPc} {acquiring : Bool} {adAcquire : ℤ}
    (h : StopMove input s pc next acquiring adAcquire) :
    CallbackMove input s (.stop pc) (next.elim .loopHead .stop) acquiring adAcquire

theorem callbackStep_move {thread : ℕ} {input : Input} {s s' : State} (h : callbackStep thread input s = some s') :
    ∃ t t', s.threads[thread]? = some t ∧ s'.threads = s.threads.set thread t' ∧
      t'.measurement = t.measurement ∧ s'.measurement = s.measurement ∧ s'.client = s.client ∧
      CallbackMove input s t.pc t'.pc s'.acquiring s'.adAcquire := by
  unfold callbackStep at h
  cases ht : s.threads[thread]? with
  | none =>
    rw [ht] at h
    cases h
  | some t =>
    rw [ht] at h
    obtain ⟨pc, measurement, frameCounter, new_frame_num, isIdle⟩ := t
    cases pc with
    | firstGet =>
      simp only at h
      split at h
      next hstatus =>
        rw [← Option.some.inj h]
        exact ⟨_, _, rfl, rfl, rfl, rfl, rfl, .abort fun hgood => hstatus hgood.1⟩
      next =>
        split at h
        next hjson =>
          rw [← Option.some.inj h]
          refine ⟨_, _, rfl, rfl, rfl, rfl, rfl, .abort ?_⟩
          rintro ⟨-, hsome⟩
          rw [hjson] at hsome
          cases hsome
        next =>
          rw [← Option.some.inj h]
          exact ⟨_, _, rfl, rfl, rfl, rfl, rfl, .ready⟩
    | loopHead =>
      rw [← Option.some.inj h]
      refine ⟨_, _, rfl, rfl, rfl, rfl, rfl, ?_⟩
      by_cases hacquiring : s.acquiring = true
      · simp only [hacquiring, if_true]
        exact .enter hacquiring
      · rw [Bool.not_eq_true] at hacquiring
        simp only [hacquiring, Bool.false_eq_true, if_false]
        exact .leave hacquiring
    | poll =>
      simp only at h
      split at h
      next =>
        rw [← Option.some.inj h]
        exact ⟨_, _, rfl, rfl, rfl, rfl, rfl, .poll (Or.inr rfl)⟩
      next hstatus =>
        split at h
        next hjson =>
          rw [← Option.some.inj h]
          refine ⟨_, _, rfl, rfl, rfl, rfl, rfl, .pollAborts ?_⟩
          rintro (hbad | hsome)
          · exact hstatus hbad
          · rw [hjson] at hsome
            cases hsome
        next =>
          rw [← Option.some.inj h]
          exact ⟨_, _, rfl, rfl, rfl, rfl, rfl, .poll (Or.inl rfl)⟩
    | polled =>
      rw [← Option.some.inj h]
      refine ⟨_, _, rfl, rfl, rfl, rfl, rfl, .polled ?_⟩
      split
      · exact Or.inr rfl
      · exact Or.inl rfl
    | afterPoll =>
      rw [← Option.some.inj h]
      refine ⟨_, _, rfl, rfl, rfl, rfl, rfl, .afterPoll ?_⟩
      split
      · exact Or.inl rfl
      · exact Or.inr rfl
    | stop pc =>
      obtain ⟨⟨s₁, next⟩, hstop, h⟩ := Option.map_eq_some_iff.mp h
      obtain ⟨hmove, hkept⟩ := acquireStop_move hstop
      rw [← h]
      refine ⟨_, ⟨next.elim .loopHead .stop, measurement, frameCounter, new_frame_num, isIdle⟩, rfl, ?_, rfl,
        hkept.measurement, hkept.client, .stop hmove⟩
      show s₁.threads.set thread _ = _
      rw [hkept.threads]
    | finished => cases h

/-! ## The client -/

/-- A start before its request has been answered. -/
def StartPc.preparing : StartPc → Prop
  | .create | .assign _ | .setFlag | .streams => False
  | _ => True

/-- The input makes the start fail here. -/
def StartPc.fails (input : Input) : StartPc → Prop
  | .trigger => mpx3BothCountersTriggerConflict input.trigger = true
  | .ports | .rotate => input.portsFree = false
  | .request => input.response.status_code ≠ 200 ∧ input.response.addressInUse = false
  | .retry => input.response.status_code ≠ 200
  | _ => False

/-- A step of the client. -/
inductive ClientMove (input : Input) (s : State) : ClientPc → ClientPc → Bool → ℤ → Prop
  | set (write : Write) (acquiring : ℤ) :
    ClientMove input s (.set write acquiring) (write.next acquiring) s.acquiring (write.setParam s).adAcquire
  | prepare {pc pc' : StartPc} (h : pc.preparing) (h' : pc'.preparing) :
    ClientMove input s (.start pc) (.start pc') s.acquiring s.adAcquire
  | startFails {pc : StartPc} (h : pc.fails input) : ClientMove input s (.start pc) .idle s.acquiring s.adAcquire
  | started {pc : StartPc} (h : pc = .request ∨ pc = .retry) (hstatus : input.response.status_code = 200) :
    ClientMove input s (.start pc) (.start .create) s.acquiring s.adAcquire
  | create (thread : ℕ) : ClientMove input s (.start .create) (.start (.assign thread)) s.acquiring s.adAcquire
  | assign (thread : ℕ) : ClientMove input s (.start (.assign thread)) (.start .setFlag) s.acquiring s.adAcquire
  | setFlag : ClientMove input s (.start .setFlag) (.start .streams) true s.adAcquire
  | streams : ClientMove input s (.start .streams) .idle s.acquiring s.adAcquire
  | stop {pc : StopPc} {next : Option StopPc} {acquiring : Bool} {adAcquire : ℤ}
    (h : StopMove input s pc next acquiring adAcquire) :
    ClientMove input s (.stop pc) (next.elim .idle .stop) acquiring adAcquire

theorem State.stopRequest_acquiring (r : Response) (s : State) : (s.stopRequest r).acquiring = s.acquiring := by
  unfold State.stopRequest
  split <;> rfl

theorem State.stopRequest_adAcquire (r : Response) (s : State) : (s.stopRequest r).adAcquire = s.adAcquire := by
  unfold State.stopRequest
  split <;> rfl

theorem State.stopRequest_kept (r : Response) (s : State) : s.Kept (s.stopRequest r) := by
  unfold State.stopRequest
  split <;> exact ⟨rfl, rfl, rfl⟩

theorem acquireStart_move (pc : StartPc) (input : Input) (s : State) :
    ClientMove input s (.start pc) (acquireStart pc input s).client (acquireStart pc input s).acquiring
      (acquireStart pc input s).adAcquire := by
  cases pc with
  | workers => exact .prepare trivial trivial
  | trigger =>
    simp only [acquireStart]
    split
    next hconflict => exact .startFails hconflict
    next => exact .prepare trivial trivial
  | stopPrior =>
    simp only [acquireStart, State.stopRequest_acquiring, State.stopRequest_adAcquire]
    exact .prepare trivial trivial
  | checkPrior =>
    refine .prepare trivial ?_
    split <;> trivial
  | stopRunning =>
    simp only [acquireStart, State.stopRequest_acquiring, State.stopRequest_adAcquire]
    exact .prepare trivial trivial
  | ports =>
    simp only [acquireStart]
    split
    next => exact .prepare trivial trivial
    next hports => exact .startFails (Bool.eq_false_iff.mpr hports)
  | request =>
    simp only [acquireStart]
    split
    next hstatus => exact .started (Or.inl rfl) hstatus
    next hstatus =>
      split
      next => exact .prepare trivial trivial
      next huse => exact .startFails ⟨hstatus, Bool.eq_false_iff.mpr huse⟩
  | rotate =>
    simp only [acquireStart]
    split
    next => exact .prepare trivial trivial
    next hports => exact .startFails (Bool.eq_false_iff.mpr hports)
  | retry =>
    simp only [acquireStart]
    split
    next hstatus => exact .started (Or.inr rfl) hstatus
    next hstatus => exact .startFails hstatus
  | create => exact .create _
  | assign thread => exact .assign thread
  | setFlag => exact .setFlag
  | streams => exact .streams

theorem Write.setParam_acquiring (write : Write) (s : State) : (write.setParam s).acquiring = s.acquiring := by
  cases write <;> rfl

theorem Write.setParam_kept (write : Write) (s : State) : s.Kept (write.setParam s) := by
  cases write <;> exact ⟨rfl, rfl, rfl⟩

theorem clientStep_move {input : Input} {s s' : State} (h : clientStep input s = some s') :
    ClientMove input s s.client s'.client s'.acquiring s'.adAcquire := by
  unfold clientStep at h
  cases hclient : s.client with
  | idle =>
    rw [hclient] at h
    cases h
  | set write acquiring =>
    rw [hclient] at h
    rw [← Option.some.inj h]
    show ClientMove _ _ _ _ (write.setParam s).acquiring _
    rw [write.setParam_acquiring]
    exact .set write acquiring
  | start pc =>
    rw [hclient] at h
    rw [← Option.some.inj h]
    exact acquireStart_move pc input s
  | stop pc =>
    rw [hclient] at h
    obtain ⟨⟨s₁, next⟩, hstop, h⟩ := Option.map_eq_some_iff.mp h
    rw [← h]
    exact .stop (acquireStop_move hstop).1

theorem Write.next_cases (write : Write) (acquiring : ℤ) :
    write.next acquiring = .idle ∨ write.next acquiring = .start .workers ∨ write.next acquiring = .stop .clear := by
  cases write <;> simp only [Write.next] <;> split_ifs <;> simp

theorem startFailed_client (addressInUse : Bool) (s : State) : (startFailed addressInUse s).client = .idle := rfl

/-- A step of a start that is still being prepared. -/
theorem acquireStart_threads {pc : StartPc} {input : Input} {s : State} (hclient : s.client = .start pc)
    (hpc : pc.preparing) :
    ((acquireStart pc input s).threads = s.threads ∧ (acquireStart pc input s).measurement = s.measurement ∧
        (acquireStart pc input s).client ≠ .start .create) ∨
      (startAnswered s input = true ∧ (acquireStart pc input s).threads = s.threads) := by
  cases pc with
  | workers => exact Or.inl ⟨rfl, rfl, by simp [acquireStart]⟩
  | trigger =>
    simp only [acquireStart]
    split <;> exact Or.inl ⟨rfl, rfl, by simp⟩
  | stopPrior =>
    have hkept := State.stopRequest_kept input.response s
    exact Or.inl ⟨hkept.threads, hkept.measurement, by simp [acquireStart]⟩
  | checkPrior =>
    refine Or.inl ⟨rfl, rfl, ?_⟩
    simp only [acquireStart]
    split <;> simp
  | stopRunning =>
    have hkept := State.stopRequest_kept input.response s
    exact Or.inl ⟨hkept.threads, hkept.measurement, by simp [acquireStart]⟩
  | ports =>
    simp only [acquireStart]
    split <;> exact Or.inl ⟨rfl, rfl, by simp⟩
  | request =>
    simp only [acquireStart]
    split
    next hstatus => exact Or.inr ⟨by simp [startAnswered, hclient, hstatus], rfl⟩
    next =>
      split
      · exact Or.inl ⟨rfl, rfl, by simp⟩
      · exact Or.inl ⟨rfl, rfl, by simp [startFailed_client]⟩
  | rotate =>
    simp only [acquireStart]
    split
    · exact Or.inl ⟨rfl, rfl, by simp⟩
    · exact Or.inl ⟨rfl, rfl, by simp [startFailed_client]⟩
  | retry =>
    simp only [acquireStart]
    split
    next hstatus => exact Or.inr ⟨by simp [startAnswered, hclient, hstatus], rfl⟩
    next => exact Or.inl ⟨rfl, rfl, by simp [startFailed_client]⟩
  | create | assign _ | setFlag | streams => exact hpc.elim

/-- What the client does to the threads: it starts a measurement, creates its thread, or leaves them alone. -/
theorem clientStep_threads {input : Input} {s s' : State} (h : clientStep input s = some s') :
    (s'.threads = s.threads ∧ s'.measurement = s.measurement ∧ s'.client ≠ .start .create) ∨
      (startAnswered s input = true ∧ s'.threads = s.threads) ∨
      (s.client = .start .create ∧ s'.threads = s.threads ++ [⟨.firstGet, s.measurement, 0, 0, false⟩] ∧
        s'.measurement = s.measurement ∧ s'.client ≠ .start .create) := by
  unfold clientStep at h
  cases hclient : s.client with
  | idle =>
    rw [hclient] at h
    cases h
  | set write acquiring =>
    rw [hclient] at h
    rw [← Option.some.inj h]
    refine Or.inl ⟨(write.setParam_kept s).threads, (write.setParam_kept s).measurement, ?_⟩
    rcases write.next_cases acquiring with hnext | hnext | hnext <;> simp [hnext]
  | start pc =>
    rw [hclient] at h
    rw [← Option.some.inj h]
    cases pc with
    | create => exact Or.inr (Or.inr ⟨rfl, rfl, rfl, by simp [acquireStart]⟩)
    | assign thread => exact Or.inl ⟨rfl, rfl, by simp [acquireStart]⟩
    | setFlag => exact Or.inl ⟨rfl, rfl, by simp [acquireStart]⟩
    | streams => exact Or.inl ⟨rfl, rfl, by simp [acquireStart]⟩
    | workers | trigger | stopPrior | checkPrior | stopRunning | ports | request | rotate | retry =>
      rcases acquireStart_threads hclient trivial with hsame | hstarted
      · exact Or.inl hsame
      · exact Or.inr (Or.inl hstarted)
  | stop pc =>
    rw [hclient] at h
    obtain ⟨⟨s₁, next⟩, hstop, h⟩ := Option.map_eq_some_iff.mp h
    obtain ⟨-, hkept⟩ := acquireStop_move hstop
    rw [← h]
    refine Or.inl ⟨hkept.threads, hkept.measurement, ?_⟩
    cases next <;> simp

end ADTimePix3.Acquire
