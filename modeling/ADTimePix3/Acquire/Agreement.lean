import ADTimePix3.Acquire.Threads

/-!
# Agreement of the threads

What `ADAcquire` and the flag `acquiring` owe each other when nothing is under way, and what a callback thread may
do to a measurement that is not its own; with the conditions on the steps of a run under which the threads keep
to it.
-/

namespace ADTimePix3.Acquire

/-! ## Places in the code -/

/-- The stop is still going to reset `ADAcquire`, if its request succeeds. -/
def StopPc.stopComing (pc : StopPc) : Bool := pc ≠ .readBack

def ClientPc.stopComing : ClientPc → Bool
  | .stop pc => pc.stopComing
  | .set write acquiring =>
    match write.next acquiring with
    | .stop pc => pc.stopComing
    | _ => false
  | _ => false

def CallbackPc.stopComing : CallbackPc → Bool
  | .stop pc => pc.stopComing
  | _ => false

/-- The callback thread is in its polling loop. -/
def CallbackPc.inLoop : CallbackPc → Bool
  | .poll | .polled | .afterPoll | .stop _ => true
  | _ => false

/-- The step clears `acquiring`, resets the accumulation or sends `/measurement/stop`. -/
def CallbackPc.takesEffect : CallbackPc → Bool
  | .stop .clear | .stop .workers | .stop .request => true
  | _ => false

/-! ## Properties -/

namespace State

/-- No write is under way, and no callback thread is in `acquireStop`. -/
def Quiescent (s : State) : Prop :=
  s.client = .idle ∧ ∀ t ∈ s.threads, ∀ pc, t.pc ≠ .stop pc

/-- The flag is on exactly when `ADAcquire` is 1, and when it is off, `ADAcquire` = 1 starts an acquisition. -/
structure Agrees (s : State) : Prop where
  flag : s.adAcquire = 1 ↔ s.acquiring = true
  restart : s.acquiring = false → ∀ input,
    (Runs.run step s [.write (.adAcquire 1), .client input]).map State.client = some (.start .workers)

def OnePoller (s : State) : Prop :=
  ∀ (i j : ℕ) (t u : CallbackThread), s.threads[i]? = some t → s.threads[j]? = some u →
    t.pc.inLoop = true → u.pc.inLoop = true → i = j

/-- A callback thread takes effect on its own measurement only. -/
def OwnStops (s : State) : Prop :=
  ∀ t ∈ s.threads, t.pc.takesEffect = true → t.measurement = s.measurement

/-- No callback thread is left. -/
def Alone (s : State) : Prop := ∀ t ∈ s.threads, t.pc = .finished

/-- What clears the flag now is made good by a stop, or changes nothing. -/
def MayClear (s : State) : Prop := s.acquiring = false ∨ s.adAcquire ≠ 1 ∨ s.client.stopComing = true

instance (s : State) : Decidable s.Alone := inferInstanceAs (Decidable (∀ t ∈ s.threads, t.pc = .finished))

instance (s : State) : Decidable s.MayClear :=
  inferInstanceAs (Decidable (s.acquiring = false ∨ s.adAcquire ≠ 1 ∨ s.client.stopComing = true))

end State

/-! ## Conditions on a run -/

/-- The server answers 200 to `/measurement/start`. -/
def startAnswered (s : State) (input : Input) : Bool :=
  (s.client = .start .request || s.client = .start .retry) && input.response.status_code = 200

/-- When a measurement starts, no callback thread of an earlier one is left. -/
def StartsAlone (s : State) : Action → Prop
  | .client input => startAnswered s input = true → s.Alone
  | _ => True

/-- The client's step neither fails a start or a stop nor misses that a callback thread has stopped. -/
def ClientOrderly (s : State) (input : Input) : Prop :=
  match s.client with
  | .set (.adAcquire value) acquiring => (value = 0 ∨ value = 1) ∧ (value = 1 → acquiring = s.adAcquire)
  | .start .trigger => mpx3BothCountersTriggerConflict input.trigger = false
  | .start .ports | .start .rotate => input.portsFree = true
  | .start .request =>
    input.response.status_code = 200 ∧ s.adAcquire = 1 ∨
      input.response.status_code ≠ 200 ∧ input.response.addressInUse = true
  | .start .retry => input.response.status_code = 200 ∧ s.adAcquire = 1
  | .stop .request =>
    input.response.status_code = 200 ∨ s.adAcquire ≠ 1 ∨ ∃ t ∈ s.threads, t.pc.stopComing = true
  | _ => True

/-- The callback thread's step does not give up its measurement, and its stop does not fail. -/
def CallbackOrderly (s : State) (input : Input) : CallbackPc → Prop
  | .firstGet => (input.response.status_code = 200 ∧ input.response.json.isSome = true) ∨ s.MayClear
  | .poll => (input.response.status_code ≠ 200 ∨ input.response.json.isSome = true) ∨ s.MayClear
  | .stop .request => input.response.status_code = 200 ∨ s.adAcquire ≠ 1 ∨ s.client.stopComing = true
  | _ => True

def Orderly (s : State) : Action → Prop
  | .client input => StartsAlone s (.client input) ∧ ClientOrderly s input
  | .callback thread input => ∀ t ∈ s.threads[thread]?, CallbackOrderly s input t.pc
  | .write _ | .measurementEnds => True

/-- The server answers every request, and says what is the case. -/
def Honest (s : State) : Action → Prop
  | .client input | .callback _ input =>
    input.response.status_code = 200 ∧
      input.response.json.map reportsIdle = some (!s.measuring) ∧ input.portsFree = true ∧
      mpx3BothCountersTriggerConflict input.trigger = false
  | .write _ | .measurementEnds => True

instance (s : State) (a : Action) : Decidable (StartsAlone s a) := by
  cases a <;> unfold StartsAlone <;> infer_instance

instance (s : State) (input : Input) : Decidable (ClientOrderly s input) := by
  unfold ClientOrderly
  split <;> infer_instance

instance (s : State) (input : Input) (pc : CallbackPc) : Decidable (CallbackOrderly s input pc) := by
  unfold CallbackOrderly
  split <;> infer_instance

instance (s : State) (a : Action) : Decidable (Orderly s a) := by
  cases a with
  | callback thread input =>
    exact match h : s.threads[thread]? with
      | none => isTrue (by simp [Orderly, h])
      | some t => decidable_of_iff (CallbackOrderly s input t.pc) (by simp [Orderly, h])
  | write _ => exact isTrue trivial
  | client input => exact inferInstanceAs (Decidable (StartsAlone s (.client input) ∧ ClientOrderly s input))
  | measurementEnds => exact isTrue trivial

instance (s : State) (a : Action) : Decidable (Honest s a) := by
  cases a <;> unfold Honest <;> infer_instance

end ADTimePix3.Acquire
