import ADTimePix3.Acquire.Proofs.ThreadsProofs

/-!
# Proofs: one callback thread at a time

As long as no callback thread is left when a measurement is started, there is never more than one, and it is
that of the last measurement. `acquireStop` on a callback thread resets `ADAcquire` before it returns; a start
that falls between finds the flag off, and sets it again for the thread that is about to look at it.

Main results: `single_of_startsAlone`, `two_pollers`.
-/

namespace ADTimePix3.Acquire

open ADTimePix3.Stream (Json)

/-- There is at most one callback thread, and it is that of the last measurement. -/
structure State.Single (s : State) : Prop where
  unique : ∀ (i j : ℕ) (t u : CallbackThread), s.threads[i]? = some t → s.threads[j]? = some u →
    t.pc ≠ .finished → u.pc ≠ .finished → i = j
  current : ∀ t ∈ s.threads, t.pc ≠ .finished → t.measurement = s.measurement
  creating : s.client = .start .create → s.Alone

theorem State.Single.of_alone {s : State} (h : s.Alone) : s.Single where
  unique := by
    intro i j t u ht _ hlive _
    exact absurd (h t (List.mem_of_getElem? ht)) hlive
  current := by
    intro t ht hlive
    exact absurd (h t ht) hlive
  creating := fun _ => h

theorem State.Single.same {s s' : State} (h : s.Single) (hthreads : s'.threads = s.threads)
    (hmeasurement : s'.measurement = s.measurement) (hclient : s'.client ≠ .start .create) : s'.Single where
  unique := by
    rw [hthreads]
    exact h.unique
  current := by
    rw [hthreads, hmeasurement]
    exact h.current
  creating := fun hcreate => absurd hcreate hclient

/-- A new thread where there is no other. -/
theorem State.Single.create {s s' : State} (hAlone : s.Alone)
    (hthreads : s'.threads = s.threads ++ [⟨.firstGet, s.measurement, 0, 0, false⟩])
    (hmeasurement : s'.measurement = s.measurement) (hclient : s'.client ≠ .start .create) : s'.Single where
  unique := by
    have hlast : ∀ (i : ℕ) (t : CallbackThread), s'.threads[i]? = some t → t.pc ≠ .finished → i = s.threads.length := by
      intro i t ht hlive
      rw [hthreads, List.getElem?_append] at ht
      split at ht
      next hlt => exact absurd (hAlone t (List.mem_of_getElem? ht)) hlive
      next hge =>
        have hi := (List.getElem?_eq_some_iff.mp ht).1
        rw [List.length_singleton] at hi
        omega
    intro i j t u ht hu hlive hlive'
    rw [hlast i t ht hlive, hlast j u hu hlive']
  current := by
    intro t ht hlive
    rw [hthreads] at ht
    rcases List.mem_append.mp ht with hold | hnew
    · exact absurd (hAlone t hold) hlive
    · rw [List.mem_singleton.mp hnew, hmeasurement]
  creating := fun hcreate => absurd hcreate hclient

/-- A finished thread does nothing. -/
theorem CallbackMove.not_finished {input : Input} {s : State} {pc pc' : CallbackPc} {acquiring : Bool}
    {adAcquire : ℤ} (h : CallbackMove input s pc pc' acquiring adAcquire) : pc ≠ .finished := by
  intro hpc
  subst hpc
  cases h

theorem State.Single.callback {s s' : State} {i : ℕ} {t t' : CallbackThread} (h : s.Single)
    (ht : s.threads[i]? = some t) (hlive : t.pc ≠ .finished) (hthreads : s'.threads = s.threads.set i t')
    (hmeasurement' : t'.measurement = t.measurement) (hmeasurement : s'.measurement = s.measurement)
    (hclient : s'.client = s.client) : s'.Single where
  unique := by
    have hlast : ∀ (j : ℕ) (u : CallbackThread), s'.threads[j]? = some u → u.pc ≠ .finished → j = i := by
      intro j u hu hlive'
      by_cases hji : j = i
      · exact hji
      · rw [hthreads, List.getElem?_set_ne (Ne.symm hji)] at hu
        exact h.unique j i u t hu ht hlive' hlive
    intro j k u v hu hv hlive' hlive''
    rw [hlast j u hu hlive', hlast k v hv hlive'']
  current := by
    intro u hu hlive'
    rw [hthreads] at hu
    rw [hmeasurement]
    rcases List.mem_or_eq_of_mem_set hu with hold | rfl
    · exact h.current u hold hlive'
    · rw [hmeasurement']
      exact h.current t (List.mem_of_getElem? ht) hlive
  creating := by
    intro hcreate
    have halone := h.creating (hclient ▸ hcreate)
    exact absurd (halone t (List.mem_of_getElem? ht)) hlive

theorem State.Single.step {s s' : State} {a : Action} (h : s.Single) (hguard : StartsAlone s a)
    (hstep : step s a = some s') : s'.Single := by
  cases a with
  | write write =>
    simp only [Acquire.step] at hstep
    split at hstep
    · rw [← Option.some.inj hstep]
      exact h.same rfl rfl (by simp)
    · cases hstep
  | client input =>
    rcases clientStep_threads hstep with ⟨hthreads, hmeasurement, hclient⟩ | ⟨hanswered, hthreads⟩ |
      ⟨hcreate, hthreads, hmeasurement, hclient⟩
    · exact h.same hthreads hmeasurement hclient
    · refine State.Single.of_alone ?_
      intro t ht
      rw [hthreads] at ht
      exact hguard hanswered t ht
    · exact State.Single.create (h.creating hcreate) hthreads hmeasurement hclient
  | callback thread input =>
    obtain ⟨t, t', ht, hthreads, hmeasurement', hmeasurement, hclient, hmove⟩ := callbackStep_move hstep
    exact h.callback ht hmove.not_finished hthreads hmeasurement' hmeasurement hclient
  | measurementEnds =>
    simp only [Acquire.step] at hstep
    split at hstep
    · rw [← Option.some.inj hstep]
      exact ⟨h.unique, h.current, h.creating⟩
    · cases hstep

theorem CallbackPc.live_of_inLoop {pc : CallbackPc} (h : pc.inLoop = true) : pc ≠ .finished := by
  rintro rfl
  cases h

theorem CallbackPc.live_of_takesEffect {pc : CallbackPc} (h : pc.takesEffect = true) : pc ≠ .finished := by
  rintro rfl
  cases h

/-- When every measurement is started with no callback thread left, at most one of them is ever in its polling
loop, and a stop on a callback thread takes effect on its own measurement only. -/
theorem single_of_startsAlone {events : List Action} {s : State}
    (halone : Runs.Guarded step StartsAlone State.init events) (hrun : Runs.run step State.init events = some s) :
    s.OnePoller ∧ s.OwnStops := by
  have hinit : State.init.Single := State.Single.of_alone (by simp [State.Alone, State.init])
  have hs : s.Single := Runs.run_invariant (fun s a s' h hguard hstep => h.step hguard hstep) hinit halone hrun
  constructor
  · intro i j t u ht hu hloop hloop'
    exact hs.unique i j t u ht hu (CallbackPc.live_of_inLoop hloop) (CallbackPc.live_of_inLoop hloop')
  · intro t ht heffect
    exact hs.current t ht (CallbackPc.live_of_takesEffect heffect)

/-! ## A run with two measurements -/

def measurementDocument (measuring : Bool) : Json :=
  .object [("Info", .object [("FrameCount", .number_integer 0),
    ("Status", .string (if measuring then "DA_RECORDING" else "DA_IDLE"))])]

/-- What the steps find while the server is measuring, and when it is not. -/
def answer (measuring : Bool) : Input :=
  ⟨⟨200, "OK", some (measurementDocument measuring)⟩, true, ⟨false, 0, 0⟩⟩

/-- `ADAcquire` = 1, with all of `acquireStart`. -/
def startEvents : List Action :=
  .write (.adAcquire 1) :: List.replicate 7 (.client (answer false)) ++ List.replicate 4 (.client (answer true))

/-- A measurement that ends by itself: the callback thread sees it, and stops up to `ADAcquire` = 0. -/
def endEvents : List Action :=
  List.replicate 4 (.callback 0 (answer true)) ++ [.measurementEnds] ++
    List.replicate 9 (.callback 0 (answer false))

/-- The next measurement is started before the callback thread has left `acquireStop`. -/
def overlapEvents : List Action :=
  startEvents ++ endEvents ++ startEvents ++ [.callback 0 (answer true), .callback 0 (answer true)]

/-- Both callback threads go to their polling loops; the first one still has `isIdle`, and goes on to stop. -/
def twoPollersEvents : List Action :=
  overlapEvents ++ List.replicate 2 (.callback 1 (answer true))

def foreignStopEvents : List Action :=
  overlapEvents ++ List.replicate 3 (.callback 0 (answer true))

/-- The same two measurements, the second one started when the callback thread of the first has finished. -/
def separateEvents : List Action :=
  startEvents ++ endEvents ++ List.replicate 2 (.callback 0 (answer false)) ++ startEvents ++
    List.replicate 2 (.callback 1 (answer true))

theorem single_separate :
    Runs.Guarded step StartsAlone State.init separateEvents ∧
      ∃ s, Runs.run step State.init separateEvents = some s ∧ s.OnePoller ∧ s.OwnStops := by
  have halone : Runs.Guarded step StartsAlone State.init separateEvents := by decide +kernel
  have hsome : (Runs.run step State.init separateEvents).isSome = true := by decide +kernel
  obtain ⟨s, hs⟩ := Option.isSome_iff_exists.mp hsome
  exact ⟨halone, s, hs, single_of_startsAlone halone hs⟩

/-- With a server that answers everything: two callback threads in their polling loops, and a stop that is not of
its own measurement. -/
theorem two_pollers :
    (Runs.Guarded step Honest State.init twoPollersEvents ∧
      ∃ s, Runs.run step State.init twoPollersEvents = some s ∧ ¬ s.OnePoller) ∧
    Runs.Guarded step Honest State.init foreignStopEvents ∧
      ∃ s, Runs.run step State.init foreignStopEvents = some s ∧ ¬ s.OwnStops := by
  refine ⟨⟨by decide +kernel, ?_⟩, by decide +kernel, ?_⟩
  · have hthreads : (Runs.run step State.init twoPollersEvents).map State.threads =
        some [⟨.poll, 1, 0, 0, true⟩, ⟨.poll, 2, 0, 0, false⟩] := by decide +kernel
    obtain ⟨s, hs, hthreads⟩ := Option.map_eq_some_iff.mp hthreads
    refine ⟨s, hs, ?_⟩
    intro hone
    have h01 := hone 0 1 ⟨.poll, 1, 0, 0, true⟩ ⟨.poll, 2, 0, 0, false⟩ (by rw [hthreads]; rfl)
      (by rw [hthreads]; rfl) rfl rfl
    cases h01
  · have hthreads : (Runs.run step State.init foreignStopEvents).map (fun s => (s.threads, s.measurement)) =
        some ([⟨.stop .clear, 1, 0, 0, true⟩, ⟨.firstGet, 2, 0, 0, false⟩], 2) := by decide +kernel
    obtain ⟨s, hs, hthreads⟩ := Option.map_eq_some_iff.mp hthreads
    obtain ⟨hthreads, hmeasurement⟩ := Prod.mk.inj hthreads
    refine ⟨s, hs, ?_⟩
    intro hown
    have hfirst := hown ⟨.stop .clear, 1, 0, 0, true⟩ (by rw [hthreads]; exact List.mem_cons_self ..) rfl
    rw [hmeasurement] at hfirst
    cases hfirst

end ADTimePix3.Acquire
