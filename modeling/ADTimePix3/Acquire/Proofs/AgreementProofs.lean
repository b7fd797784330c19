import ADTimePix3.Acquire.Proofs.OverlapProofs

/-!
# Proofs: `ADAcquire` and the flag

In an orderly run `ADAcquire` is 1 with the flag off only while a start or a stop is still to come that ends it,
and the flag is on with `ADAcquire` = 0 only between a write of 0 and the first statement of its stop. A start or
a stop that fails, or a measurement that is given up, leaves `ADAcquire` = 1 behind, and then no write of 1
starts an acquisition.

Main results: `agrees_of_orderly`, `stuck_after_failed_start`.
-/

namespace ADTimePix3.Acquire

/-! ## The invariant -/

/-- The client is in `acquireStart` and has not set the flag yet. -/
def ClientPc.starting : ClientPc → Prop
  | .start pc => pc ≠ .streams
  | _ => False

/-- The measurement has been started, and the flag is still to be set. -/
def ClientPc.begun : ClientPc → Prop
  | .start .create | .start (.assign _) | .start .setFlag => True
  | _ => False

/-- Nothing a callback thread can do here touches `ADAcquire`, as long as the flag is off. -/
def CallbackPc.early (pc : CallbackPc) : Prop := pc = .firstGet ∨ pc = .loopHead ∨ pc = .finished

/-- A stop is on its way that will reset `ADAcquire`. -/
def State.StopComing (s : State) : Prop :=
  s.client.stopComing = true ∨ ∃ (i : ℕ) (t : CallbackThread), s.threads[i]? = some t ∧ t.pc.stopComing = true

structure State.Settling (s : State) : Prop where
  value : s.adAcquire = 0 ∨ s.adAcquire = 1
  on : s.acquiring = true → s.adAcquire = 1 ∨ s.client = .stop .clear
  off : s.acquiring = false → s.adAcquire = 1 → s.StopComing ∨ s.client.starting
  clientCleared : ∀ pc, s.client = .stop pc → pc ≠ .clear → s.acquiring = false
  cleared : ∀ (i : ℕ) (t : CallbackThread), s.threads[i]? = some t →
    ∀ pc, t.pc = .stop pc → pc ≠ .clear → s.acquiring = false
  read : ∀ write, s.client = .set write 0 → s.adAcquire = 0
  starting : s.client.starting → s.acquiring = false
  begun : s.client.begun → s.adAcquire = 1 ∧
    ∀ (i : ℕ) (t : CallbackThread), s.threads[i]? = some t → t.pc.early

theorem settling_init : State.init.Settling where
  value := Or.inl rfl
  on := by
    intro h
    cases h
  off := by
    intro _ h
    cases h
  clientCleared := by
    intro pc h
    cases h
  cleared := by
    intro i t ht
    cases ht
  read := fun _ _ => rfl
  starting := fun _ => rfl
  begun := fun h => h.elim

/-! ## Callback threads -/

/-- Where the thread is going to reset `ADAcquire`, it still is after a step, or it has done so, or its request
has failed. -/
theorem CallbackMove.stopComing {input : Input} {s : State} {pc pc' : CallbackPc} {acquiring : Bool}
    {adAcquire : ℤ} (h : CallbackMove input s pc pc' acquiring adAcquire) (hpc : pc.stopComing = true) :
    pc'.stopComing = true ∨ adAcquire = 0 ∨ (pc = .stop .request ∧ input.response.status_code ≠ 200) := by
  cases h with
  | stop h =>
    cases h with
    | clear => exact Or.inl rfl
    | inner h h' =>
      left
      simp only [Option.elim, CallbackPc.stopComing, StopPc.stopComing, decide_eq_true_eq]
      exact h'.2
    | failed hstatus => exact Or.inr (Or.inr ⟨rfl, hstatus⟩)
    | publish => exact Or.inr (Or.inl rfl)
    | back => cases hpc
  | _ => cases hpc

/-- A callback thread never sets the flag, and resets `ADAcquire` only behind the clearing of the flag. -/
theorem CallbackMove.values {input : Input} {s : State} {pc pc' : CallbackPc} {acquiring : Bool}
    {adAcquire : ℤ} (h : CallbackMove input s pc pc' acquiring adAcquire) :
    (acquiring = s.acquiring ∨ acquiring = false) ∧
      (adAcquire = s.adAcquire ∨ (adAcquire = 0 ∧ pc = .stop .publish ∧ acquiring = s.acquiring)) := by
  cases h with
  | stop h =>
    cases h with
    | clear => exact ⟨Or.inr rfl, Or.inl rfl⟩
    | publish => exact ⟨Or.inl rfl, Or.inr ⟨rfl, rfl, rfl⟩⟩
    | _ => exact ⟨Or.inl rfl, Or.inl rfl⟩
  | abort _ => exact ⟨Or.inr rfl, Or.inl rfl⟩
  | pollAborts _ => exact ⟨Or.inr rfl, Or.inl rfl⟩
  | _ => exact ⟨Or.inl rfl, Or.inl rfl⟩

/-- Past the clearing of the flag only by clearing it. -/
theorem CallbackMove.cleared {input : Input} {s : State} {pc pc' : CallbackPc} {acquiring : Bool}
    {adAcquire : ℤ} (h : CallbackMove input s pc pc' acquiring adAcquire) {stop : StopPc} (hpc' : pc' = .stop stop)
    (hstop : stop ≠ .clear) :
    acquiring = false ∨ ∃ stop', pc = .stop stop' ∧ stop' ≠ .clear ∧ acquiring = s.acquiring := by
  cases h with
  | stop h =>
    cases h with
    | clear => exact Or.inl rfl
    | inner h h' => exact Or.inr ⟨_, rfl, h.1, rfl⟩
    | failed _ => cases hpc'
    | publish => exact Or.inr ⟨_, rfl, by simp, rfl⟩
    | back => cases hpc'
  | ready | abort _ | enter _ | leave _ | pollAborts _ => cases hpc'
  | poll h =>
    rcases h with rfl | rfl <;> cases hpc'
  | polled h =>
    rcases h with rfl | rfl <;> cases hpc'
  | afterPoll h =>
    rcases h with rfl | rfl
    · cases hpc'
      exact absurd rfl hstop
    · cases hpc'

/-- Where a callback thread clears the flag without a stop. -/
theorem CallbackMove.clears {input : Input} {s : State} {pc pc' : CallbackPc} {acquiring : Bool}
    {adAcquire : ℤ} (h : CallbackMove input s pc pc' acquiring adAcquire) (horderly : CallbackOrderly s input pc)
    (hcleared : acquiring = false) : s.MayClear ∨ pc' = .stop .join := by
  cases h with
  | abort hbad =>
    rcases horderly with hgood | hmay
    · exact absurd hgood hbad
    · exact Or.inl hmay
  | pollAborts hbad =>
    rcases horderly with hgood | hmay
    · exact absurd hgood hbad
    · exact Or.inl hmay
  | stop h =>
    cases h with
    | clear => exact Or.inr rfl
    | _ => exact Or.inl (Or.inl hcleared)
  | _ => exact Or.inl (Or.inl hcleared)

theorem CallbackMove.early {input : Input} {s : State} {pc pc' : CallbackPc} {acquiring : Bool}
    {adAcquire : ℤ} (h : CallbackMove input s pc pc' acquiring adAcquire) (hoff : s.acquiring = false)
    (hpc : pc.early) : pc'.early ∧ adAcquire = s.adAcquire := by
  rcases hpc with rfl | rfl | rfl
  · cases h with
    | ready => exact ⟨Or.inr (Or.inl rfl), rfl⟩
    | abort _ => exact ⟨Or.inr (Or.inr rfl), rfl⟩
  · cases h with
    | enter hon =>
      rw [hoff] at hon
      cases hon
    | leave _ => exact ⟨Or.inr (Or.inr rfl), rfl⟩
  · cases h

theorem ClientPc.starting_of_begun {pc : ClientPc} (h : pc.begun) : pc.starting := by
  cases pc with
  | start pc =>
    cases pc <;> first | exact h.elim | simp [ClientPc.starting]
  | _ => exact h.elim

/-- With `ADAcquire` = 1 and the flag off, a stop or a start is still on its way after a step of a callback
thread. -/
theorem State.Settling.callback_off {s s' : State} {i : ℕ} {input : Input} {t t' : CallbackThread} (h : s.Settling)
    (ht : s.threads[i]? = some t) (hself : s'.threads[i]? = some t')
    (hother : ∀ {j : ℕ}, j ≠ i → s'.threads[j]? = s.threads[j]?) (hclient : s'.client = s.client)
    (horderly : CallbackOrderly s input t.pc)
    (hmove : CallbackMove input s t.pc t'.pc s'.acquiring s'.adAcquire)
    (hcleared : s'.acquiring = false) (hone : s'.adAcquire = 1) : s'.StopComing ∨ s'.client.starting := by
  have hone' : s.adAcquire = 1 := by
    rcases hmove.values.2 with hsame | ⟨hzero, -, -⟩
    · rw [← hsame, hone]
    · rw [hzero] at hone
      cases hone
  rw [hclient]
  by_cases hon : s.acquiring = true
  · -- the step clears the flag
    left
    rcases hmove.clears horderly hcleared with hmay | hjoin
    · rcases hmay with hfalse | hne | hcoming
      · rw [hon] at hfalse
        cases hfalse
      · exact absurd hone' hne
      · exact Or.inl (hclient ▸ hcoming)
    · exact Or.inr ⟨i, t', hself, by rw [hjoin]; rfl⟩
  · rcases h.off (Bool.eq_false_iff.mpr hon) hone' with (hcoming | ⟨j, u, hu, hcoming⟩) | hstarting
    · exact Or.inl (Or.inl (hclient ▸ hcoming))
    · left
      by_cases hj : j = i
      · subst hj
        obtain rfl := Option.some.inj (ht.symm.trans hu)
        rcases hmove.stopComing hcoming with hcoming' | hzero | ⟨hrequest, hstatus⟩
        · exact Or.inr ⟨j, t', hself, hcoming'⟩
        · rw [hone] at hzero
          cases hzero
        · rw [hrequest] at horderly
          rcases horderly with hgood | hne | hcoming'
          · exact absurd hgood hstatus
          · exact absurd hone' hne
          · exact Or.inl (hclient ▸ hcoming')
      · exact Or.inr ⟨j, u, (hother hj).trans hu, hcoming⟩
    · exact Or.inr hstarting

theorem State.Settling.callback {s s' : State} {i : ℕ} {input : Input} (h : s.Settling)
    (horderly : ∀ t ∈ s.threads[i]?, CallbackOrderly s input t.pc) (hstep : callbackStep i input s = some s') :
    s'.Settling := by
  obtain ⟨t, t', ht, hthreads, -, -, hclient, hmove⟩ := callbackStep_move hstep
  have hpc := horderly t (Option.mem_def.mpr ht)
  obtain ⟨hacquiring, hadAcquire⟩ := hmove.values
  have hlt : i < s.threads.length := (List.getElem?_eq_some_iff.mp ht).1
  have hself : s'.threads[i]? = some t' := by
    rw [hthreads, List.getElem?_set_self hlt]
  have hother : ∀ {j : ℕ}, j ≠ i → s'.threads[j]? = s.threads[j]? := by
    intro j hj
    rw [hthreads, List.getElem?_set_ne (Ne.symm hj)]
  have hoff : s.acquiring = false → s'.acquiring = false := by
    intro hoff
    rcases hacquiring with hsame | hcleared
    · rw [hsame, hoff]
    · exact hcleared
  refine ⟨?_, ?_, ?_, ?_, ?_, ?_, ?_, ?_⟩
  · rcases hadAcquire with hsame | ⟨hzero, -, -⟩
    · rw [hsame]
      exact h.value
    · exact Or.inl hzero
  · intro hon
    have hon' : s.acquiring = true := by
      by_contra hne
      rw [hoff (Bool.eq_false_iff.mpr hne)] at hon
      cases hon
    rcases hadAcquire with hsame | ⟨-, hpublish, -⟩
    · rw [hsame, hclient]
      exact h.on hon'
    · rw [h.cleared i t ht .publish hpublish (by simp)] at hon'
      cases hon'
  · exact h.callback_off ht hself hother hclient hpc hmove
  · intro pc hstop hne
    exact hoff (h.clientCleared pc (hclient ▸ hstop) hne)
  · intro j u hu pc hstop hne
    by_cases hj : j = i
    · subst hj
      obtain rfl := Option.some.inj (hself.symm.trans hu)
      rcases hmove.cleared hstop hne with hcleared | ⟨stop', hstop', hne', hsame⟩
      · exact hcleared
      · exact hoff (h.cleared j t ht stop' hstop' hne')
    · exact hoff (h.cleared j u ((hother hj).symm.trans hu) pc hstop hne)
  · intro write hset
    have hread := h.read write (hclient ▸ hset)
    rcases hadAcquire with hsame | ⟨hzero, -, -⟩
    · rw [hsame, hread]
    · exact hzero
  · intro hstarting
    exact hoff (h.starting (hclient ▸ hstarting))
  · intro hbegun
    rw [hclient] at hbegun
    obtain ⟨hone, hearly⟩ := h.begun hbegun
    obtain ⟨hearly', hsame⟩ := hmove.early (h.starting (ClientPc.starting_of_begun hbegun)) (hearly i t ht)
    refine ⟨hsame.trans hone, ?_⟩
    intro j u hu
    by_cases hj : j = i
    · subst hj
      obtain rfl := Option.some.inj (hself.symm.trans hu)
      exact hearly'
    · exact hearly j u ((hother hj).symm.trans hu)

/-! ## The client -/

/-- A state with the flag off. -/
theorem State.Settling.of_off {s : State} (hoff : s.acquiring = false) (hvalue : s.adAcquire = 0 ∨ s.adAcquire = 1)
    (hdue : s.adAcquire = 1 → s.StopComing ∨ s.client.starting)
    (hread : ∀ write, s.client = .set write 0 → s.adAcquire = 0)
    (hbegun : s.client.begun → s.adAcquire = 1 ∧
      ∀ (i : ℕ) (t : CallbackThread), s.threads[i]? = some t → t.pc.early) : s.Settling where
  value := hvalue
  on := by
    intro hon
    rw [hoff] at hon
    cases hon
  off := fun _ => hdue
  clientCleared := fun _ _ _ => hoff
  cleared := fun _ _ _ _ _ _ => hoff
  read := hread
  starting := fun _ => hoff
  begun := hbegun

/-- A state in which the measurement has been started, and the flag is still to be set. -/
theorem State.Settling.of_begun {s : State} (hoff : s.acquiring = false) (hone : s.adAcquire = 1)
    (hbegun : s.client.begun)
    (hearly : ∀ (i : ℕ) (t : CallbackThread), s.threads[i]? = some t → t.pc.early) : s.Settling := by
  refine State.Settling.of_off hoff (Or.inr hone) ?_ ?_ ?_
  · intro _
    exact Or.inr (ClientPc.starting_of_begun hbegun)
  · intro write hset
    rw [hset] at hbegun
    exact hbegun.elim
  · intro _
    exact ⟨hone, hearly⟩

/-- The flag is set, and no callback thread has got as far as a stop. -/
theorem State.Settling.of_flag {s : State} (hon : s.acquiring = true) (hone : s.adAcquire = 1)
    (hclient : s.client = .start .streams)
    (hearly : ∀ (i : ℕ) (t : CallbackThread), s.threads[i]? = some t → t.pc.early) : s.Settling where
  value := Or.inr hone
  on := fun _ => Or.inl hone
  off := by
    intro hoff
    rw [hon] at hoff
    cases hoff
  clientCleared := by
    intro pc hpc
    rw [hclient] at hpc
    cases hpc
  cleared := by
    intro i t ht pc hpc
    rcases hearly i t ht with hfirst | hhead | hfinished
    · rw [hfirst] at hpc
      cases hpc
    · rw [hhead] at hpc
      cases hpc
    · rw [hfinished] at hpc
      cases hpc
  read := by
    intro write hset
    rw [hclient] at hset
    cases hset
  starting := by
    intro hstarting
    rw [hclient] at hstarting
    exact absurd rfl hstarting
  begun := by
    intro hbegun
    rw [hclient] at hbegun
    exact hbegun.elim

/-- `ADAcquire` is 0, and the client is about to clear the flag. -/
theorem State.Settling.of_stop {s : State} (hzero : s.adAcquire = 0) (hclient : s.client = .stop .clear)
    (hcleared : ∀ (i : ℕ) (t : CallbackThread), s.threads[i]? = some t →
      ∀ pc, t.pc = .stop pc → pc ≠ .clear → s.acquiring = false) : s.Settling where
  value := Or.inl hzero
  on := fun _ => Or.inr hclient
  off := by
    intro _ hone
    rw [hzero] at hone
    cases hone
  clientCleared := by
    intro pc hpc hne
    rw [hclient] at hpc
    cases hpc
    exact absurd rfl hne
  cleared := hcleared
  read := fun _ _ => hzero
  starting := by
    intro hstarting
    rw [hclient] at hstarting
    exact hstarting.elim
  begun := by
    intro hbegun
    rw [hclient] at hbegun
    exact hbegun.elim

/-- A client that has come to the end of a write, or is about to stop. -/
theorem State.Settling.of_set {s : State} (h : s.Settling) {s' : State} (hthreads : s'.threads = s.threads)
    (hacquiring : s'.acquiring = s.acquiring) (hadAcquire : s'.adAcquire = s.adAcquire)
    (hclient : s'.client = .idle ∨ s'.client = .stop .clear) (hnone : ∀ pc, s.client ≠ .stop pc)
    (hstart : ¬ s.client.starting)
    (hcoming : s'.client = .idle → s.client.stopComing = false) : s'.Settling where
  value := hadAcquire ▸ h.value
  on := by
    intro hon
    rw [hacquiring] at hon
    rw [hadAcquire]
    rcases h.on hon with hone | hclear
    · exact Or.inl hone
    · exact absurd hclear (hnone .clear)
  off := by
    intro hoff hone
    rw [hacquiring] at hoff
    rw [hadAcquire] at hone
    rcases hclient with hidle | hstop
    · rcases h.off hoff hone with (hclient' | ⟨i, t, ht, hstop⟩) | hstarting
      · rw [hcoming hidle] at hclient'
        cases hclient'
      · exact Or.inl (Or.inr ⟨i, t, hthreads ▸ ht, hstop⟩)
      · exact absurd hstarting hstart
    · exact Or.inl (Or.inl (by rw [hstop]; rfl))
  clientCleared := by
    intro pc hpc hne
    rcases hclient with hidle | hstop
    · rw [hidle] at hpc
      cases hpc
    · rw [hstop] at hpc
      cases hpc
      exact absurd rfl hne
  cleared := by
    rw [hthreads, hacquiring]
    exact h.cleared
  read := by
    intro write hset
    rcases hclient with hidle | hstop
    · rw [hidle] at hset
      cases hset
    · rw [hstop] at hset
      cases hset
  starting := by
    intro hstarting
    rcases hclient with hidle | hstop
    · rw [hidle] at hstarting
      exact hstarting.elim
    · rw [hstop] at hstarting
      exact hstarting.elim
  begun := by
    intro hbegun
    rcases hclient with hidle | hstop
    · rw [hidle] at hbegun
      exact hbegun.elim
    · rw [hstop] at hbegun
      exact hbegun.elim

/-- A write that has read `ADAcquire` = 0 finds the flag off. -/
theorem State.Settling.off_of_read {s : State} (h : s.Settling) {write : Write} (hset : s.client = .set write 0) :
    s.acquiring = false := by
  have hzero := h.read write hset
  rw [Bool.eq_false_iff]
  intro hon
  rcases h.on hon with hone | hclear
  · rw [hzero] at hone
    cases hone
  · rw [hset] at hclear
    cases hclear

/-- The step that sets the parameter of a write. -/
theorem State.Settling.set {s s' : State} {write : Write} {acquiring : ℤ} (h : s.Settling)
    (hset : s.client = .set write acquiring)
    (horderly : ∀ value, write = .adAcquire value →
      (value = 0 ∨ value = 1) ∧ (value = 1 → acquiring = s.adAcquire))
    (hthreads : s'.threads = s.threads) (hacquiring : s'.acquiring = s.acquiring)
    (hadAcquire : s'.adAcquire = (write.setParam s).adAcquire) (hclient : s'.client = write.next acquiring) :
    s'.Settling := by
  have hnone : ∀ pc, s.client ≠ .stop pc := by
    intro pc hpc
    rw [hset] at hpc
    cases hpc
  have hstart : ¬ s.client.starting := by
    rw [hset]
    exact id
  have hcoming : s'.client = .idle → s.client.stopComing = false := by
    intro hidle
    rw [hset]
    simp only [ClientPc.stopComing, ← hclient, hidle]
  have hidle_or : write.next acquiring = .idle ∨ write.next acquiring = .stop .clear →
      (write.setParam s).adAcquire = s.adAcquire → s'.Settling := by
    intro hnext hsame
    exact h.of_set hthreads hacquiring (hadAcquire.trans hsame) (hclient ▸ hnext) hnone hstart hcoming
  cases write with
  | adAcquire value =>
    obtain ⟨hvalue, hsame⟩ := horderly value rfl
    rcases hvalue with rfl | rfl
    · by_cases hread : acquiring = 0
      · -- nothing is running: `ADAcquire` stays 0
        subst hread
        exact hidle_or (Or.inl rfl) (h.read _ hset).symm
      · have hnext : s'.client = .stop .clear := by
          rw [hclient]
          simp [Write.next, hread]
        refine State.Settling.of_stop hadAcquire hnext ?_
        rw [hthreads, hacquiring]
        exact h.cleared
    · have hone : s'.adAcquire = 1 := hadAcquire
      by_cases hread : acquiring = 0
      · -- the acquisition starts
        subst hread
        have hnext : s'.client = .start .workers := hclient
        refine State.Settling.of_off (hacquiring.trans (h.off_of_read hset)) (Or.inr hone) ?_ ?_ ?_
        · intro _
          right
          rw [hnext]
          simp [ClientPc.starting]
        · intro write' hset'
          rw [hnext] at hset'
          cases hset'
        · intro hbegun
          rw [hnext] at hbegun
          exact hbegun.elim
      · have hread' : acquiring = s.adAcquire := hsame rfl
        have hnext : Write.next (.adAcquire 1) acquiring = .idle := by
          simp [Write.next, hread]
        refine hidle_or (Or.inl hnext) ?_
        rcases h.value with hzero | hone'
        · rw [hzero] at hread'
          exact absurd hread' hread
        · exact hone'.symm
  | adImageMode value =>
    refine hidle_or ?_ rfl
    simp only [Write.next]
    split <;> simp
  | timing =>
    refine hidle_or ?_ rfl
    simp only [Write.next]
    split <;> simp

/-- An orderly start does not fail. -/
theorem ClientOrderly.not_fails {s : State} {input : Input} {pc : StartPc} (h : ClientOrderly s input)
    (hclient : s.client = .start pc) : ¬ pc.fails input := by
  intro hfails
  unfold ClientOrderly at h
  rw [hclient] at h
  cases pc with
  | trigger =>
    rw [show mpx3BothCountersTriggerConflict input.trigger = true from hfails] at h
    cases h
  | ports | rotate =>
    rw [show input.portsFree = false from hfails] at h
    cases h
  | request =>
    obtain ⟨hstatus, hnone⟩ := hfails
    rcases h with ⟨hok, -⟩ | ⟨-, huse⟩
    · exact hstatus hok
    · rw [hnone] at huse
      cases huse
  | retry => exact hfails h.1
  | _ => exact hfails

/-- The client's stop. -/
theorem State.Settling.stop {s s' : State} {input : Input} {pc : StopPc} {next : Option StopPc} {acquiring : Bool}
    {adAcquire : ℤ} (h : s.Settling) (horderly : ClientOrderly s input) (hclient : s.client = .stop pc)
    (hmove : StopMove input s pc next acquiring adAcquire) (hthreads : s'.threads = s.threads)
    (hclient' : s'.client = next.elim .idle .stop) (hacquiring : s'.acquiring = acquiring)
    (hadAcquire : s'.adAcquire = adAcquire) : s'.Settling := by
  have hoff : acquiring = false := by
    cases hmove with
    | clear => rfl
    | inner hinner _ => exact h.clientCleared _ hclient hinner.1
    | failed _ | publish | back => exact h.clientCleared _ hclient (by simp)
  have hvalue : adAcquire = 0 ∨ adAcquire = 1 := by
    cases hmove with
    | publish => exact Or.inl rfl
    | _ => exact h.value
  refine State.Settling.of_off (hacquiring.trans hoff) (hadAcquire ▸ hvalue) ?_ ?_ ?_
  · intro hone
    left
    rw [hadAcquire] at hone
    cases hmove with
    | clear => exact Or.inl (by rw [hclient']; rfl)
    | inner _ hinner =>
      left
      rw [hclient']
      simp only [Option.elim, ClientPc.stopComing, StopPc.stopComing, decide_eq_true_eq]
      exact hinner.2
    | failed hstatus =>
      unfold ClientOrderly at horderly
      rw [hclient] at horderly
      rcases horderly with hok | hne | ⟨t, ht, hcoming⟩
      · exact absurd hok hstatus
      · exact absurd hone hne
      · obtain ⟨i, hi⟩ := List.mem_iff_getElem?.mp ht
        exact Or.inr ⟨i, t, hthreads ▸ hi, hcoming⟩
    | publish => cases hone
    | back =>
      rcases h.off hoff hone with (hcoming | ⟨i, t, hi, hcoming⟩) | hstarting
      · rw [hclient] at hcoming
        cases hcoming
      · exact Or.inr ⟨i, t, hthreads ▸ hi, hcoming⟩
      · rw [hclient] at hstarting
        exact hstarting.elim
  · intro write hset
    rw [hclient'] at hset
    cases next <;> cases hset
  · intro hbegun
    rw [hclient'] at hbegun
    cases next <;> exact hbegun.elim

theorem State.Settling.client {s s' : State} {input : Input} (h : s.Settling)
    (halone : StartsAlone s (.client input)) (horderly : ClientOrderly s input)
    (hstep : clientStep input s = some s') : s'.Settling := by
  have hmove := clientStep_move hstep
  have hthreads : s.client ≠ .start .create → s'.threads = s.threads := by
    intro hne
    rcases clientStep_threads hstep with ⟨hsame, -, -⟩ | ⟨-, hsame⟩ | ⟨hcreate, -, -, -⟩
    · exact hsame
    · exact hsame
    · exact absurd hcreate hne
  generalize hclient : s.client = client at hmove
  generalize hclient' : s'.client = client' at hmove
  generalize hacquiring : s'.acquiring = acquiring at hmove
  generalize hadAcquire : s'.adAcquire = adAcquire at hmove
  cases hmove with
  | set write acquiring =>
    refine h.set hclient ?_ (hthreads (by simp [hclient])) hacquiring hadAcquire hclient'
    rintro value rfl
    unfold ClientOrderly at horderly
    rw [hclient] at horderly
    exact horderly
  | @prepare pc pc' hpc hpc' =>
    have hstarting : s.client.starting := by
      rw [hclient]
      rintro rfl
      exact hpc
    have hstarting' : s'.client.starting := by
      rw [hclient']
      rintro rfl
      exact hpc'
    refine State.Settling.of_off (hacquiring.trans (h.starting hstarting)) (hadAcquire ▸ h.value)
      (fun _ => Or.inr hstarting') ?_ ?_
    · intro write hset
      rw [hclient'] at hset
      cases hset
    · intro hbegun
      rw [hclient'] at hbegun
      cases pc' <;> first | exact hbegun.elim | exact hpc'.elim
  | startFails hfails => exact absurd hfails (horderly.not_fails hclient)
  | @started pc hpc hstatus =>
    have hanswered : startAnswered s input = true := by
      rcases hpc with rfl | rfl <;> simp [startAnswered, hclient, hstatus]
    have hone : s.adAcquire = 1 := by
      unfold ClientOrderly at horderly
      rw [hclient] at horderly
      rcases hpc with rfl | rfl
      · rcases horderly with ⟨-, hone⟩ | ⟨hne, -⟩
        · exact hone
        · exact absurd hstatus hne
      · exact horderly.2
    have hstarting : s.client.starting := by
      rw [hclient]
      rcases hpc with rfl | rfl <;> simp [ClientPc.starting]
    refine State.Settling.of_begun (hacquiring.trans (h.starting hstarting)) (hadAcquire.trans hone)
      (by rw [hclient']; trivial) ?_
    intro i t ht
    rw [hthreads (by rw [hclient]; rcases hpc with rfl | rfl <;> simp)] at ht
    exact Or.inr (Or.inr (halone hanswered t (List.mem_of_getElem? ht)))
  | create thread =>
    have hbegun : s.client.begun := by
      rw [hclient]
      trivial
    obtain ⟨hone, hearly⟩ := h.begun hbegun
    refine State.Settling.of_begun (hacquiring.trans (h.starting (ClientPc.starting_of_begun hbegun)))
      (hadAcquire.trans hone) (by rw [hclient']; trivial) ?_
    intro i t ht
    rcases clientStep_threads hstep with ⟨hsame, -, -⟩ | ⟨-, hsame⟩ | ⟨-, hnew, -, -⟩
    · exact hearly i t (hsame ▸ ht)
    · exact hearly i t (hsame ▸ ht)
    · rw [hnew] at ht
      rcases List.mem_append.mp (List.mem_of_getElem? ht) with hold | hlast
      · obtain ⟨j, hj⟩ := List.mem_iff_getElem?.mp hold
        exact hearly j t hj
      · rw [List.mem_singleton.mp hlast]
        exact Or.inl rfl
  | assign thread =>
    have hbegun : s.client.begun := by
      rw [hclient]
      trivial
    obtain ⟨hone, hearly⟩ := h.begun hbegun
    refine State.Settling.of_begun (hacquiring.trans (h.starting (ClientPc.starting_of_begun hbegun)))
      (hadAcquire.trans hone) (by rw [hclient']; trivial) ?_
    rw [hthreads (by simp [hclient])]
    exact hearly
  | setFlag =>
    have hbegun : s.client.begun := by
      rw [hclient]
      trivial
    obtain ⟨hone, hearly⟩ := h.begun hbegun
    exact State.Settling.of_flag hacquiring (hadAcquire.trans hone) hclient' (hthreads (by simp [hclient]) ▸ hearly)
  | streams =>
    refine h.of_set (hthreads (by simp [hclient])) hacquiring hadAcquire (Or.inl hclient') ?_ ?_ ?_
    · intro pc hpc
      rw [hclient] at hpc
      cases hpc
    · rw [hclient]
      exact fun hne => hne rfl
    · intro _
      rw [hclient]
      rfl
  | stop hmove =>
    exact h.stop horderly hclient hmove (hthreads (by simp [hclient])) hclient' hacquiring hadAcquire

/-! ## Runs -/

/-- The client reads `ADAcquire` for a write. -/
theorem State.Settling.write {s : State} (h : s.Settling) (hidle : s.client = .idle) (write : Write) :
    State.Settling { s with client := .set write s.adAcquire } where
  value := h.value
  on := by
    intro hon
    rcases h.on hon with hone | hclear
    · exact Or.inl hone
    · rw [hidle] at hclear
      cases hclear
  off := by
    intro hoff hone
    rcases h.off hoff hone with (hcoming | hthread) | hstarting
    · rw [hidle] at hcoming
      cases hcoming
    · exact Or.inl (Or.inr hthread)
    · rw [hidle] at hstarting
      exact hstarting.elim
  clientCleared := by
    intro pc hpc
    cases hpc
  cleared := h.cleared
  read := by
    intro write' hset
    exact (ClientPc.set.inj hset).2
  starting := fun hstarting => hstarting.elim
  begun := fun hbegun => hbegun.elim

theorem State.Settling.step {s s' : State} {a : Action} (h : s.Settling) (horderly : Orderly s a)
    (hstep : step s a = some s') : s'.Settling := by
  cases a with
  | write write =>
    simp only [Acquire.step] at hstep
    split at hstep
    next hidle =>
      rw [← Option.some.inj hstep]
      exact h.write hidle write
    next => cases hstep
  | client input => exact h.client horderly.1 horderly.2 hstep
  | callback thread input => exact h.callback horderly hstep
  | measurementEnds =>
    simp only [Acquire.step] at hstep
    split at hstep
    · rw [← Option.some.inj hstep]
      exact ⟨h.value, h.on, h.off, h.clientCleared, h.cleared, h.read, h.starting, h.begun⟩
    · cases hstep

theorem State.Settling.flag {s : State} (h : s.Settling) (hquiescent : s.Quiescent) :
    s.adAcquire = 1 ↔ s.acquiring = true := by
  obtain ⟨hidle, hnone⟩ := hquiescent
  constructor
  · intro hone
    by_contra hoff
    rcases h.off (Bool.eq_false_iff.mpr hoff) hone with (hcoming | ⟨i, t, ht, hcoming⟩) | hstarting
    · rw [hidle] at hcoming
      cases hcoming
    · cases hpc : t.pc with
      | stop pc => exact hnone t (List.mem_of_getElem? ht) pc hpc
      | _ =>
        rw [hpc] at hcoming
        cases hcoming
    · rw [hidle] at hstarting
      exact hstarting
  · intro hon
    rcases h.on hon with hone | hclear
    · exact hone
    · rw [hidle] at hclear
      cases hclear

/-- With `ADAcquire` = 0 and no write under way, `ADAcquire` = 1 calls `acquireStart`. -/
theorem restarts {s : State} (hidle : s.client = .idle) (hzero : s.adAcquire = 0) (input : Input) :
    (Runs.run step s [.write (.adAcquire 1), .client input]).map State.client = some (.start .workers) := by
  have hwrite : step s (.write (.adAcquire 1)) = some { s with client := .set (.adAcquire 1) s.adAcquire } := by
    simp only [step, hidle]
  rw [Runs.run_cons_of_some step hwrite, hzero]
  rfl

/-- In every run whose steps are orderly, `ADAcquire` and the flag agree whenever nothing is under way, and a
write of 1 starts an acquisition when the flag is off. -/
theorem agrees_of_orderly {events : List Action} {s : State}
    (horderly : Runs.Guarded step Orderly State.init events) (hrun : Runs.run step State.init events = some s)
    (hquiescent : s.Quiescent) : s.Agrees := by
  have hs : s.Settling := Runs.run_invariant (fun s a s' h hguard hstep => h.step hguard hstep) settling_init
    horderly hrun
  have hflag := hs.flag hquiescent
  refine ⟨hflag, ?_⟩
  intro hoff input
  have hzero : s.adAcquire = 0 := by
    rcases hs.value with hzero | hone
    · exact hzero
    · rw [hflag.mp hone] at hoff
      cases hoff
  exact restarts hquiescent.1 hzero input

/-! ## Runs on given answers -/

/-- An acquisition that is started, polled, stopped by the client, and started again. -/
def orderlyEvents : List Action :=
  startEvents ++ List.replicate 4 (.callback 0 (answer true)) ++
    [.write (.adAcquire 0)] ++ List.replicate 3 (.client (answer true)) ++
    List.replicate 4 (.callback 0 (answer true)) ++
    List.replicate 6 (.client (answer false)) ++ startEvents

theorem agrees_restarted :
    Runs.Guarded step Orderly State.init orderlyEvents ∧
      ∃ s, Runs.run step State.init orderlyEvents = some s ∧ s.Quiescent ∧ s.Agrees := by
  have horderly : Runs.Guarded step Orderly State.init orderlyEvents := by decide +kernel
  have hstate : (Runs.run step State.init orderlyEvents).map (fun s => (s.client, s.threads)) =
      some (.idle, [⟨.finished, 1, 0, 0, false⟩, ⟨.firstGet, 2, 0, 0, false⟩]) := by decide +kernel
  obtain ⟨s, hs, hstate⟩ := Option.map_eq_some_iff.mp hstate
  obtain ⟨hidle, hthreads⟩ := Prod.mk.inj hstate
  have hquiescent : s.Quiescent := by
    refine ⟨hidle, ?_⟩
    rw [hthreads]
    simp
  exact ⟨horderly, s, hs, hquiescent, agrees_of_orderly horderly hs hquiescent⟩

/-- A start whose request the server answers with 500. -/
def failedStartEvents : List Action :=
  .write (.adAcquire 1) :: List.replicate 6 (.client (answer false)) ++
    [.client ⟨⟨500, "Internal Server Error", none⟩, true, ⟨false, 0, 0⟩⟩]

/-- After a failed start `ADAcquire` stays 1 with the flag off, and the next `ADAcquire` = 1 does not start. -/
theorem stuck_after_failed_start :
    ∃ s, Runs.run step State.init failedStartEvents = some s ∧ s.Quiescent ∧ s.adAcquire = 1 ∧
      s.acquiring = false ∧
      (Runs.run step s [.write (.adAcquire 1), .client (answer false)]).map State.client = some .idle := by
  have hstate : (Runs.run step State.init failedStartEvents).map
      (fun s => (s.client, s.threads, s.adAcquire, s.acquiring)) = some (.idle, [], 1, false) := by decide +kernel
  obtain ⟨s, hs, hstate⟩ := Option.map_eq_some_iff.mp hstate
  obtain ⟨hidle, hstate⟩ := Prod.mk.inj hstate
  obtain ⟨hthreads, hstate⟩ := Prod.mk.inj hstate
  obtain ⟨hone, hoff⟩ := Prod.mk.inj hstate
  refine ⟨s, hs, ⟨hidle, by simp [hthreads]⟩, hone, hoff, ?_⟩
  have hwrite : step s (.write (.adAcquire 1)) = some { s with client := .set (.adAcquire 1) s.adAcquire } := by
    simp only [step, hidle]
  rw [Runs.run_cons_of_some step hwrite, hone]
  rfl

end ADTimePix3.Acquire
