import ADTimePix3.Serval.ConnectionPoll

/-!
# The connection poll: proofs

As long as nobody interferes, the thread reads of the two parameters what `checkConnection` found; so what it
remembers of the last poll is whether that poll was up.

Main result: `onReconnects_of_undisturbed`.
-/

namespace ADTimePix3.Serval.Connection

open Runs
open Acquire (Response)

/-! ## The checks -/

/-- After its writes, `checkConnection` has left in the parameters what it returns. -/
theorem checkConnection_both {r : Response} (hr : Regular r = true) (p : Connected) :
    ((checkConnection r).1.foldl Connected.write p).both = (checkConnection r).2 := by
  unfold checkConnection
  by_cases hcode : r.status_code = 200
  · rw [if_pos hcode]
    simp only [Regular, hcode, ne_eq, not_true_eq_false, decide_false, Bool.false_or] at hr
    split at hr
    · rfl
    · rfl
    · rfl
    · cases hr
  · rw [if_neg hcode]
    rfl

theorem initialServerCheckConnection_both (root dashboard : Response) (p : Connected) :
    ((initialServerCheckConnection root dashboard).1.foldl Connected.write p).both =
      (initialServerCheckConnection root dashboard).2 := by
  unfold initialServerCheckConnection
  by_cases hroot : root.status_code = 200
  · rw [if_pos hroot]
    by_cases hdash : dashboard.status_code = 200
    · rw [if_pos hdash]
      split <;> rfl
    · rw [if_neg hdash]
      rfl
  · rw [if_neg hroot]
    rfl

/-! ## The invariant -/

/-- What the check of the poll under way returned, until the thread has decided. -/
def PollPc.up? : PollPc → Option Bool
  | .check _ up => some up
  | .readServal up => some up
  | .readDet _ up => some up
  | .decide _ _ up => some up
  | _ => none

/-- What the thread remembers, or is about to remember, of the last poll. -/
def PollState.last (s : PollState) : Connected :=
  match s.pc with
  | .refresh _ servalNow detNow => ⟨servalNow, detNow⟩
  | .store servalNow detNow => ⟨servalNow, detNow⟩
  | _ => ⟨s.lastServalConnected, s.lastDetConnected⟩

variable {initialUp : Bool}

structure PollInv (initialUp : Bool) (s : PollState) : Prop where
  window : s.willRead = s.pc.up?
  last_eq : s.last.both = lastUp initialUp s.polls
  record : OnReconnects initialUp s.polls

theorem PollInv.start (root dashboard : Response) :
    PollInv (initialServerCheckConnection root dashboard).2 (PollState.start root dashboard) :=
  ⟨rfl, initialServerCheckConnection_both root dashboard ⟨0, 0⟩, trivial⟩

theorem not_both_iff (p : Connected) :
    (!p.both) = (decide (p.servalConnected = 0) || decide (p.detConnected = 0)) := by
  simp [Connected.both]

/-- The decision of the thread, when it has read what its check returned. -/
theorem PollInv.decide {s : PollState} {servalNow detNow : ℤ} {up : Bool} (h : PollInv initialUp s)
    (hpc : s.pc = .decide servalNow detNow up) :
    ((servalNow ≠ 0 && detNow ≠ 0) && (s.lastServalConnected = 0 || s.lastDetConnected = 0)) =
      (up && !lastUp initialUp s.polls) := by
  have hup : Connected.both ⟨servalNow, detNow⟩ = up := by
    have hw := h.window
    simp only [PollState.willRead, hpc, PollPc.up?] at hw
    exact Option.some.inj hw
  have hlast : Connected.both ⟨s.lastServalConnected, s.lastDetConnected⟩ =
      lastUp initialUp s.polls := by
    have hl := h.last_eq
    simpa only [PollState.last, hpc] using hl
  rw [← hlast, not_both_iff, ← hup]
  rfl

theorem PollInv.pollStep {s s' : PollState} {r : RefreshReplies} (h : PollInv initialUp s)
    (hstep : pollStep r s = some s') : PollInv initialUp s' := by
  obtain ⟨hwin, hlast, hrec⟩ := h
  unfold Connection.pollStep at hstep
  cases hpc : s.pc with
  | wait => simp [hpc] at hstep
  | check writes up =>
    simp only [PollState.willRead, PollState.last, hpc, PollPc.up?] at hwin hlast
    cases writes with
    | nil =>
      simp only [hpc] at hstep
      obtain rfl := Option.some.inj hstep
      exact ⟨hwin, hlast, hrec⟩
    | cons w writes =>
      simp only [hpc] at hstep
      obtain rfl := Option.some.inj hstep
      exact ⟨hwin, hlast, hrec⟩
  | readServal up =>
    simp only [PollState.willRead, PollState.last, hpc, PollPc.up?] at hwin hlast
    simp only [hpc] at hstep
    obtain rfl := Option.some.inj hstep
    exact ⟨hwin, hlast, hrec⟩
  | readDet servalNow up =>
    simp only [PollState.willRead, PollState.last, hpc, PollPc.up?] at hwin hlast
    simp only [hpc] at hstep
    obtain rfl := Option.some.inj hstep
    exact ⟨hwin, hlast, hrec⟩
  | decide servalNow detNow up =>
    have hdecide := PollInv.decide ⟨hwin, hlast, hrec⟩ hpc
    simp only [PollState.willRead, PollState.last, hpc, PollPc.up?] at hwin hlast
    have hup : Connected.both ⟨servalNow, detNow⟩ = up := Option.some.inj hwin
    simp only [hpc, hdecide] at hstep
    by_cases hre : (up && !lastUp initialUp s.polls) = true
    · rw [if_pos hre] at hstep
      obtain rfl := Option.some.inj hstep
      exact ⟨rfl, hup, hre.symm, hrec⟩
    · rw [if_neg hre] at hstep
      obtain rfl := Option.some.inj hstep
      exact ⟨rfl, hup, (Bool.not_eq_true _ ▸ hre).symm, hrec⟩
  | refresh writes servalNow detNow =>
    simp only [PollState.last, hpc] at hlast
    cases writes with
    | nil =>
      simp only [hpc] at hstep
      obtain rfl := Option.some.inj hstep
      exact ⟨rfl, hlast, hrec⟩
    | cons w writes =>
      simp only [hpc] at hstep
      obtain rfl := Option.some.inj hstep
      exact ⟨rfl, hlast, hrec⟩
  | store servalNow detNow =>
    simp only [PollState.last, hpc] at hlast
    simp only [hpc] at hstep
    obtain rfl := Option.some.inj hstep
    exact ⟨rfl, hlast, hrec⟩

theorem PollInv.step {s s' : PollState} {e : PollEvent} (h : PollInv initialUp s) (hguard : Undisturbed s e)
    (hstep : step s e = some s') : PollInv initialUp s' := by
  cases e with
  | wake r =>
    simp only [Connection.step] at hstep
    by_cases hwait : s.pc ≠ .wait
    · rw [if_pos hwait] at hstep
      cases hstep
    · have hpc : s.pc = .wait := not_not.mp hwait
      obtain ⟨hwin, hlast, hrec⟩ := h
      rw [if_neg hwait] at hstep
      by_cases hskip : s.connectionPollSkipOnce = true
      · rw [if_pos hskip] at hstep
        obtain rfl := Option.some.inj hstep
        exact ⟨hwin, hlast, hrec⟩
      · rw [if_neg hskip] at hstep
        obtain rfl := Option.some.inj hstep
        have hcheck := checkConnection_both (hguard.resolve_left hskip) s.params
        simp only [PollState.last, hpc] at hlast
        exact ⟨congrArg some hcheck, hlast, hrec⟩
  | poll r => exact h.pollStep hstep
  | request op =>
    simp only [Connection.step] at hstep
    by_cases hbusy : s.client ≠ []
    · rw [if_pos hbusy] at hstep
      cases hstep
    · rw [if_neg hbusy] at hstep
      obtain rfl := Option.some.inj hstep
      exact ⟨h.window, h.last_eq, h.record⟩
  | client =>
    cases hclient : s.client with
    | nil => simp [Connection.step, hclient] at hstep
    | cons w writes =>
      have hkeep := hguard w (by rw [hclient]; rfl)
      simp only [Connection.step, hclient] at hstep
      obtain rfl := Option.some.inj hstep
      exact ⟨hkeep.trans h.window, h.last_eq, h.record⟩

/-! ## Main result -/

/-- In every run in which the dashboards are regular and the client does not change what the poll under way is
going to read, the refresh is run exactly at the polls that are up after one, or an initial check, that was
not. -/
theorem onReconnects_of_undisturbed (root dashboard : Response) (events : List PollEvent) (s : PollState)
    (hguard : Guarded step Undisturbed (PollState.start root dashboard) events)
    (hrun : run step (PollState.start root dashboard) events = some s) :
    OnReconnects (initialServerCheckConnection root dashboard).2 s.polls := by
  exact (run_invariant (fun _ _ _ h hg hs => PollInv.step h hg hs) (PollInv.start root dashboard) hguard
    hrun).record

/-- An answer with a detector attached, and one that is an error. -/
def attached : Response := ⟨200, "", some (.object [("Detector", .object [])])⟩

def refused : Response := ⟨500, "", none⟩

/-- Serval comes up between the constructor and the first poll that looks. A client reads the detector while the
poll has not yet asked. -/
theorem onReconnects_of_undisturbed_up :
    OnReconnects (initialServerCheckConnection refused refused).2 [⟨true, true⟩] := by
  let replies : RefreshReplies := ⟨attached, none, attached, attached⟩
  let events : List PollEvent :=
    [.wake attached, .request (.getDetector refused), .wake attached, .client] ++
      List.replicate 6 (.poll replies)
  exact onReconnects_of_undisturbed refused refused events
    ⟨⟨1, 1⟩, 0, 0, false, .refresh [.detConnected 1, .detConnected 1, .detConnected 1] 1 1, [],
      [⟨true, true⟩]⟩ (by decide) (by decide)

/-- `getDetector` of a client fails between the check of a poll that is up and its reads: the refresh is
missed. -/
theorem not_onReconnects_getDetector :
    ¬ ∀ (root dashboard : Response) (events : List PollEvent) (s : PollState),
      run step (PollState.start root dashboard) events = some s →
      OnReconnects (initialServerCheckConnection root dashboard).2 s.polls := by
  intro h
  let replies : RefreshReplies := ⟨attached, none, attached, attached⟩
  let events : List PollEvent :=
    [.wake attached, .wake attached, .poll replies, .poll replies, .poll replies,
      .request (.getDetector refused), .client, .poll replies, .poll replies, .poll replies]
  have hmissed := h refused refused events
    ⟨⟨1, 0⟩, 0, 0, false, .store 1 0, [], [⟨true, false⟩]⟩ (by decide)
  exact absurd hmissed.1 (by decide)

end ADTimePix3.Serval.Connection
