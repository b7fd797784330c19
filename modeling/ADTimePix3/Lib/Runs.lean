import Mathlib.Data.List.Basic

/-!
# Runs of a state machine

A machine takes events one after the other; an event that goes wrong has no next state (`none`), and no run
continues after it. A guard is a condition on a state and the event it is about to take.

The rules: `run_isSome_iff` for machines that go wrong exactly when the guard fails
(`run_isSome_iff_of_forall` for events of a kind), `run_simulates` for machines that follow an abstract one as
long as the guard holds (`run_follows` without a guard, `run_forward` for an abstract one that may stop),
`run_invariant` for what a guarded run preserves (`run_preserves` without a guard), `run_along` for what a
run keeps between its events and its states, `guarded_congr` for guards that amount to the same.
-/

namespace Runs

variable {σ τ ε : Type} (step : σ → ε → Option σ)

/-- The state after a list of events. -/
def run (s : σ) (events : List ε) : Option σ := events.foldlM step s

/-- The guard holds at every event of the run. -/
def Guarded (guard : σ → ε → Prop) : σ → List ε → Prop
  | _, [] => True
  | s, e :: events => guard s e ∧ ∀ s', step s e = some s' → Guarded guard s' events

instance Guarded.decidable {guard : σ → ε → Prop} [hguard : ∀ s e, Decidable (guard s e)] :
    ∀ (s : σ) (events : List ε), Decidable (Guarded step guard s events)
  | _, [] => .isTrue trivial
  | s, e :: events =>
    have (s' : σ) : Decidable (Guarded step guard s' events) := Guarded.decidable s' events
    inferInstanceAs (Decidable (guard s e ∧ ∀ s' ∈ step s e, Guarded step guard s' events))

@[simp] theorem run_nil (s : σ) : run step s [] = some s := rfl

theorem run_cons (s : σ) (e : ε) (events : List ε) :
    run step s (e :: events) = (step s e).bind fun s' => run step s' events := rfl

theorem run_cons_of_some {s s' : σ} {e : ε} (h : step s e = some s') (events : List ε) :
    run step s (e :: events) = run step s' events := by
  rw [run_cons, h, Option.bind_some]

theorem run_append (s : σ) (events events' : List ε) :
    run step s (events ++ events') = (run step s events).bind fun s' => run step s' events' :=
  List.foldlM_append

theorem run_append_of_some {s s' : σ} {events : List ε} (h : run step s events = some s') (events' : List ε) :
    run step s (events ++ events') = run step s' events' := by
  unfold run at h ⊢
  rw [List.foldlM_append, h]
  rfl

variable {step}

/-- A machine whose steps go through exactly when the guard holds goes through a run exactly when the guard
holds all along. -/
theorem run_isSome_iff {inv : σ → Prop} {guard : σ → ε → Prop}
    (hok : ∀ s e, inv s → ((step s e).isSome ↔ guard s e))
    (hstep : ∀ s e s', inv s → step s e = some s' → inv s') {s : σ} (hs : inv s) (events : List ε) :
    (run step s events).isSome ↔ Guarded step guard s events := by
  induction events generalizing s with
  | nil => simp [Guarded]
  | cons e events ih =>
    rw [run_cons, Guarded, ← hok s e hs]
    cases h : step s e with
    | none => simp
    | some t =>
      rw [Option.bind_some, ih (hstep s e t hs h)]
      constructor
      · intro hguard
        refine ⟨rfl, fun s' hs' => ?_⟩
        exact Option.some.inj hs' ▸ hguard
      · rintro ⟨-, hguard⟩
        exact hguard t rfl

/-- The same for events of a kind. -/
theorem run_isSome_iff_of_forall {inv : σ → Prop} {guard : σ → ε → Prop} {p : ε → Prop}
    (hok : ∀ s e, inv s → p e → ((step s e).isSome ↔ guard s e))
    (hstep : ∀ s e s', inv s → p e → step s e = some s' → inv s') {s : σ} (hs : inv s) {events : List ε}
    (hp : ∀ e ∈ events, p e) : (run step s events).isSome ↔ Guarded step guard s events := by
  induction events generalizing s with
  | nil => simp [Guarded]
  | cons e events ih =>
    have he := hp e (List.mem_cons_self ..)
    have hevents := fun e' he' => hp e' (List.mem_cons_of_mem e he')
    rw [run_cons, Guarded, ← hok s e hs he]
    cases h : step s e with
    | none => simp
    | some t =>
      rw [Option.bind_some, ih (hstep s e t hs he h) hevents]
      constructor
      · intro hguard
        refine ⟨rfl, fun s' hs' => ?_⟩
        exact Option.some.inj hs' ▸ hguard
      · rintro ⟨-, hguard⟩
        exact hguard t rfl

/-- A machine that follows another one as long as that one goes on goes through its runs. -/
theorem run_forward {ε' : Type} {f : ε → ε'} {astep : τ → ε' → Option τ} {rel : σ → τ → Prop}
    (hstep : ∀ s t e t', rel s t → astep t (f e) = some t' → ∃ s', step s e = some s' ∧ rel s' t')
    {s : σ} {t t' : τ} (hs : rel s t) {events : List ε} (hrun : run astep t (events.map f) = some t') :
    ∃ s', run step s events = some s' ∧ rel s' t' := by
  induction events generalizing s t with
  | nil => exact ⟨s, rfl, Option.some.inj hrun ▸ hs⟩
  | cons e events ih =>
    obtain ⟨t₁, ht₁, hrest⟩ := Option.bind_eq_some_iff.mp hrun
    obtain ⟨s₁, hs₁, hrel⟩ := hstep s t e t₁ hs ht₁
    obtain ⟨s', hs', hrel'⟩ := ih hrel hrest
    exact ⟨s', by rw [run_cons_of_some step hs₁, hs'], hrel'⟩

/-- A machine that follows an abstract one, step by step and as long as the guard holds, follows it through
every guarded run. -/
theorem run_simulates {astep : τ → ε → τ} {rel : σ → τ → Prop} {guard : σ → ε → Prop}
    (hstep : ∀ s t e, rel s t → guard s e → ∃ s', step s e = some s' ∧ rel s' (astep t e))
    {s : σ} {t : τ} (hs : rel s t) {events : List ε} (hguard : Guarded step guard s events) :
    ∃ s', run step s events = some s' ∧ rel s' (events.foldl astep t) := by
  induction events generalizing s t with
  | nil => exact ⟨s, rfl, hs⟩
  | cons e events ih =>
    obtain ⟨he, hrest⟩ := hguard
    obtain ⟨s₁, hs₁, hrel⟩ := hstep s t e hs he
    obtain ⟨s', hs', hrel'⟩ := ih hrel (hrest s₁ hs₁)
    exact ⟨s', by rw [run_cons_of_some step hs₁, hs'], hrel'⟩

/-- What every guarded step preserves holds at the end of every guarded run. -/
theorem run_invariant {inv : σ → Prop} {guard : σ → ε → Prop}
    (hstep : ∀ s e s', inv s → guard s e → step s e = some s' → inv s') {s s' : σ} (hs : inv s)
    {events : List ε} (hguard : Guarded step guard s events) (hrun : run step s events = some s') : inv s' := by
  induction events generalizing s with
  | nil => exact Option.some.inj hrun ▸ hs
  | cons e events ih =>
    obtain ⟨t, ht, hrest⟩ := Option.bind_eq_some_iff.mp hrun
    exact ih (hstep s e t hs hguard.1 ht) (hguard.2 t ht) hrest

/-- A guard that holds of every state and event. -/
theorem guarded_true (s : σ) (events : List ε) : Guarded step (fun _ _ => True) s events := by
  induction events generalizing s with
  | nil => trivial
  | cons e events ih => exact ⟨trivial, fun s' _ => ih s'⟩

/-- `run_simulates` for a machine that needs no guard. -/
theorem run_follows {astep : τ → ε → τ} {rel : σ → τ → Prop}
    (hstep : ∀ s t e, rel s t → ∃ s', step s e = some s' ∧ rel s' (astep t e)) {s : σ} {t : τ} (hs : rel s t)
    (events : List ε) : ∃ s', run step s events = some s' ∧ rel s' (events.foldl astep t) :=
  run_simulates (fun s t e h _ => hstep s t e h) hs (guarded_true s events)

/-- What every step preserves, as a relation between the events taken so far and the state. -/
theorem run_along {inv : List ε → σ → Prop}
    (hstep : ∀ past s e s', inv past s → step s e = some s' → inv (past ++ [e]) s') {s s' : σ} (hs : inv [] s)
    {events : List ε} (hrun : run step s events = some s') : inv events s' := by
  suffices h : ∀ past, inv past s → inv (past ++ events) s' from h [] hs
  clear hs
  induction events generalizing s with
  | nil =>
    intro past hs
    rwa [List.append_nil, ← Option.some.inj hrun]
  | cons e events ih =>
    intro past hs
    obtain ⟨t, ht, hrest⟩ := Option.bind_eq_some_iff.mp hrun
    have hnext := ih hrest (past ++ [e]) (hstep past s e t hs ht)
    rwa [List.append_assoc, List.singleton_append] at hnext

/-- `run_invariant` for what every step preserves. -/
theorem run_preserves {inv : σ → Prop} (hstep : ∀ s e s', inv s → step s e = some s' → inv s') {s s' : σ}
    (hs : inv s) {events : List ε} (hrun : run step s events = some s') : inv s' :=
  run_invariant (fun s e s' h _ => hstep s e s' h) hs (guarded_true s events) hrun

instance instDecidableGuarded {guard : σ → ε → Prop} [∀ s e, Decidable (guard s e)] (s : σ) :
    (events : List ε) → Decidable (Guarded step guard s events)
  | [] => isTrue trivial
  | e :: events =>
    match hs : step s e with
    | none => decidable_of_iff (guard s e) (by simp [Guarded, hs])
    | some s' =>
      have : Decidable (Guarded step guard s' events) := instDecidableGuarded s' events
      decidable_of_iff (guard s e ∧ Guarded step guard s' events) (by simp [Guarded, hs])

/-- The guard of a run's last event holds in the state before it. -/
theorem Guarded.last {guard : σ → ε → Prop} {s s' : σ} {events : List ε} {e : ε}
    (h : Guarded step guard s (events ++ [e])) (hrun : run step s events = some s') : guard s' e := by
  induction events generalizing s with
  | nil => exact Option.some.inj hrun ▸ h.1
  | cons e' events ih =>
    obtain ⟨t, ht, hrest⟩ := Option.bind_eq_some_iff.mp hrun
    exact ih (h.2 t ht) hrest

theorem Guarded.init {guard : σ → ε → Prop} {s : σ} {events events' : List ε}
    (h : Guarded step guard s (events ++ events')) : Guarded step guard s events := by
  induction events generalizing s with
  | nil => trivial
  | cons e events ih => exact ⟨h.1, fun s' hs' => ih (h.2 s' hs')⟩

/-- Two guards that say the same wherever the first has held so far hold at every event of the same runs. -/
theorem guarded_congr {inv : σ → Prop} {guard guard' : σ → ε → Prop}
    (hiff : ∀ s e, inv s → (guard s e ↔ guard' s e))
    (hstep : ∀ s e s', inv s → guard s e → step s e = some s' → inv s') {s : σ} (hs : inv s) (events : List ε) :
    Guarded step guard s events ↔ Guarded step guard' s events := by
  induction events generalizing s with
  | nil => exact Iff.rfl
  | cons e events ih =>
    rw [Guarded, Guarded, ← hiff s e hs]
    refine and_congr_right fun he => forall₂_congr fun s' hs' => ?_
    exact ih (hstep s e s' hs he hs')

/-- A guard that depends on the event only. -/
theorem guarded_of_forall {p : ε → Prop} {events : List ε} (h : ∀ e ∈ events, p e) (s : σ) :
    Guarded step (fun _ e => p e) s events := by
  induction events generalizing s with
  | nil => trivial
  | cons e events ih =>
    refine ⟨h e (List.mem_cons_self ..), fun s' _ => ?_⟩
    exact ih (fun e' he' => h e' (List.mem_cons_of_mem e he')) s'

end Runs
