import ADTimePix3.Lib.Runs
import Mathlib.Data.Fintype.Defs

/-!
# Threads that interfere

Threads with a local state each and a shared state, interleaved step by step. Every local state comes with what
its thread relies on of the shared state; a step that does not break what another thread relies on leaves it
undisturbed.
-/

namespace Interference

variable {ι σ ℓ ε : Type} [DecidableEq ι]

structure State (ι σ ℓ : Type) where
  shared : σ
  thread : ι → ℓ

section

variable (tstep : ι → ε → σ → ℓ → Option (σ × ℓ))

/-- Thread `e.1` takes the step `e.2`. -/
def step (s : State ι σ ℓ) (e : ι × ε) : Option (State ι σ ℓ) :=
  (tstep e.1 e.2 s.shared (s.thread e.1)).map fun r => ⟨r.1, Function.update s.thread e.1 r.2⟩

/-- What the other threads rely on is not broken by the step. -/
def Undisturbed (rely : ℓ → σ → Prop) (s : State ι σ ℓ) (e : ι × ε) : Prop :=
  ∀ r ∈ tstep e.1 e.2 s.shared (s.thread e.1), ∀ i, i ≠ e.1 →
    rely (s.thread i) s.shared → rely (s.thread i) r.1

instance instDecidableUndisturbed [Fintype ι] {rely : ℓ → σ → Prop} [∀ l p, Decidable (rely l p)]
    (s : State ι σ ℓ) (e : ι × ε) : Decidable (Undisturbed tstep rely s e) :=
  inferInstanceAs (Decidable (∀ r ∈ tstep e.1 e.2 s.shared (s.thread e.1), ∀ i, i ≠ e.1 →
    rely (s.thread i) s.shared → rely (s.thread i) r.1))

end

variable {tstep : ι → ε → σ → ℓ → Option (σ × ℓ)}

/-- What a step does to the threads: the one that takes it moves, and the others stay where they are. -/
theorem step_eq_some {s s' : State ι σ ℓ} {e : ι × ε} (h : step tstep s e = some s') :
    ∃ r, tstep e.1 e.2 s.shared (s.thread e.1) = some r ∧ s'.shared = r.1 ∧ s'.thread e.1 = r.2 ∧
      ∀ i, i ≠ e.1 → s'.thread i = s.thread i := by
  obtain ⟨r, hr, rfl⟩ := Option.map_eq_some_iff.mp h
  exact ⟨r, hr, rfl, Function.update_self .., fun i hi => Function.update_of_ne hi ..⟩

/-- The rule for runs. `inv` is about the shared state only. -/
theorem run_of_undisturbed {rely : ℓ → σ → Prop} {inv : σ → Prop}
    (hown : ∀ i e p l r, inv p → rely l p → tstep i e p l = some r → inv r.1 ∧ rely r.2 r.1)
    {s s' : State ι σ ℓ} {events : List (ι × ε)} (hinv : inv s.shared)
    (hrely : ∀ i, rely (s.thread i) s.shared)
    (hguard : Runs.Guarded (step tstep) (Undisturbed tstep rely) s events)
    (hrun : Runs.run (step tstep) s events = some s') :
    inv s'.shared ∧ ∀ i, rely (s'.thread i) s'.shared := by
  have hstep : ∀ (s : State ι σ ℓ) (e : ι × ε) (s' : State ι σ ℓ),
      (inv s.shared ∧ ∀ i, rely (s.thread i) s.shared) → Undisturbed tstep rely s e → step tstep s e = some s' →
      (inv s'.shared ∧ ∀ i, rely (s'.thread i) s'.shared) := by
    intro s e s' h hg hs
    obtain ⟨r, hr, hshared, hthread, hother⟩ := step_eq_some hs
    obtain ⟨hinv', hrely'⟩ := hown e.1 e.2 _ _ r h.1 (h.2 e.1) hr
    refine ⟨hshared ▸ hinv', fun i => ?_⟩
    by_cases hi : i = e.1
    · rw [hi, hthread, hshared]
      exact hrely'
    · rw [hother i hi, hshared]
      exact hg r hr i hi (h.2 i)
  exact Runs.run_invariant hstep ⟨hinv, hrely⟩ hguard hrun

end Interference
