import ADTimePix3.Lib.Logs
import Mathlib.Algebra.Order.Ring.Int

/-!
# A recursive mutex, used by one thread

A thread takes and releases a mutex that it may hold several times, and makes calls. What it does is the log of a
computation, and only its own hold count matters. Some calls (`free`) are to be made only when the count is zero.

`Sound free n m x` says that `x`, begun at hold count `n`, ends at `m` and makes its `free` calls at zero. The rules
compute it along a computation; `Quiet free k x` is for the parts that make no such call, where only the change `k` of
the count matters.
-/

namespace RecursiveMutex

open Logged

/-- What a thread does. -/
inductive Op (κ : Type) where
  | lock
  | unlock
  | call (callback : κ)

variable {κ α β : Type}

/-- By how much the hold count changes. -/
def Op.delta : Op κ → ℤ
  | .lock => 1
  | .unlock => -1
  | .call _ => 0

def net (log : List (Op κ)) : ℤ := (log.map Op.delta).sum

/-- The calls, each with the hold count at which it is made, when the first operation is done at `n`. -/
def callsAt : ℤ → List (Op κ) → List (κ × ℤ)
  | _, [] => []
  | n, .call callback :: log => (callback, n) :: callsAt n log
  | n, op :: log => callsAt (n + op.delta) log

theorem net_append (log log' : List (Op κ)) : net (log ++ log') = net log + net log' := by
  unfold net
  rw [List.map_append, List.sum_append]

theorem net_cons (op : Op κ) (log : List (Op κ)) : net (op :: log) = op.delta + net log := by
  unfold net
  rw [List.map_cons, List.sum_cons]

theorem callsAt_append (n : ℤ) (log log' : List (Op κ)) :
    callsAt n (log ++ log') = callsAt n log ++ callsAt (n + net log) log' := by
  induction log generalizing n with
  | nil => rw [List.nil_append, callsAt, List.nil_append, net, List.map_nil, List.sum_nil, Int.add_zero]
  | cons op log ih =>
    rw [net_cons, ← Int.add_assoc]
    cases op with
    | lock => exact ih _
    | unlock => exact ih _
    | call callback =>
      show (callback, n) :: callsAt n (log ++ log') = (callback, n) :: (callsAt n log ++ _)
      rw [ih, Op.delta, Int.add_zero]

variable {free : κ → Prop} {n m k : ℤ} {x : Logged (Op κ) α} {f : α → Logged (Op κ) β}
  {g : Unit → Logged (Op κ) β}

/-- Begun at hold count `n`, the computation ends at `m`, and its free calls are made at zero. -/
structure Sound (free : κ → Prop) (n m : ℤ) (x : Logged (Op κ) α) : Prop where
  calls : ∀ c ∈ callsAt n x.log, free c.1 → c.2 = 0
  ends : n + net x.log = m

/-- The hold count changes by `k`, and no free call is made. -/
structure Quiet (free : κ → Prop) (k : ℤ) (x : Logged (Op κ) α) : Prop where
  calls : ∀ n, ∀ c ∈ callsAt n x.log, ¬free c.1
  net_eq : net x.log = k

/-- Take the mutex and release it again. -/
def underMutex : Logged (Op κ) Unit := do
  tell .lock
  tell .unlock

/-! ## Quiet computations -/

theorem quiet_pure (a : α) : Quiet free 0 (pure a) := ⟨fun _ _ h => absurd h List.not_mem_nil, rfl⟩

theorem quiet_unlock : Quiet free (-1) (tell (.unlock : Op κ)) := ⟨fun _ _ h => absurd h List.not_mem_nil, rfl⟩

theorem quiet_underMutex : Quiet free 0 (underMutex : Logged (Op κ) Unit) :=
  ⟨fun _ _ h => absurd h List.not_mem_nil, rfl⟩

/-- Release the mutex and return. -/
theorem quiet_unlock_pure (a : β) : Quiet free (-1) (do tell (.unlock : Op κ); return a) :=
  ⟨fun _ _ h => absurd h List.not_mem_nil, rfl⟩

theorem Quiet.sound (h : Quiet free k x) (n : ℤ) : Sound free n (n + k) x :=
  ⟨fun c hc hfree => absurd hfree (h.calls n c hc), by rw [h.net_eq]⟩

/-! ## Sound computations -/

theorem sound_pure {a : α} : Sound free n m (pure a) ↔ n = m := by
  constructor
  · rintro ⟨-, hends⟩
    exact (Int.add_zero n).symm.trans hends
  · rintro rfl
    exact ⟨fun _ h => absurd h List.not_mem_nil, Int.add_zero n⟩

/-- A sequence is sound when both parts are, with the hold count between them. -/
theorem sound_bind : Sound free n m (x >>= f) ↔ ∃ j, Sound free n j x ∧ Sound free j m (f x.val) := by
  constructor
  · rintro ⟨hcalls, hends⟩
    rw [log_bind, callsAt_append] at hcalls
    rw [log_bind, net_append, ← Int.add_assoc] at hends
    exact ⟨n + net x.log, ⟨fun c hc => hcalls c (List.mem_append_left _ hc), rfl⟩,
      ⟨fun c hc => hcalls c (List.mem_append_right _ hc), hends⟩⟩
  · rintro ⟨j, ⟨hcalls, rfl⟩, ⟨hcalls', hends⟩⟩
    constructor
    · rw [log_bind, callsAt_append]
      intro c hc
      rcases List.mem_append.mp hc with hc | hc
      · exact hcalls c hc
      · exact hcalls' c hc
    · rw [log_bind, net_append, ← Int.add_assoc, hends]

/-- A quiet part in front only moves the hold count. -/
theorem sound_quiet_bind (hx : Quiet free k x) : Sound free n m (x >>= f) ↔ Sound free (n + k) m (f x.val) := by
  rw [sound_bind]
  constructor
  · rintro ⟨j, ⟨-, rfl⟩, hf⟩
    rwa [hx.net_eq] at hf
  · intro hf
    exact ⟨n + k, hx.sound n, hf⟩

/-- So does a quiet part at the end. -/
theorem sound_bind_quiet {j : ℤ} (hf : Quiet free k (f x.val)) (hj : j + k = m) :
    Sound free n m (x >>= f) ↔ Sound free n j x := by
  subst hj
  rw [sound_bind]
  constructor
  · rintro ⟨i, hx, ⟨-, hends⟩⟩
    rw [hf.net_eq] at hends
    rwa [← add_right_cancel hends]
  · intro hx
    exact ⟨j, hx, hf.sound j⟩

theorem sound_lock_bind : Sound free n m (tell (.lock : Op κ) >>= g) ↔ Sound free (n + 1) m (g ()) :=
  sound_quiet_bind ⟨fun _ _ h => absurd h List.not_mem_nil, rfl⟩

theorem sound_unlock_bind : Sound free n m (tell (.unlock : Op κ) >>= g) ↔ Sound free (n + -1) m (g ()) :=
  sound_quiet_bind quiet_unlock

theorem sound_underMutex_bind : Sound free n m (underMutex >>= g) ↔ Sound free n m (g ()) := by
  rw [sound_quiet_bind quiet_underMutex, Int.add_zero]

theorem sound_call_bind {callback : κ} :
    Sound free n m (tell (.call callback) >>= g) ↔ (free callback → n = 0) ∧ Sound free n m (g ()) := by
  rw [sound_bind]
  constructor
  · rintro ⟨j, ⟨hcalls, rfl⟩, hg⟩
    exact ⟨hcalls (callback, n) List.mem_cons_self, by simpa [net, Op.delta] using hg⟩
  · rintro ⟨hfree, hg⟩
    refine ⟨n, ⟨fun c hc => ?_, ?_⟩, hg⟩
    · rw [List.mem_singleton.mp hc]
      exact hfree
    · simp [net, Op.delta]

end RecursiveMutex
