import Mathlib.Data.List.Basic

/-!
# Computations that can fault

`ExceptT ε (StateM σ)`: a computation reads and writes a state and ends with a value or with a fault; what it wrote
before a fault stays written. `Within allowed x s` says that no other fault than an allowed one comes out of `x`
when it is started in `s`. The rules below turn it into a condition on what the computation looks at.
-/

namespace Faults

variable {ε σ α β ι : Type} {allowed : ε → Prop} {x : ExceptT ε (StateM σ) α} {f : α → ExceptT ε (StateM σ) β}
  {s s' : σ} {a : α} {e : ε} {inv : σ → Prop}

abbrev Action (ε σ α : Type) := ExceptT ε (StateM σ) α

/-- What the computation ends with, and the state it leaves. -/
def outcome (x : Action ε σ α) (s : σ) : Except ε α × σ := (ExceptT.run x).run s

def Returns (x : Action ε σ α) (s : σ) : Prop := ∃ a, (outcome x s).1 = .ok a

def Within (allowed : ε → Prop) (x : Action ε σ α) (s : σ) : Prop := ∀ e, (outcome x s).1 = .error e → allowed e

/-- It returns from every state with `inv`, and leaves one. -/
def Settles (inv : σ → Prop) (x : Action ε σ α) : Prop :=
  ∀ s, inv s → ∃ a s', outcome x s = (.ok a, s') ∧ inv s'

/-- It ends with the fault `e`, whatever the state is. -/
def Blocked (e : ε) (x : Action ε σ α) : Prop := ∀ s, (outcome x s).1 = .error e

/-- It leaves the state as it is, also when it faults. -/
def ReadOnly (x : Action ε σ α) : Prop := ∀ s, (outcome x s).2 = s

/-- The value, or the fault `e` where there is none. -/
def orFault (e : ε) : Option α → Action ε σ α
  | some a => pure a
  | none => throw e

/-- `try x catch …`, for the faults that are caught. -/
def attempt (caught : ε → Bool) (x handler : Action ε σ α) : Action ε σ α :=
  tryCatch x fun e => if caught e then handler else throw e

/-! ## Outcomes -/

@[simp]
theorem outcome_pure (a : α) (s : σ) : outcome (pure a : Action ε σ α) s = (.ok a, s) := rfl

@[simp]
theorem outcome_throw (e : ε) (s : σ) : outcome (throw e : Action ε σ α) s = (.error e, s) := rfl

@[simp]
theorem outcome_get (s : σ) : outcome (get : Action ε σ σ) s = (.ok s, s) := rfl

@[simp]
theorem outcome_modify (g : σ → σ) (s : σ) : outcome (modify g : Action ε σ Unit) s = (.ok (), g s) := rfl

theorem outcome_bind (x : Action ε σ α) (f : α → Action ε σ β) (s : σ) :
    outcome (x >>= f) s =
      match outcome x s with
      | (.ok a, s') => outcome (f a) s'
      | (.error e, s') => (.error e, s') := by
  show (match outcome x s with
    | (r, s') => (ExceptT.bindCont f r).run s') = _
  rcases outcome x s with ⟨r, s'⟩
  cases r <;> rfl

theorem outcome_bind_of_ok (h : outcome x s = (.ok a, s')) : outcome (x >>= f) s = outcome (f a) s' := by
  rw [outcome_bind, h]

theorem outcome_bind_of_error (h : outcome x s = (.error e, s')) : outcome (x >>= f) s = (.error e, s') := by
  rw [outcome_bind, h]

theorem outcome_attempt (caught : ε → Bool) (x handler : Action ε σ α) (s : σ) :
    outcome (attempt caught x handler) s =
      match outcome x s with
      | (.ok a, s') => (.ok a, s')
      | (.error e, s') => if caught e then outcome handler s' else (.error e, s') := by
  show (match outcome x s with
    | (r, s') => (match r with
      | .ok a => (pure a : Action ε σ α)
      | .error e => if caught e then handler else throw e : Action ε σ α).run.run s') = _
  rcases outcome x s with ⟨r, s'⟩
  cases r with
  | ok a => rfl
  | error e =>
    show outcome (if caught e then handler else throw e) s' = _
    split <;> simp_all

/-! ## Rules -/

theorem returns_iff_within : Returns x s ↔ Within (fun _ => False) x s := by
  unfold Returns Within
  cases (outcome x s).1 with
  | ok a => simp
  | error e => simp

theorem Settles.within (h : Settles inv x) (hs : inv s) : Within allowed x s := by
  obtain ⟨a, s', hx, -⟩ := h s hs
  intro e he
  rw [hx] at he
  cases he

@[simp]
theorem within_pure : Within allowed (pure a : Action ε σ α) s ↔ True := by
  simp [Within]

@[simp]
theorem within_throw : Within allowed (throw e : Action ε σ α) s ↔ allowed e := by
  simp [Within]

theorem within_bind :
    Within allowed (x >>= f) s ↔
      Within allowed x s ∧ ∀ a s', outcome x s = (.ok a, s') → Within allowed (f a) s' := by
  unfold Within
  rw [outcome_bind]
  rcases outcome x s with ⟨r, s'⟩
  cases r with
  | ok a => simp
  | error e => simp

theorem Within.bind (hx : Within allowed x s) (hf : ∀ a s', Within allowed (f a) s') :
    Within allowed (x >>= f) s :=
  within_bind.mpr ⟨hx, fun a s' _ => hf a s'⟩

theorem within_bind_of_ok (h : outcome x s = (.ok a, s')) :
    Within allowed (x >>= f) s ↔ Within allowed (f a) s' := by
  unfold Within
  rw [outcome_bind_of_ok h]

@[simp]
theorem within_pure_bind : Within allowed (pure a >>= f) s ↔ Within allowed (f a) s :=
  within_bind_of_ok (outcome_pure a s)

@[simp]
theorem within_get_bind {f : σ → Action ε σ β} : Within allowed (get >>= f) s ↔ Within allowed (f s) s :=
  within_bind_of_ok (outcome_get s)

@[simp]
theorem within_modify_bind {g : σ → σ} {f : Unit → Action ε σ β} :
    Within allowed (modify g >>= f) s ↔ Within allowed (f ()) (g s) :=
  within_bind_of_ok (outcome_modify g s)

@[simp]
theorem within_throw_bind : Within allowed ((throw e : Action ε σ α) >>= f) s ↔ allowed e := by
  rw [within_bind]
  simp

theorem outcome_of_settles {x : Action ε σ Unit} (h : Settles (· = s) x) : outcome x s = (.ok (), s) := by
  obtain ⟨⟨⟩, s', hx, rfl⟩ := h s rfl
  exact hx

@[simp]
theorem within_orFault {o : Option α} :
    Within allowed (orFault e o : Action ε σ α) s ↔ (o = none → allowed e) := by
  cases o <;> simp [orFault]

@[simp]
theorem within_orFault_bind {o : Option α} :
    Within allowed (orFault e o >>= f) s ↔ (o = none → allowed e) ∧ ∀ a, o = some a → Within allowed (f a) s := by
  cases o <;> simp [orFault]

@[simp]
theorem within_map {g : α → β} : Within allowed (g <$> x) s ↔ Within allowed x s := by
  rw [map_eq_pure_bind, within_bind]
  simp

theorem within_ite {c : Prop} [Decidable c] {x y : Action ε σ α} :
    Within allowed (if c then x else y) s ↔ (c → Within allowed x s) ∧ (¬c → Within allowed y s) := by
  split <;> simp_all

/-- Outside of `try`, a fault that is not caught is one that is not caught inside. -/
theorem within_attempt {caught : ε → Bool} {handler : Action ε σ α} (hhandler : ∀ s, Within allowed handler s) :
    Within allowed (attempt caught x handler) s ↔ Within (fun e => caught e = true ∨ allowed e) x s := by
  unfold Within
  rw [outcome_attempt]
  rcases outcome x s with ⟨r, s'⟩
  cases r with
  | ok a => simp
  | error e =>
    cases hcaught : caught e with
    | false => simp [hcaught]
    | true => simpa [hcaught] using show ∀ e, (outcome handler s').1 = .error e → allowed e from hhandler s'

/-! ## Computations that settle -/

theorem settles_pure (a : α) : Settles inv (pure a : Action ε σ α) := fun s hs => ⟨a, s, rfl, hs⟩

theorem settles_modify {g : σ → σ} (h : ∀ s, inv s → inv (g s)) : Settles inv (modify g : Action ε σ Unit) :=
  fun s hs => ⟨(), g s, rfl, h s hs⟩

theorem Settles.bind (hx : Settles inv x) (hf : ∀ a, Settles inv (f a)) : Settles inv (x >>= f) := by
  intro s hs
  obtain ⟨a, s', hx, hs'⟩ := hx s hs
  obtain ⟨b, s'', hf, hs''⟩ := hf a s' hs'
  exact ⟨b, s'', by rw [outcome_bind_of_ok hx, hf], hs''⟩

theorem Settles.discard (hx : Settles inv x) : Settles inv (discard x) :=
  hx.bind fun _ => settles_pure _

theorem Settles.ite {c : Prop} [Decidable c] {x y : Action ε σ α} (hx : c → Settles inv x)
    (hy : ¬c → Settles inv y) : Settles inv (if c then x else y) := by
  split
  · exact hx ‹_›
  · exact hy ‹_›

theorem settles_forM {l : List ι} {g : ι → Action ε σ Unit} (h : ∀ i ∈ l, Settles inv (g i)) :
    Settles inv (l.forM g) := by
  induction l with
  | nil => exact settles_pure ()
  | cons i l ih =>
    show Settles inv (g i >>= fun _ => l.forM g)
    exact (h i List.mem_cons_self).bind fun _ => ih fun j hj => h j (List.mem_cons_of_mem _ hj)

/-! ## Computations that cannot get through -/

theorem error_bind (h : (outcome x s).1 = .error e) : (outcome (x >>= f) s).1 = .error e := by
  rcases hr : outcome x s with ⟨r, s'⟩
  rw [hr] at h
  obtain rfl : r = .error e := h
  rw [outcome_bind_of_error hr]

theorem Blocked.bind (hx : Blocked e x) : Blocked e (x >>= f) := fun s => error_bind (hx s)

theorem Settles.blocked_bind (hx : Settles (fun _ => True) x) (hf : ∀ a, Blocked e (f a)) : Blocked e (x >>= f) := by
  intro s
  obtain ⟨a, s', hx, -⟩ := hx s trivial
  rw [outcome_bind_of_ok hx]
  exact hf a s'

theorem Blocked.not_within (hx : Blocked e x) (he : ¬allowed e) (s : σ) : ¬Within allowed x s :=
  fun h => he (h e (hx s))

/-! ## Computations that only look -/

theorem readOnly_pure (a : α) : ReadOnly (pure a : Action ε σ α) := fun _ => rfl

theorem readOnly_get : ReadOnly (get : Action ε σ σ) := fun _ => rfl

theorem readOnly_orFault (e : ε) (o : Option α) : ReadOnly (orFault e o : Action ε σ α) := by
  cases o <;> exact fun _ => rfl

theorem ReadOnly.bind (hx : ReadOnly x) (hf : ∀ a, ReadOnly (f a)) : ReadOnly (x >>= f) := by
  intro s
  have hs := hx s
  rw [outcome_bind]
  rcases hr : outcome x s with ⟨r, s'⟩
  rw [hr] at hs
  obtain rfl : s' = s := hs
  cases r with
  | ok a => exact hf a s'
  | error e => rfl

theorem ReadOnly.discard (hx : ReadOnly x) : ReadOnly (discard x) :=
  hx.bind fun _ => readOnly_pure _

theorem ReadOnly.ite {c : Prop} [Decidable c] {x y : Action ε σ α} (hx : ReadOnly x) (hy : ReadOnly y) :
    ReadOnly (if c then x else y) := by
  split
  · exact hx
  · exact hy

theorem readOnly_forM {l : List ι} {g : ι → Action ε σ Unit} (h : ∀ i ∈ l, ReadOnly (g i)) :
    ReadOnly (l.forM g) := by
  induction l with
  | nil => exact readOnly_pure ()
  | cons i l ih =>
    show ReadOnly (g i >>= fun _ => l.forM g)
    exact (h i List.mem_cons_self).bind fun _ => ih fun j hj => h j (List.mem_cons_of_mem _ hj)

/-! ## Loops -/

theorem within_forM {l : List ι} {g : ι → Action ε σ Unit} (h : ∀ i ∈ l, ∀ s, Within allowed (g i) s) (s : σ) :
    Within allowed (l.forM g) s := by
  induction l generalizing s with
  | nil => exact within_pure.mpr trivial
  | cons i l ih =>
    show Within allowed (g i >>= fun _ => l.forM g) s
    exact (h i List.mem_cons_self s).bind fun _ s' => ih (fun j hj => h j (List.mem_cons_of_mem _ hj)) s'

/-- The values of a list of places; the fault `e` at the first place without one. -/
def forEach (e : ε) (l : List ι) (o : ι → Option α) : Action ε σ Unit := l.forM fun i => discard (orFault e (o i))

theorem outcome_forEach (l : List ι) (o : ι → Option α) (s : σ) :
    outcome (forEach e l o : Action ε σ Unit) s =
      if l.all fun i => (o i).isSome then (.ok (), s) else (.error e, s) := by
  induction l with
  | nil => rfl
  | cons i l ih =>
    show outcome (discard (orFault e (o i)) >>= fun _ => forEach e l o) s = _
    cases hi : o i with
    | none =>
      rw [outcome_bind_of_error (show outcome (discard (orFault e none)) s = (.error e, s) from rfl)]
      simp [hi]
    | some a =>
      rw [outcome_bind_of_ok (show outcome (discard (orFault e (some a))) s = (.ok ⟨⟩, s) from rfl), ih]
      simp [hi]

@[simp]
theorem within_forEach_bind {l : List ι} {o : ι → Option α} {f : Unit → Action ε σ β} :
    Within allowed (forEach e l o >>= f) s ↔
      ((∃ i ∈ l, o i = none) → allowed e) ∧ ((∀ i ∈ l, (o i).isSome) → Within allowed (f ()) s) := by
  by_cases h : ∀ i ∈ l, (o i).isSome
  · have hall : l.all (fun i => (o i).isSome) = true := List.all_eq_true.mpr h
    rw [within_bind_of_ok (by rw [outcome_forEach, if_pos hall])]
    have hnone : ¬∃ i ∈ l, o i = none := by
      rintro ⟨i, hi, hi'⟩
      simpa [hi'] using h i hi
    exact ⟨fun hw => ⟨fun hex => absurd hex hnone, fun _ => hw⟩, fun hw => hw.2 h⟩
  · have hall : ¬l.all (fun i => (o i).isSome) = true := fun hall => h (List.all_eq_true.mp hall)
    have hnone : ∃ i ∈ l, o i = none := by simpa using h
    rw [Within, outcome_bind_of_error (by rw [outcome_forEach, if_neg hall])]
    exact ⟨fun hw => ⟨fun _ => hw e rfl, fun hsome => absurd hsome h⟩,
      fun hw e' he => Except.error.inj he ▸ hw.1 hnone⟩

@[simp]
theorem within_forEach {l : List ι} {o : ι → Option α} :
    Within allowed (forEach e l o : Action ε σ Unit) s ↔ ((∃ i ∈ l, o i = none) → allowed e) := by
  rw [← bind_pure (forEach e l o), within_forEach_bind]
  simp

end Faults
