import Mathlib.Data.List.Basic

/-!
# Computations that keep a log

A computation with the list of what it did, in order. `Yields P Q` says that every entry of the log has `P` and the
value has `Q`; it goes through a sequence of computations (`yields_bind`) and, with an invariant, through a loop
(`yields_loop`).
-/

structure Logged (ω α : Type) where
  val : α
  log : List ω

namespace Logged

variable {ω α β ι : Type}

instance : Monad (Logged ω) where
  pure a := ⟨a, []⟩
  bind x f := ⟨(f x.val).val, x.log ++ (f x.val).log⟩

def tell (w : ω) : Logged ω Unit := ⟨(), [w]⟩

@[simp] theorem val_pure (a : α) : (pure a : Logged ω α).val = a := rfl

@[simp] theorem log_pure (a : α) : (pure a : Logged ω α).log = [] := rfl

@[simp] theorem val_bind (x : Logged ω α) (f : α → Logged ω β) : (x >>= f).val = (f x.val).val := rfl

@[simp] theorem log_bind (x : Logged ω α) (f : α → Logged ω β) : (x >>= f).log = x.log ++ (f x.val).log := rfl

@[simp] theorem log_tell (w : ω) : (tell w).log = [w] := rfl

/-- Every entry of the log has `P`, and the value has `Q`. -/
structure Yields (P : ω → Prop) (Q : α → Prop) (x : Logged ω α) : Prop where
  log : ∀ w ∈ x.log, P w
  val : Q x.val

variable {P : ω → Prop} {Q Q' : α → Prop} {R : β → Prop}

theorem yields_pure {a : α} (h : Q a) : Yields P Q (pure a) := ⟨fun _ hw => absurd hw List.not_mem_nil, h⟩

theorem yields_bind {x : Logged ω α} {f : α → Logged ω β} (hx : Yields P Q x)
    (hf : ∀ a, Q a → Yields P R (f a)) : Yields P R (x >>= f) := by
  have hrest := hf x.val hx.val
  refine ⟨fun w hw => ?_, hrest.val⟩
  rcases List.mem_append.mp hw with hw | hw
  · exact hx.log w hw
  · exact hrest.log w hw

/-- Two continuations that do the same with the value at hand. -/
theorem bind_eq_of_val {x : Logged ω α} {f g : α → Logged ω β} (h : f x.val = g x.val) : x >>= f = x >>= g := by
  show (⟨(f x.val).val, x.log ++ (f x.val).log⟩ : Logged ω β) = ⟨(g x.val).val, x.log ++ (g x.val).log⟩
  rw [h]

theorem yields_tell_bind {w : ω} {f : Unit → Logged ω β} (hw : P w) (hf : Yields P R (f ())) :
    Yields P R (tell w >>= f) :=
  yields_bind (Q := fun _ => True) ⟨fun _ h => List.mem_singleton.mp h ▸ hw, trivial⟩ fun _ _ => hf

theorem Yields.mono {x : Logged ω α} (h : Yields P Q x) (hQ : ∀ a, Q a → Q' a) : Yields P Q' x :=
  ⟨h.log, hQ _ h.val⟩

/-! ## Loops -/

/-- The turns of a loop, each with its input, until one of them leaves the loop. -/
def loop (turn : ι → α → Logged ω (Option α)) : List ι → α → Logged ω (Option α)
  | [], a => pure (some a)
  | i :: inputs, a => do
    match ← turn i a with
    | none => return none
    | some a => loop turn inputs a

/-- What holds of the state before a turn, as long as the loop is not left. -/
def Stays (inv : α → Prop) (result : Option α) : Prop := ∀ a ∈ result, inv a

theorem stays_none {inv : α → Prop} : Stays inv none := fun _ h => absurd h (Option.not_mem_none _)

theorem stays_some {inv : α → Prop} {a : α} : Stays inv (some a) ↔ inv a := by
  simp [Stays]

/-- When every turn keeps the invariant and logs only entries with `P`, so does the loop. -/
theorem yields_loop {turn : ι → α → Logged ω (Option α)} {inv : α → Prop}
    (hturn : ∀ i a, inv a → Yields P (Stays inv) (turn i a)) (inputs : List ι) {a : α} (ha : inv a) :
    Yields P (Stays inv) (loop turn inputs a) := by
  induction inputs generalizing a with
  | nil => exact yields_pure (stays_some.mpr ha)
  | cons i inputs ih =>
    refine yields_bind (hturn i a ha) fun result hresult => ?_
    cases result with
    | none => exact yields_pure stays_none
    | some a' => exact ih (stays_some.mp hresult)

end Logged
