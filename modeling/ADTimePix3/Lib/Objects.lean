import ADTimePix3.Lib.Runs
import Mathlib.Logic.Function.Basic

/-!
# Objects of a value class

Programs over the objects of one class, as C++ has them: objects are constructed, copied, moved, assigned to
and destroyed, and their members are called. What a move leaves in the object moved from is not specified, so
it is a parameter of the move. A program that touches an object which is not alive has no result, and neither
has a call with undefined behaviour.

The rules: `run_refines` for a class that does what another one specifies, whatever the moves leave;
`run_isSome_iff_onLive` and `all_of_run` for a class whose calls are defined as long as its invariant holds.
-/

namespace Objects

open Runs

/-- How a call ends. -/
inductive Outcome (α : Type) where
  | undefined
  | throws
  | returns (value : α)
deriving DecidableEq

/-- One outcome does what another one asks for; of undefined behaviour nothing is asked. -/
def Outcome.Refines {α β : Type} (rel : α → β → Prop) : Outcome α → Outcome β → Prop
  | _, .undefined => True
  | .throws, .throws => True
  | .returns x, .returns y => rel x y
  | _, _ => False

theorem Outcome.refines_undefined {α β : Type} {rel : α → β → Prop} (o : Outcome α) :
    o.Refines rel (.undefined : Outcome β) := by
  cases o <;> trivial

theorem Outcome.refines_throws {α β : Type} {rel : α → β → Prop} {o : Outcome α} (h : o = .throws) :
    o.Refines rel (.throws : Outcome β) := by
  rw [h]
  trivial

/-- A class: the arguments of its constructor are of type `K`, its calls of type `M`, what they return is of
type `V`, and what a move may leave is described by `J`. An assignment is told whether its two objects are the
same one. A call has an object and an argument, which is another object, or the same. -/
structure Class (C K M V J : Type) where
  construct : K → Outcome C
  copy : C → C
  /-- The new object, and the one moved from. -/
  move : J → C → C × C
  assign : Bool → C → C → C
  /-- The object assigned to, and the one moved from. -/
  moveAssign : J → Bool → C → C → C × C
  call : M → C → C → Outcome (C × V)

inductive Op (K M J : Type) where
  | construct (i : ℕ) (args : K)
  | copy (i j : ℕ)
  | move (i j : ℕ) (left : J)
  | assign (i j : ℕ)
  | moveAssign (i j : ℕ) (left : J)
  | destroy (i : ℕ)
  | call (i j : ℕ) (m : M)

/-- The objects that are alive, and what the calls have returned so far (`none` for an exception). -/
structure Store (C V : Type) where
  objects : ℕ → Option C
  log : List (Option V)

variable {C A K M V J : Type}

namespace Store

def init : Store C V := ⟨fun _ => none, []⟩

def put (s : Store C V) (i : ℕ) (c : C) : Store C V := { s with objects := Function.update s.objects i (some c) }

def drop (s : Store C V) (i : ℕ) : Store C V := { s with objects := Function.update s.objects i none }

def record (s : Store C V) (v : Option V) : Store C V := { s with log := s.log ++ [v] }

variable {s : Store C V} {c : C} {i k : ℕ}

theorem put_self : (s.put i c).objects i = some c := Function.update_self ..

theorem put_of_ne (h : k ≠ i) : (s.put i c).objects k = s.objects k := Function.update_of_ne h ..

theorem drop_self : (s.drop i).objects i = none := Function.update_self ..

theorem drop_of_ne (h : k ≠ i) : (s.drop i).objects k = s.objects k := Function.update_of_ne h ..

end Store

/-- One operation of a program. An exception leaves the objects as they are. -/
def step (cls : Class C K M V J) (s : Store C V) : Op K M J → Option (Store C V)
  | .construct i args =>
    match s.objects i, cls.construct args with
    | none, .returns c => some (s.put i c)
    | none, .throws => some (s.record none)
    | _, _ => none
  | .copy i j =>
    match s.objects i, s.objects j with
    | none, some other => some (s.put i (cls.copy other))
    | _, _ => none
  | .move i j left =>
    match s.objects i, s.objects j with
    | none, some other => some ((s.put j (cls.move left other).2).put i (cls.move left other).1)
    | _, _ => none
  | .assign i j =>
    match s.objects i, s.objects j with
    | some c, some other => some (s.put i (cls.assign (decide (i = j)) c other))
    | _, _ => none
  | .moveAssign i j left =>
    match s.objects i, s.objects j with
    | some c, some other =>
      some ((s.put j (cls.moveAssign left (decide (i = j)) c other).2).put i
        (cls.moveAssign left (decide (i = j)) c other).1)
    | _, _ => none
  | .destroy i => (s.objects i).map fun _ => s.drop i
  | .call i j m =>
    match s.objects i, s.objects j with
    | some c, some other =>
      match cls.call m c other with
      | .undefined => none
      | .throws => some (s.record none)
      | .returns (c, v) => some ((s.put i c).record (some v))
    | _, _ => none

/-- The operation constructs objects where there is none, and uses objects that are alive. -/
def OnLive (s : Store C V) : Op K M J → Prop
  | .construct i _ => s.objects i = none
  | .copy i j => s.objects i = none ∧ (s.objects j).isSome
  | .move i j _ => s.objects i = none ∧ (s.objects j).isSome
  | .assign i j => (s.objects i).isSome ∧ (s.objects j).isSome
  | .moveAssign i j _ => (s.objects i).isSome ∧ (s.objects j).isSome
  | .destroy i => (s.objects i).isSome
  | .call i j _ => (s.objects i).isSome ∧ (s.objects j).isSome

/-! ## A class and its specification -/

/-- The operation without what the move leaves. -/
def Op.erase : Op K M J → Op K M Unit
  | .construct i args => .construct i args
  | .copy i j => .copy i j
  | .move i j _ => .move i j ()
  | .assign i j => .assign i j
  | .moveAssign i j _ => .moveAssign i j ()
  | .destroy i => .destroy i
  | .call i j m => .call i j m

/-- A class does what a specification says, which does not know what a move leaves: its objects stay related to
the specified ones, and its calls return what is specified wherever something is. -/
structure Refines (cls : Class C K M V J) (spec : Class A K M V Unit) (rel : C → A → Prop) : Prop where
  construct : ∀ args, (cls.construct args).Refines rel (spec.construct args)
  copy : ∀ {c a}, rel c a → rel (cls.copy c) (spec.copy a)
  move : ∀ left {c a}, rel c a →
    rel (cls.move left c).1 (spec.move () a).1 ∧ rel (cls.move left c).2 (spec.move () a).2
  assign : ∀ same {c a d b}, rel c a → rel d b → rel (cls.assign same c d) (spec.assign same a b)
  moveAssign : ∀ left same {c a d b}, rel c a → rel d b →
    rel (cls.moveAssign left same c d).1 (spec.moveAssign () same a b).1 ∧
      rel (cls.moveAssign left same c d).2 (spec.moveAssign () same a b).2
  call : ∀ m {c a d b}, rel c a → rel d b →
    (cls.call m c d).Refines (fun r r' => rel r.1 r'.1 ∧ r.2 = r'.2) (spec.call m a b)

/-- The same objects are alive and related, and the calls have returned the same. -/
structure Store.Refines (rel : C → A → Prop) (s : Store C V) (t : Store A V) : Prop where
  dead : ∀ i, t.objects i = none → s.objects i = none
  alive : ∀ i a, t.objects i = some a → ∃ c, s.objects i = some c ∧ rel c a
  log : s.log = t.log

namespace Store.Refines

variable {rel : C → A → Prop} {s : Store C V} {t : Store A V}

theorem init : Store.Refines rel (.init : Store C V) (.init : Store A V) where
  dead := fun _ _ => rfl
  alive := fun _ _ h => absurd h (Option.some_ne_none _).symm
  log := rfl

theorem put (h : Store.Refines rel s t) {c : C} {a : A} (hrel : rel c a) (i : ℕ) :
    Store.Refines rel (s.put i c) (t.put i a) where
  dead := by
    intro k hk
    by_cases hki : k = i
    · subst hki
      rw [put_self] at hk
      cases hk
    · rw [put_of_ne hki] at hk ⊢
      exact h.dead k hk
  alive := by
    intro k a' hk
    by_cases hki : k = i
    · subst hki
      rw [put_self] at hk ⊢
      cases hk
      exact ⟨c, rfl, hrel⟩
    · rw [put_of_ne hki] at hk ⊢
      exact h.alive k a' hk
  log := h.log

theorem drop (h : Store.Refines rel s t) (i : ℕ) : Store.Refines rel (s.drop i) (t.drop i) where
  dead := by
    intro k hk
    by_cases hki : k = i
    · subst hki
      exact drop_self
    · rw [drop_of_ne hki] at hk ⊢
      exact h.dead k hk
  alive := by
    intro k a' hk
    by_cases hki : k = i
    · subst hki
      rw [drop_self] at hk
      cases hk
    · rw [drop_of_ne hki] at hk ⊢
      exact h.alive k a' hk
  log := h.log

theorem record (h : Store.Refines rel s t) (v : Option V) : Store.Refines rel (s.record v) (t.record v) where
  dead := h.dead
  alive := h.alive
  log := congrArg (· ++ [v]) h.log

end Store.Refines

section Refinement

variable {cls : Class C K M V J} {spec : Class A K M V Unit} {rel : C → A → Prop}

/-- Step lemma: what the specification allows the class does. -/
theorem step_refines (h : Refines cls spec rel) {s : Store C V} {t t' : Store A V} (op : Op K M J)
    (hst : Store.Refines rel s t) (ht : step spec t op.erase = some t') :
    ∃ s', step cls s op = some s' ∧ Store.Refines rel s' t' := by
  cases op with
  | construct i args =>
    simp only [step, Op.erase] at ht ⊢
    have hconstruct := h.construct args
    cases hi : t.objects i with
    | some a => simp [hi] at ht
    | none =>
      rw [hst.dead i hi]
      rw [hi] at ht
      cases hspec : spec.construct args <;> rw [hspec] at ht hconstruct
      · cases ht
      · cases hcls : cls.construct args <;> rw [hcls] at hconstruct
        · exact hconstruct.elim
        · cases ht
          exact ⟨_, rfl, hst.record none⟩
        · exact hconstruct.elim
      · cases hcls : cls.construct args <;> rw [hcls] at hconstruct
        · exact hconstruct.elim
        · exact hconstruct.elim
        · cases ht
          exact ⟨_, rfl, hst.put hconstruct i⟩
  | copy i j =>
    simp only [step, Op.erase] at ht ⊢
    cases hi : t.objects i with
    | some a => simp [hi] at ht
    | none =>
      cases hj : t.objects j with
      | none => simp [hi, hj] at ht
      | some b =>
        obtain ⟨d, hd, hrel⟩ := hst.alive j b hj
        rw [hi, hj] at ht
        rw [hst.dead i hi, hd]
        cases ht
        exact ⟨_, rfl, hst.put (h.copy hrel) i⟩
  | move i j left =>
    simp only [step, Op.erase] at ht ⊢
    cases hi : t.objects i with
    | some a => simp [hi] at ht
    | none =>
      cases hj : t.objects j with
      | none => simp [hi, hj] at ht
      | some b =>
        obtain ⟨d, hd, hrel⟩ := hst.alive j b hj
        obtain ⟨hnew, hleft⟩ := h.move left hrel
        rw [hi, hj] at ht
        rw [hst.dead i hi, hd]
        cases ht
        exact ⟨_, rfl, (hst.put hleft j).put hnew i⟩
  | assign i j =>
    simp only [step, Op.erase] at ht ⊢
    cases hi : t.objects i with
    | none => simp [hi] at ht
    | some a =>
      cases hj : t.objects j with
      | none => simp [hi, hj] at ht
      | some b =>
        obtain ⟨c, hc, hca⟩ := hst.alive i a hi
        obtain ⟨d, hd, hdb⟩ := hst.alive j b hj
        rw [hi, hj] at ht
        rw [hc, hd]
        cases ht
        exact ⟨_, rfl, hst.put (h.assign _ hca hdb) i⟩
  | moveAssign i j left =>
    simp only [step, Op.erase] at ht ⊢
    cases hi : t.objects i with
    | none => simp [hi] at ht
    | some a =>
      cases hj : t.objects j with
      | none => simp [hi, hj] at ht
      | some b =>
        obtain ⟨c, hc, hca⟩ := hst.alive i a hi
        obtain ⟨d, hd, hdb⟩ := hst.alive j b hj
        obtain ⟨hnew, hleft⟩ := h.moveAssign left (decide (i = j)) hca hdb
        rw [hi, hj] at ht
        rw [hc, hd]
        cases ht
        exact ⟨_, rfl, (hst.put hleft j).put hnew i⟩
  | destroy i =>
    simp only [step, Op.erase] at ht ⊢
    cases hi : t.objects i with
    | none => simp [hi] at ht
    | some a =>
      obtain ⟨c, hc, -⟩ := hst.alive i a hi
      rw [hi] at ht
      rw [hc]
      cases ht
      exact ⟨_, rfl, hst.drop i⟩
  | call i j m =>
    simp only [step, Op.erase] at ht ⊢
    cases hi : t.objects i with
    | none => simp [hi] at ht
    | some a =>
      cases hj : t.objects j with
      | none => simp [hi, hj] at ht
      | some b =>
        obtain ⟨c, hc, hca⟩ := hst.alive i a hi
        obtain ⟨d, hd, hdb⟩ := hst.alive j b hj
        have hcall := h.call m hca hdb
        rw [hi, hj] at ht
        rw [hc, hd]
        cases hspec : spec.call m a b <;> simp only [hspec] at ht hcall
        · cases ht
        · cases hcls : cls.call m c d <;> rw [hcls] at hcall <;> simp only [hcls]
          · exact hcall.elim
          · cases ht
            exact ⟨_, rfl, hst.record none⟩
          · exact hcall.elim
        · cases hcls : cls.call m c d <;> rw [hcls] at hcall <;> simp only [hcls]
          · exact hcall.elim
          · exact hcall.elim
          · obtain ⟨hobj, hvalue⟩ := hcall
            cases ht
            refine ⟨_, rfl, ?_⟩
            rw [hvalue]
            exact (hst.put hobj i).record _

/-- Run lemma: a program that the specification allows goes through, with the specified results, whatever its
moves leave. -/
theorem run_refines (h : Refines cls spec rel) {ops : List (Op K M J)} {t : Store A V}
    (ht : run (step spec) .init (ops.map Op.erase) = some t) :
    ∃ s, run (step cls) .init ops = some s ∧ Store.Refines rel s t :=
  run_forward (fun _ _ op _ hst ht => step_refines h op hst ht) Store.Refines.init ht

end Refinement

/-! ## Classes whose calls are all defined -/

/-- The outcome is defined, and what is returned satisfies a predicate. -/
def Outcome.Satisfies {α : Type} (p : α → Prop) : Outcome α → Prop
  | .undefined => False
  | .throws => True
  | .returns x => p x

theorem Outcome.satisfies_ite {α : Type} {p : α → Prop} {q : Prop} [Decidable q] {o o' : Outcome α}
    (h : o.Satisfies p) (h' : o'.Satisfies p) : (if q then o else o').Satisfies p := by
  by_cases hq : q
  · rwa [if_pos hq]
  · rwa [if_neg hq]

/-- What does what a defined outcome asks for is defined. -/
theorem Outcome.Refines.satisfies {α β : Type} {rel : α → β → Prop} {o : Outcome α} {o' : Outcome β}
    (h : o.Refines rel o') (hdefined : o'.Satisfies fun _ => True) : o.Satisfies fun x => ∃ y, rel x y := by
  cases o' with
  | undefined => exact hdefined.elim
  | throws =>
    cases o with
    | throws => trivial
    | _ => exact h.elim
  | returns y =>
    cases o with
    | returns x => exact ⟨y, h⟩
    | _ => exact h.elim

/-- The arguments of the constructor fit, and the calls are checked ones. -/
def Op.Within (fits : K → Prop) (checked : M → Prop) : Op K M J → Prop
  | .construct _ args => fits args
  | .call _ _ m => checked m
  | _ => True

/-- An invariant of the objects that every call keeps which returns, and under which the checked calls are defined. -/
structure Sound (cls : Class C K M V J) (inv : C → Prop) (fits : K → Prop) (checked : M → Prop) : Prop where
  construct : ∀ args, fits args → (cls.construct args).Satisfies inv
  copy : ∀ {c}, inv c → inv (cls.copy c)
  move : ∀ left {c}, inv c → inv (cls.move left c).1 ∧ inv (cls.move left c).2
  assign : ∀ same {c d}, inv c → inv d → inv (cls.assign same c d)
  moveAssign : ∀ left same {c d}, inv c → inv d →
    inv (cls.moveAssign left same c d).1 ∧ inv (cls.moveAssign left same c d).2
  call : ∀ m {c d r}, inv c → inv d → cls.call m c d = .returns r → inv r.1
  checked_call : ∀ m {c d}, checked m → inv c → inv d → cls.call m c d ≠ .undefined

/-- The objects that are alive satisfy the invariant. -/
def Store.All (inv : C → Prop) (s : Store C V) : Prop := ∀ i, ∀ c ∈ s.objects i, inv c

namespace Store.All

variable {inv : C → Prop} {s : Store C V}

theorem init : Store.All inv (.init : Store C V) := fun _ _ h => absurd h (Option.some_ne_none _).symm

theorem put (h : s.All inv) {c : C} (hc : inv c) (i : ℕ) : (s.put i c).All inv := by
  intro k c' hk
  by_cases hki : k = i
  · subst hki
    rw [put_self] at hk
    cases hk
    exact hc
  · rw [put_of_ne hki] at hk
    exact h k c' hk

theorem drop (h : s.All inv) (i : ℕ) : (s.drop i).All inv := by
  intro k c' hk
  by_cases hki : k = i
  · subst hki
    rw [drop_self] at hk
    cases hk
  · rw [drop_of_ne hki] at hk
    exact h k c' hk

end Store.All

section Soundness

variable {cls : Class C K M V J} {inv : C → Prop} {fits : K → Prop} {checked : M → Prop}

/-- Step lemma: an operation that goes through keeps the invariant. -/
theorem step_keeps (h : Sound cls inv fits checked) {s s' : Store C V} (hs : s.All inv) {op : Op K M J}
    (hop : op.Within fits fun _ => True) (hstep : step cls s op = some s') : s'.All inv := by
  cases op with
  | construct i args =>
    have hconstruct := h.construct args hop
    simp only [step] at hstep
    cases hi : s.objects i with
    | some c => simp [hi] at hstep
    | none =>
      rw [hi] at hstep
      cases hcls : cls.construct args <;> rw [hcls] at hconstruct <;> simp only [hcls] at hstep
      · cases hstep
      · cases hstep
        exact hs
      · cases hstep
        exact hs.put hconstruct i
  | copy i j =>
    simp only [step] at hstep
    cases hi : s.objects i with
    | some c => simp [hi] at hstep
    | none =>
      cases hj : s.objects j with
      | none => simp [hi, hj] at hstep
      | some d =>
        rw [hi, hj] at hstep
        cases hstep
        exact hs.put (h.copy (hs j d hj)) i
  | move i j left =>
    simp only [step] at hstep
    cases hi : s.objects i with
    | some c => simp [hi] at hstep
    | none =>
      cases hj : s.objects j with
      | none => simp [hi, hj] at hstep
      | some d =>
        obtain ⟨hnew, hleft⟩ := h.move left (hs j d hj)
        rw [hi, hj] at hstep
        cases hstep
        exact (hs.put hleft j).put hnew i
  | assign i j =>
    simp only [step] at hstep
    cases hi : s.objects i with
    | none => simp [hi] at hstep
    | some c =>
      cases hj : s.objects j with
      | none => simp [hi, hj] at hstep
      | some d =>
        rw [hi, hj] at hstep
        cases hstep
        exact hs.put (h.assign _ (hs i c hi) (hs j d hj)) i
  | moveAssign i j left =>
    simp only [step] at hstep
    cases hi : s.objects i with
    | none => simp [hi] at hstep
    | some c =>
      cases hj : s.objects j with
      | none => simp [hi, hj] at hstep
      | some d =>
        obtain ⟨hnew, hleft⟩ := h.moveAssign left (decide (i = j)) (hs i c hi) (hs j d hj)
        rw [hi, hj] at hstep
        cases hstep
        exact (hs.put hleft j).put hnew i
  | destroy i =>
    simp only [step] at hstep
    cases hi : s.objects i with
    | none => simp [hi] at hstep
    | some c =>
      rw [hi] at hstep
      cases hstep
      exact hs.drop i
  | call i j m =>
    simp only [step] at hstep
    cases hi : s.objects i with
    | none => simp [hi] at hstep
    | some c =>
      cases hj : s.objects j with
      | none => simp [hi, hj] at hstep
      | some d =>
        rw [hi, hj] at hstep
        cases hcls : cls.call m c d <;> simp only [hcls] at hstep
        · cases hstep
        · cases hstep
          exact hs
        · cases hstep
          exact hs.put (h.call m (hs i c hi) (hs j d hj) hcls) i

/-- A checked operation goes through exactly when it is on live objects. -/
theorem step_isSome_iff_onLive (h : Sound cls inv fits checked) {s : Store C V} (hs : s.All inv) {op : Op K M J}
    (hop : op.Within fits checked) : (step cls s op).isSome ↔ OnLive s op := by
  cases op with
  | construct i args =>
    have hconstruct := h.construct args hop
    simp only [step, OnLive]
    cases hi : s.objects i with
    | some c => simp
    | none =>
      cases hcls : cls.construct args <;> rw [hcls] at hconstruct
      · exact hconstruct.elim
      · simp
      · simp
  | copy i j | move i j left =>
    simp only [step, OnLive]
    cases s.objects i <;> cases s.objects j <;> simp
  | assign i j | moveAssign i j left =>
    simp only [step, OnLive]
    cases s.objects i <;> cases s.objects j <;> simp
  | destroy i =>
    simp only [step, OnLive]
    cases s.objects i <;> simp
  | call i j m =>
    simp only [step, OnLive]
    cases hi : s.objects i with
    | none => simp
    | some c =>
      cases hj : s.objects j with
      | none => simp
      | some d =>
        have hdefined := h.checked_call m hop (hs i c hi) (hs j d hj)
        cases hcls : cls.call m c d <;> simp only [hcls]
        · exact absurd hcls hdefined
        · simp
        · simp

/-- The invariant does not need the calls to be checked ones. -/
theorem Op.Within.anyCall {op : Op K M J} (h : op.Within fits checked) : op.Within fits fun _ => True := by
  cases op with
  | construct i args => exact h
  | _ => trivial

/-- A program goes through exactly when it is on live objects. -/
theorem run_isSome_iff_onLive (h : Sound cls inv fits checked) {ops : List (Op K M J)}
    (hops : ∀ op ∈ ops, op.Within fits checked) :
    (run (step cls) .init ops).isSome ↔ Guarded (step cls) OnLive .init ops := by
  have hok : ∀ (s : Store C V) (op : Op K M J), s.All inv → op.Within fits checked →
      ((step cls s op).isSome ↔ OnLive s op) := fun _ _ hs hop => step_isSome_iff_onLive h hs hop
  have hkeeps : ∀ (s : Store C V) (op : Op K M J) (s' : Store C V), s.All inv → op.Within fits checked →
      step cls s op = some s' → s'.All inv := fun _ _ _ hs hop hs' => step_keeps h hs hop.anyCall hs'
  exact run_isSome_iff_of_forall hok hkeeps Store.All.init hops

/-- The objects of a program satisfy the invariant, whatever it calls. -/
theorem all_of_run (h : Sound cls inv fits checked) {ops : List (Op K M J)}
    (hops : ∀ op ∈ ops, op.Within fits fun _ => True) {s : Store C V}
    (hrun : run (step cls) .init ops = some s) : s.All inv :=
  run_invariant (fun _ _ _ hs hop hs' => step_keeps h hs hop hs') Store.All.init (guarded_of_forall hops _) hrun

end Soundness

end Objects
