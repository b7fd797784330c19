import Mathlib.Data.List.GetD

/-!
# A buffer, and the cells a computation reads from it

A buffer is a function from indices to cells: a read beyond the cells that were written is not an error of
the model but gives whatever lies there. `Traced` computations therefore keep the list of the indices they
have read, and a read is in bounds when all of these are below a bound (`Within`).

`Holds mem p xs` says that the list `xs` lies in the buffer at index `p`. The lemmas say how it follows from
a store, and how it survives the move that discards a prefix.
-/

namespace Memory

variable {α : Type}

def store (mem : ℕ → α) (p : ℕ) (xs : List α) : ℕ → α :=
  fun i => if p ≤ i then xs.getD (i - p) (mem i) else mem i

def set (mem : ℕ → α) (p : ℕ) (x : α) : ℕ → α := fun i => if i = p then x else mem i

/-- Move `n` cells from index `p` to the start of the buffer. -/
def moveDown (mem : ℕ → α) (p n : ℕ) : ℕ → α := fun i => if i < n then mem (p + i) else mem i

def slice (mem : ℕ → α) (p n : ℕ) : List α := (List.range n).map fun i => mem (p + i)

/-- The list lies at index `p`. -/
def Holds (mem : ℕ → α) (p : ℕ) (xs : List α) : Prop := ∀ i (h : i < xs.length), mem (p + i) = xs[i]

variable {mem : ℕ → α} {p n : ℕ} {xs ys : List α}

@[simp] theorem length_slice : (slice mem p n).length = n := by
  rw [slice, List.length_map, List.length_range]

theorem slice_succ (mem : ℕ → α) (p n : ℕ) : slice mem p (n + 1) = mem p :: slice mem (p + 1) n := by
  unfold slice
  rw [List.range_succ_eq_map, List.map_cons, List.map_map, Nat.add_zero]
  refine congrArg (mem p :: ·) (List.map_congr_left fun i _ => ?_)
  rw [Function.comp_apply, Nat.succ_eq_add_one, Nat.add_assoc, Nat.add_comm 1 i]

theorem slice_add (mem : ℕ → α) (p m n : ℕ) : slice mem p (m + n) = slice mem p m ++ slice mem (p + m) n := by
  induction m generalizing p with
  | zero => rw [Nat.zero_add, Nat.add_zero]; rfl
  | succ m ih =>
    have hsum : m + 1 + n = m + n + 1 := by omega
    rw [hsum, slice_succ, slice_succ, ih, List.cons_append, Nat.add_assoc, Nat.add_comm 1 m]

/-- A write outside a block does not change it. -/
theorem slice_set_of_outside {q : ℕ} (x : α) (hq : q < p ∨ p + n ≤ q) :
    slice (set mem q x) p n = slice mem p n := by
  refine List.map_congr_left fun i hi => ?_
  have hlt := List.mem_range.mp hi
  unfold Memory.set
  rw [if_neg (by omega)]

@[simp] theorem holds_nil : Holds mem p [] := fun _ h => absurd h (Nat.not_lt_zero _)

theorem Holds.at (h : Holds mem 0 xs) {i : ℕ} (hi : i < xs.length) : mem i = xs[i] := by
  have hat := h i hi
  rwa [Nat.zero_add] at hat

/-- What lies at `p` is what a read from there gives. -/
theorem Holds.slice_eq (h : Holds mem p xs) : slice mem p xs.length = xs := by
  apply List.ext_getElem length_slice
  intro i _ hi
  rw [← h i hi]
  simp only [slice, List.getElem_map, List.getElem_range]

theorem Holds.append_left (h : Holds mem p (xs ++ ys)) : Holds mem p xs := by
  intro i hi
  have hlt : i < (xs ++ ys).length := by rw [List.length_append]; omega
  rw [h i hlt, List.getElem_append_left hi]

theorem Holds.append_right (h : Holds mem p (xs ++ ys)) : Holds mem (p + xs.length) ys := by
  intro i hi
  have hlt : xs.length + i < (xs ++ ys).length := by rw [List.length_append]; omega
  rw [Nat.add_assoc, h (xs.length + i) hlt, List.getElem_append_right (by omega)]
  simp only [Nat.add_sub_cancel_left]

/-- Storing a list behind what lies at the start of the buffer appends it. -/
theorem Holds.store (h : Holds mem 0 xs) (ys : List α) :
    Holds (store mem xs.length ys) 0 (xs ++ ys) := by
  intro i hi
  rw [Nat.zero_add]
  unfold Memory.store
  by_cases hlt : i < xs.length
  · rw [if_neg (by omega), h.at hlt, List.getElem_append_left hlt]
  · rw [List.length_append] at hi
    rw [if_pos (by omega), List.getElem_append_right (by omega), List.getD_eq_getElem _ _ (by omega)]

/-- A write outside the list does not disturb it. -/
theorem Holds.set_of_outside (h : Holds mem p xs) {q : ℕ} {x : α} (hq : q < p ∨ p + xs.length ≤ q) :
    Holds (set mem q x) p xs := by
  intro i hi
  unfold Memory.set
  rw [if_neg (by omega), h i hi]

/-- Moving down what lies behind a prefix discards the prefix. -/
theorem Holds.moveDown (h : Holds mem p xs) : Holds (moveDown mem p xs.length) 0 xs := by
  intro i hi
  rw [Nat.zero_add]
  unfold Memory.moveDown
  rw [if_pos hi, h i hi]

/-! ## Traced reads -/

/-- A value with the indices that were read to find it. -/
structure Traced (β : Type) where
  val : β
  reads : List ℕ

namespace Traced

variable {β γ : Type}

instance : Monad Traced where
  pure x := ⟨x, []⟩
  bind t f := ⟨(f t.val).val, t.reads ++ (f t.val).reads⟩

@[simp] theorem val_pure (x : β) : (pure x : Traced β).val = x := rfl

@[simp] theorem val_bind (t : Traced β) (f : β → Traced γ) : (t >>= f).val = (f t.val).val := rfl

@[simp] theorem val_map (f : β → γ) (t : Traced β) : (f <$> t).val = f t.val := rfl

def Within (n : ℕ) (t : Traced β) : Prop := ∀ i ∈ t.reads, i < n

@[simp] theorem within_pure (x : β) : Within n (pure x : Traced β) := fun _ h => absurd h List.not_mem_nil

theorem within_bind {t : Traced β} {f : β → Traced γ} :
    Within n (t >>= f) ↔ Within n t ∧ Within n (f t.val) := by
  unfold Within
  show (∀ i ∈ t.reads ++ (f t.val).reads, i < n) ↔ _
  constructor
  · intro h
    exact ⟨fun i hi => h i (List.mem_append_left _ hi), fun i hi => h i (List.mem_append_right _ hi)⟩
  · rintro ⟨ht, hf⟩ i hi
    rcases List.mem_append.mp hi with hi | hi
    · exact ht i hi
    · exact hf i hi

theorem within_map {f : β → γ} {t : Traced β} : Within n (f <$> t) ↔ Within n t := by
  show Within n (t >>= fun x => pure (f x)) ↔ _
  rw [within_bind]
  exact and_iff_left (within_pure _)

theorem Within.mono {m : ℕ} {t : Traced β} (h : Within n t) (hnm : n ≤ m) : Within m t :=
  fun i hi => Nat.lt_of_lt_of_le (h i hi) hnm

end Traced

open Traced

def read (mem : ℕ → α) (p : ℕ) : Traced α := ⟨mem p, [p]⟩

def readRange (mem : ℕ → α) (p n : ℕ) : Traced (List α) := ⟨slice mem p n, List.range' p n⟩

/-- The first of the `n` positions from `p` on that passes a test which itself reads. -/
def find (test : ℕ → Traced Bool) : (p n : ℕ) → Traced (Option ℕ)
  | _, 0 => pure none
  | p, n + 1 => do
    if ← test p then return some p
    find test (p + 1) n

@[simp] theorem val_read : (read mem p).val = mem p := rfl

@[simp] theorem val_readRange : (readRange mem p n).val = slice mem p n := rfl

theorem within_read {m : ℕ} : Within m (read mem p) ↔ p < m := by
  unfold Within read
  simp only [List.mem_singleton, forall_eq]

/-- A block is read in bounds when it is empty or ends in bounds. -/
theorem within_readRange {m : ℕ} : Within m (readRange mem p n) ↔ n = 0 ∨ p + n ≤ m := by
  unfold Within readRange
  simp only [List.mem_range'_1]
  constructor
  · intro h
    by_cases hn : n = 0
    · exact Or.inl hn
    · have hlast := h (p + n - 1) (by omega)
      exact Or.inr (by omega)
  · rintro (h | h) i hi <;> omega

variable {test : ℕ → Traced Bool}

theorem val_find_succ (test : ℕ → Traced Bool) (p n : ℕ) :
    (find test p (n + 1)).val = if (test p).val then some p else (find test (p + 1) n).val := by
  rw [find, val_bind]
  cases (test p).val <;> rfl

theorem val_find_eq_none (h : ∀ q, p ≤ q → q < p + n → (test q).val = false) :
    (find test p n).val = none := by
  induction n generalizing p with
  | zero => rfl
  | succ n ih =>
    rw [val_find_succ, h p (by omega) (by omega), if_neg Bool.false_ne_true]
    exact ih fun q hq hlt => h q (by omega) (by omega)

theorem val_find_eq_some {q : ℕ} :
    (find test p n).val = some q ↔
      p ≤ q ∧ q < p + n ∧ (test q).val = true ∧ ∀ r, p ≤ r → r < q → (test r).val = false := by
  induction n generalizing p with
  | zero =>
    constructor
    · intro h
      cases h
    · rintro ⟨hp, hq, -⟩
      omega
  | succ n ih =>
    rw [val_find_succ]
    by_cases ht : (test p).val = true
    · rw [if_pos ht]
      constructor
      · intro h
        cases h
        exact ⟨Nat.le_refl _, by omega, ht, fun r hp hr => by omega⟩
      · rintro ⟨hp, -, -, hfirst⟩
        by_cases hpq : p = q
        · rw [hpq]
        · rw [hfirst p (Nat.le_refl _) (by omega)] at ht
          cases ht
    · rw [if_neg ht, ih]
      constructor
      · rintro ⟨hp, hq, htq, hfirst⟩
        refine ⟨by omega, by omega, htq, fun r hpr hr => ?_⟩
        by_cases hrp : r = p
        · rw [hrp, Bool.eq_false_iff.mpr ht]
        · exact hfirst r (by omega) hr
      · rintro ⟨hp, hq, htq, hfirst⟩
        have hne : q ≠ p := fun h => ht (h ▸ htq)
        exact ⟨by omega, by omega, htq, fun r hpr hr => hfirst r (by omega) hr⟩

/-- A search finds something at the latest where the test passes. -/
theorem exists_val_find {q : ℕ} (hp : p ≤ q) (hq : q < p + n) (h : (test q).val = true) :
    ∃ r, p ≤ r ∧ r ≤ q ∧ (find test p n).val = some r := by
  induction n generalizing p with
  | zero => omega
  | succ n ih =>
    rw [val_find_succ]
    by_cases ht : (test p).val = true
    · exact ⟨p, Nat.le_refl p, hp, if_pos ht⟩
    · have hne : p ≠ q := fun heq => ht (heq ▸ h)
      obtain ⟨r, hr, hrq, hfind⟩ := ih (p := p + 1) (by omega) (by omega)
      exact ⟨r, by omega, hrq, by rw [if_neg ht, hfind]⟩

/-- A search reads nothing behind what it finds. -/
theorem within_find_of_some {m r : ℕ} (hfind : (find test p n).val = some r)
    (h : ∀ q, p ≤ q → q ≤ r → Within m (test q)) : Within m (find test p n) := by
  induction n generalizing p with
  | zero => exact within_pure _
  | succ n ih =>
    have hle : p ≤ r := (val_find_eq_some.mp hfind).1
    rw [val_find_succ] at hfind
    rw [find, within_bind]
    refine ⟨h p (Nat.le_refl p) hle, ?_⟩
    cases ht : (test p).val with
    | true => exact within_pure _
    | false =>
      rw [ht, if_neg Bool.false_ne_true] at hfind
      exact ih hfind fun q hq hqr => h q (by omega) hqr

/-- A search is in bounds when the test is, at every position searched. -/
theorem within_find {m : ℕ} (h : ∀ q, p ≤ q → q < p + n → Within m (test q)) :
    Within m (find test p n) := by
  induction n generalizing p with
  | zero => exact within_pure _
  | succ n ih =>
    rw [find, within_bind]
    refine ⟨h p (Nat.le_refl _) (by omega), ?_⟩
    cases (test p).val
    · exact ih fun q hq hlt => h q (by omega) (by omega)
    · exact within_pure _

end Memory
