import Mathlib.Algebra.GroupWithZero.Nat
import Mathlib.Data.Nat.Count
import Mathlib.Algebra.BigOperators.Group.List.Basic
import Mathlib.Data.Finset.Card

/-!
# Counting indices

How many indices below `n` have a property (`Nat.count`): over blocks of indices, up to where the property stops, and
along a map of the indices.
-/

namespace IndexCounts

theorem countP_range (p : ℕ → Bool) (n : ℕ) :
    (List.range n).countP p = Nat.count (fun i => p i = true) n := by
  induction n with
  | zero => rfl
  | succ n ih =>
    rw [List.range_succ, List.countP_append, ih, Nat.count_succ]
    simp [List.countP_cons]

/-- A count over `n` blocks of length `w` is the sum of the counts over the blocks. -/
theorem count_mul (p : ℕ → Prop) [DecidablePred p] (n w : ℕ) :
    Nat.count p (n * w) = ((List.range n).map fun c => Nat.count (fun i => p (c * w + i)) w).sum := by
  induction n with
  | zero => simp
  | succ n ih =>
    rw [Nat.succ_mul, Nat.count_add, ih, List.range_succ, List.map_append, List.sum_append]
    simp

theorem count_congr {p q : ℕ → Prop} [DecidablePred p] [DecidablePred q] {n : ℕ}
    (h : ∀ i < n, (p i ↔ q i)) : Nat.count p n = Nat.count q n := by
  rw [Nat.count_eq_card_filter_range, Nat.count_eq_card_filter_range]
  congr 1
  exact Finset.filter_congr fun i hi => h i (Finset.mem_range.mp hi)

/-- A count stops where the property does. -/
theorem count_eq_of_le {p : ℕ → Prop} [DecidablePred p] {m n : ℕ} (hmn : m ≤ n)
    (h : ∀ i, m ≤ i → i < n → ¬ p i) : Nat.count p n = Nat.count p m := by
  obtain ⟨d, rfl⟩ := Nat.exists_eq_add_of_le hmn
  have hnone : Nat.count (fun k => p (m + k)) d = Nat.count (fun _ => False) d :=
    count_congr fun i hi => by simpa using h (m + i) (by omega) (by omega)
  rw [Nat.count_add, hnone]
  simp

theorem not_of_count_eq {p : ℕ → Prop} [DecidablePred p] {m n : ℕ}
    (h : Nat.count p n = Nat.count p m) {i : ℕ} (hi : m ≤ i) (hin : i < n) : ¬ p i := by
  intro hp
  have h1 : Nat.count p m ≤ Nat.count p i := Nat.count_monotone p hi
  have h2 : Nat.count p (i + 1) ≤ Nat.count p n := Nat.count_monotone p hin
  rw [Nat.count_succ, if_pos hp] at h2
  omega

/-- An injective map of the numbers below `n` into themselves carries counts. -/
theorem count_comp {p : ℕ → Prop} [DecidablePred p] {n : ℕ} {f : ℕ → ℕ} (hmem : ∀ i < n, f i < n)
    (hinj : ∀ i < n, ∀ j < n, f i = f j → i = j) :
    Nat.count (fun i => p (f i)) n = Nat.count p n := by
  have himage : (Finset.range n).image f = Finset.range n := by
    refine Finset.eq_of_subset_of_card_le (fun k hk => ?_) ?_
    · obtain ⟨i, hi, rfl⟩ := Finset.mem_image.mp hk
      exact Finset.mem_range.mpr (hmem i (Finset.mem_range.mp hi))
    · rw [Finset.card_image_of_injOn fun i hi j hj =>
        hinj i (Finset.mem_range.mp hi) j (Finset.mem_range.mp hj)]
  rw [Nat.count_eq_card_filter_range, Nat.count_eq_card_filter_range]
  nth_rewrite 2 [← himage]
  rw [Finset.filter_image, Finset.card_image_of_injOn]
  intro i hi j hj
  exact hinj i (by simp at hi; exact hi.1) j (by simp at hj; exact hj.1)

end IndexCounts
