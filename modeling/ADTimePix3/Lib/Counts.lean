import Mathlib.Algebra.GroupWithZero.Nat
import Mathlib.Algebra.BigOperators.Group.List.Basic
import Mathlib.Algebra.Order.Group.Nat

/-!
# Counters of a fixed width

Unsigned addition modulo `M`, and the saturating addition that detects the wrap by comparing the new value
with the old one. A sum of saturating additions is the saturated sum, in whatever order they are made.
-/

namespace Counts

/-- Unsigned addition of words below `M`. -/
def wrapAdd (M a b : ℕ) : ℕ := (a + b) % M

/-- `new = a + b; new < a ? max : new`. -/
def satAdd (M a b : ℕ) : ℕ := if wrapAdd M a b < a then M - 1 else wrapAdd M a b

variable {M a b : ℕ}

/-- The wrap test finds exactly the additions that do not fit. -/
theorem satAdd_eq_min (ha : a < M) (hb : b < M) : satAdd M a b = min (M - 1) (a + b) := by
  unfold satAdd wrapAdd
  by_cases hfit : a + b < M
  · rw [Nat.mod_eq_of_lt hfit, if_neg (by omega), Nat.min_eq_right (by omega)]
  · have hmod : (a + b) % M = a + b - M := by
      rw [Nat.mod_eq_sub_mod (by omega), Nat.mod_eq_of_lt (by omega)]
    rw [hmod, if_pos (by omega), Nat.min_eq_left (by omega)]

/-- Adding to a saturated sum saturates the sum. -/
theorem satAdd_min (hM : 0 < M) (hb : b < M) :
    satAdd M (min (M - 1) a) b = min (M - 1) (a + b) := by
  have hlt : min (M - 1) a < M := by omega
  rw [satAdd_eq_min hlt hb]
  omega

/-- A chain of wrapping additions is the sum modulo `M`. -/
theorem foldl_wrapAdd (l : List ℕ) (ha : a < M) : l.foldl (wrapAdd M) a = (a + l.sum) % M := by
  induction l generalizing a with
  | nil => rw [List.foldl_nil, List.sum_nil, Nat.add_zero, Nat.mod_eq_of_lt ha]
  | cons x l ih =>
    have hlt : wrapAdd M a x < M := Nat.mod_lt _ (by omega)
    rw [List.foldl_cons, ih hlt, wrapAdd, Nat.mod_add_mod, List.sum_cons, Nat.add_assoc]

end Counts
