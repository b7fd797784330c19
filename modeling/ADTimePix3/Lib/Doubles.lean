import Mathlib.Algebra.Group.Nat.Defs
import Mathlib.Tactic.Common
import Mathlib.Algebra.Order.Group.Unbundled.Int

/-!
# Integers as doubles

The conversion of an integer to a binary floating point number with a significand of 53 bits: the nearest one, and
of two that are equally near the one with an even significand.
-/

namespace Doubles

/-- The multiple of `2 ^ k` that is nearest to `n`. -/
def nearest (k n : ℕ) : ℕ :=
  if 2 * (n % 2 ^ k) < 2 ^ k ∨ (2 * (n % 2 ^ k) = 2 ^ k ∧ n / 2 ^ k % 2 = 0) then n / 2 ^ k * 2 ^ k
  else (n / 2 ^ k + 1) * 2 ^ k

/-- By how many bits `n` is longer than a significand. -/
def excess (n : ℕ) : ℕ := n.log2 - 52

def ofInt (z : ℤ) : ℤ := z.sign * nearest (excess z.natAbs) z.natAbs

/-- The integer has a significand of 53 bits. -/
def Exact (z : ℤ) : Prop := 2 ^ excess z.natAbs ∣ z.natAbs

instance (z : ℤ) : Decidable (Exact z) := inferInstanceAs (Decidable (_ ∣ _))

theorem nearest_eq_self_iff {k n : ℕ} : nearest k n = n ↔ 2 ^ k ∣ n := by
  have hn : n / 2 ^ k * 2 ^ k + n % 2 ^ k = n := Nat.div_add_mod' n (2 ^ k)
  have hlt : n % 2 ^ k < 2 ^ k := Nat.mod_lt n (Nat.two_pow_pos k)
  unfold nearest
  split
  · rw [Nat.dvd_iff_mod_eq_zero]
    omega
  · rename_i hfar
    have hpos : n % 2 ^ k ≠ 0 := fun h0 => hfar (.inl (by rw [h0]; exact Nat.two_pow_pos k))
    rw [Nat.add_mul, Nat.dvd_iff_mod_eq_zero]
    omega

theorem ofInt_eq_self_iff {z : ℤ} : ofInt z = z ↔ Exact z := by
  unfold ofInt Exact
  rw [← nearest_eq_self_iff]
  constructor
  · intro h
    rcases eq_or_ne z 0 with rfl | hz
    · decide
    · have habs := congrArg Int.natAbs h
      rwa [Int.natAbs_mul, Int.natAbs_sign_of_ne_zero hz, Nat.one_mul, Int.natAbs_natCast] at habs
  · intro h
    rw [h]
    exact Int.sign_mul_natAbs z

end Doubles
