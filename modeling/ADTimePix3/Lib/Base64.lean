import Mathlib.Algebra.Group.Nat.Defs
import Mathlib.Data.List.Basic

/-!
# Base64

The encoding cuts a byte string into groups of three bytes and each group into four values of six bits; a last
group of one or two bytes is filled up with zero bits and gives two or three values. A value is written as a
character of the standard alphabet, and `=` may complete the last group of characters.

`regroup` is the way back, one value at a time: an accumulator of `k` bits gets six more and gives a byte as soon
as it has eight.
-/

namespace Base64

/-- The six-bit values of a byte string. -/
def sextets : List (BitVec 8) → List ℕ
  | [] => []
  | [a] => [a.toNat / 4, a.toNat % 4 * 16]
  | [a, b] => [a.toNat / 4, a.toNat % 4 * 16 + b.toNat / 16, b.toNat % 16 * 4]
  | a :: b :: c :: bs =>
    a.toNat / 4 :: (a.toNat % 4 * 16 + b.toNat / 16) :: (b.toNat % 16 * 4 + c.toNat / 64) ::
      c.toNat % 64 :: sextets bs

/-- The standard alphabet: `A` to `Z`, `a` to `z`, `0` to `9`, `+` and `/`. -/
def digit (v : ℕ) : BitVec 8 :=
  if v < 26 then BitVec.ofNat 8 (65 + v)
  else if v < 52 then BitVec.ofNat 8 (97 + (v - 26))
  else if v < 62 then BitVec.ofNat 8 (48 + (v - 52))
  else if v = 62 then 43 else 47

def alphabet : List (BitVec 8) := (List.range 64).map digit

/-- The encoding without padding. -/
def encode (bs : List (BitVec 8)) : List (BitVec 8) := (sextets bs).map digit

/-- The `=` characters that complete the last group. -/
def padding (bs : List (BitVec 8)) : List (BitVec 8) := List.replicate ((3 - bs.length % 3) % 3) 61

/-- The bytes that values of six bits give, from an accumulator `acc` of `k` bits. -/
def regroup : List ℕ → ℕ → ℕ → List (BitVec 8)
  | [], _, _ => []
  | v :: vs, acc, k =>
    if 8 ≤ k + 6 then
      BitVec.ofNat 8 ((acc * 64 + v) / 2 ^ (k - 2)) :: regroup vs ((acc * 64 + v) % 2 ^ (k - 2)) (k - 2)
    else regroup vs (acc * 64 + v) (k + 6)

variable {bs : List (BitVec 8)} {vs : List ℕ} {v acc k : ℕ}

/-- Every encoded value has six bits. -/
theorem sextets_lt : ∀ (bs : List (BitVec 8)), ∀ v ∈ sextets bs, v < 64
  | [], v, hv => by simp [sextets] at hv
  | [a], v, hv => by
    have ha := a.isLt
    simp only [sextets, List.mem_cons, List.not_mem_nil, or_false] at hv
    omega
  | [a, b], v, hv => by
    have ha := a.isLt
    have hb := b.isLt
    simp only [sextets, List.mem_cons, List.not_mem_nil, or_false] at hv
    omega
  | a :: b :: c :: bs, v, hv => by
    have ha := a.isLt
    have hb := b.isLt
    have hc := c.isLt
    simp only [sextets, List.mem_cons] at hv
    rcases hv with hv | hv | hv | hv | hv
    · omega
    · omega
    · omega
    · omega
    · exact sextets_lt bs v hv

/-- Whoever has fewer than two bits gives no byte for the next six. -/
theorem regroup_cons_of_lt (hk : k < 2) : regroup (v :: vs) acc k = regroup vs (acc * 64 + v) (k + 6) := by
  rw [regroup, if_neg (by omega)]

theorem regroup_cons_of_le (hk : 2 ≤ k) :
    regroup (v :: vs) acc k =
      BitVec.ofNat 8 ((acc * 64 + v) / 2 ^ (k - 2)) ::
        regroup vs ((acc * 64 + v) % 2 ^ (k - 2)) (k - 2) := by
  rw [regroup, if_pos (by omega)]

theorem ofNat_eq {a : BitVec 8} {n : ℕ} (h : n = a.toNat) : BitVec.ofNat 8 n = a := by
  rw [h, BitVec.ofNat_toNat, BitVec.setWidth_eq]

/-- Regrouping the values of a byte string gives the byte string; the fill bits of a last group give no byte. -/
theorem regroup_sextets : ∀ bs : List (BitVec 8), regroup (sextets bs) 0 0 = bs
  | [] => rfl
  | [a] => by
    have ha := a.isLt
    rw [sextets, regroup_cons_of_lt (by omega), regroup_cons_of_le (by omega), regroup]
    simp only [List.cons.injEq, and_true]
    exact ofNat_eq (by omega)
  | [a, b] => by
    have ha := a.isLt
    have hb := b.isLt
    rw [sextets, regroup_cons_of_lt (by omega), regroup_cons_of_le (by omega), regroup_cons_of_le (by omega),
      regroup]
    simp only [List.cons.injEq, and_true]
    exact ⟨ofNat_eq (by omega), ofNat_eq (by omega)⟩
  | a :: b :: c :: bs => by
    have ha := a.isLt
    have hb := b.isLt
    have hc := c.isLt
    rw [sextets, regroup_cons_of_lt (by omega), regroup_cons_of_le (by omega), regroup_cons_of_le (by omega),
      regroup_cons_of_le (by omega)]
    simp only [List.cons.injEq]
    refine ⟨ofNat_eq (by omega), ofNat_eq (by omega), ofNat_eq (by omega), ?_⟩
    have hacc : ((((0 * 64 + a.toNat / 4) * 64 + (a.toNat % 4 * 16 + b.toNat / 16)) % 2 ^ (0 + 6 - 2) * 64 +
        (b.toNat % 16 * 4 + c.toNat / 64)) % 2 ^ (0 + 6 - 2 - 2) * 64 + c.toNat % 64) %
          2 ^ (0 + 6 - 2 - 2 - 2) = 0 := by
      rw [show 0 + 6 - 2 - 2 - 2 = 0 from rfl, Nat.pow_zero, Nat.mod_one]
    rw [hacc]
    exact regroup_sextets bs

/-- `n` values and the `k` bits there are give a byte for every eight bits. -/
theorem length_regroup (hk : k < 8) : (regroup vs acc k).length = (6 * vs.length + k) / 8 := by
  induction vs generalizing acc k with
  | nil =>
    rw [regroup, List.length_nil, List.length_nil]
    omega
  | cons v vs ih =>
    by_cases hk2 : k < 2
    · rw [regroup_cons_of_lt hk2, ih (by omega), List.length_cons]
      omega
    · rw [regroup_cons_of_le (by omega), List.length_cons, ih (by omega), List.length_cons]
      omega

end Base64
