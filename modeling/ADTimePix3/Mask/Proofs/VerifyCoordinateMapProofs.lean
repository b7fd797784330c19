import ADTimePix3.Mask.Proofs.IndexErrorProofs
import ADTimePix3.Mask.VerifyCoordinateMap

/-!
# Proofs: the port of the index maps in the test

Port and driver compute the same formulas. They differ in what they do with an orientation or a byte that they have
no formula for.

Main result: `port_agrees_iff`.
-/

namespace ADTimePix3.Mask

open Square

namespace VerifyCoordinateMap

variable {w k : ℤ}

theorem fdiv_eq_tdiv {a : ℤ} (ha : 0 ≤ a) (hw : 1 ≤ w) : a.fdiv w = a.tdiv w := by
  rw [Int.fdiv_eq_ediv_of_nonneg a (by omega), Int.tdiv_eq_ediv_of_nonneg ha]

theorem fmod_eq_tmod {a : ℤ} (ha : 0 ≤ a) (hw : 1 ≤ w) : a.fmod w = a.tmod w := by
  rw [Int.fmod_eq_emod_of_nonneg a (by omega), Int.tmod_eq_emod_of_nonneg ha]

/-! ## `bpc2img_index` -/

theorem bpcSinglePel_port {o : ℤ} (hw : 1 ≤ w) (hk : 0 ≤ k) :
    bpcSinglePel k w o = if 0 ≤ o ∧ o ≤ 7 then some (Mask.bpcSinglePel o k w) else none := by
  have hdiv := fdiv_eq_tdiv hk hw
  have hmod := fmod_eq_tmod hk hw
  by_cases ho : 0 ≤ o ∧ o ≤ 7
  · rw [if_pos ho]
    obtain ⟨ho0, ho7⟩ := ho
    interval_cases o <;> simp [bpcSinglePel, Mask.bpcSinglePel, hdiv, hmod]
  · have hne : ∀ n : ℤ, 0 ≤ n → n ≤ 7 → o ≠ n := by
      intro n h0 h7 h
      omega
    simp [bpcSinglePel, ho, hne]

theorem bpcQuadPel_port {o c : ℤ} (hw : 1 ≤ w) (ho : o = 0 ∨ o = 3) (hc : 0 ≤ c) (hk : c * (w * w) ≤ k) :
    bpcQuadPel k w c o = if c < 4 then some (Mask.bpcQuadPel o k w c) else none := by
  have hww : 0 < w * w := mul_pos (by omega) (by omega)
  by_cases hc4 : c < 4
  · have hsub : ∀ n : ℤ, n = c → (k - n * (w * w)).fdiv w = (k - n * (w * w)).tdiv w ∧
        (k - n * (w * w)).fmod w = (k - n * (w * w)).tmod w := by
      rintro n rfl
      exact ⟨fdiv_eq_tdiv (by omega) hw, fmod_eq_tmod (by omega) hw⟩
    rw [if_pos hc4]
    rcases ho with rfl | rfl <;> interval_cases c <;> have h := hsub _ rfl <;>
      simp_all [bpcQuadPel, Mask.bpcQuadPel]
  · have h0 : c ≠ 0 := by omega
    have h1 : c ≠ 1 := by omega
    have h2 : c ≠ 2 := by omega
    have h3 : c ≠ 3 := by omega
    simp [bpcQuadPel, hc4, h0, h1, h2, h3]

theorem bpc2imgIndex_single {o : ℤ} (hw : 1 ≤ w) (hk : 0 ≤ k) :
    bpc2imgIndex k w 1 1 o = bpc2ImgIndex ⟨o, 1, 1, w⟩ k w ↔ 0 ≤ o ∧ o ≤ 7 := by
  simp only [bpc2imgIndex, bpc2ImgIndex, if_true, bpcSinglePel_port hw hk]
  by_cases ho : 0 ≤ o ∧ o ≤ 7
  · simp [ho]
  · rw [if_neg ho, bpcSinglePel_unsupported ho]
    simp [ho]

theorem bpc2imgIndex_quad {o : ℤ} (hw : 1 ≤ w) (hk : 0 ≤ k) (ho : o = 0 ∨ o = 3) :
    bpc2imgIndex k w 4 2 o = bpc2ImgIndex ⟨o, 4, 2, 2 * w⟩ k w ↔ k < 4 * (w * w) := by
  have hww : 0 < w * w := mul_pos (by omega) (by omega)
  have hchip : k.fdiv (w * w) = k.tdiv (w * w) := fdiv_eq_tdiv hk (by omega)
  have hc : 0 ≤ k.tdiv (w * w) := Int.tdiv_nonneg hk hww.le
  have hck : k.tdiv (w * w) * (w * w) ≤ k := by
    rw [Int.tdiv_eq_ediv_of_nonneg hk]
    exact Int.ediv_mul_le k hww.ne'
  have hlt : k.tdiv (w * w) < 4 ↔ k < 4 * (w * w) := by
    rw [Int.tdiv_eq_ediv_of_nonneg hk, Int.ediv_lt_iff_lt_mul hww]
  rw [← hlt]
  simp only [bpc2imgIndex, bpc2ImgIndex, hww, gt_iff_lt, if_true, hchip, bpcQuadPel_port hw ho hc hck]
  by_cases hc4 : k.tdiv (w * w) < 4
  · simp [hc4]
  · rw [if_neg hc4, bpcQuadPel_outside (Or.inr (not_lt.mp hc4))]
    simp [hc4]

theorem bpc2imgIndex_mosaic {o x y : ℤ} (hw : 1 ≤ w) (hk : 0 ≤ k) (hx : 0 < x) (h8 : x * y = 8) :
    bpc2imgIndex k w 8 x o = bpc2ImgIndex ⟨o, 8, x, x * w⟩ k w ↔ (o = 0 → k < 8 * (w * w)) := by
  have hww : 0 < w * w := mul_pos (by omega) (by omega)
  have hchip : k.fdiv (w * w) = k.tdiv (w * w) := fdiv_eq_tdiv hk (by omega)
  have hc : 0 ≤ k.tdiv (w * w) := Int.tdiv_nonneg hk hww.le
  have hck : k.tdiv (w * w) * (w * w) ≤ k := by
    rw [Int.tdiv_eq_ediv_of_nonneg hk]
    exact Int.ediv_mul_le k hww.ne'
  have hlt : k.tdiv (w * w) < 8 ↔ k < 8 * (w * w) := by
    rw [Int.tdiv_eq_ediv_of_nonneg hk, Int.ediv_lt_iff_lt_mul hww]
  have hy : (8 : ℤ).fdiv x = y := by
    rw [fdiv_eq_tdiv (by decide) (by omega), ← h8]
    exact Int.mul_tdiv_cancel_left y hx.ne'
  rw [← hlt]
  by_cases ho : o = 0
  swap
  · simp [bpc2imgIndex, bpc2ImgIndex, ho]
  subst ho
  have hloc : 0 ≤ k - k.tdiv (w * w) * (w * w) := by omega
  by_cases hc8 : k.tdiv (w * w) < 8
  · have hc7 : ¬ k.tdiv (w * w) > 7 := by omega
    simp [bpc2imgIndex, bpc2ImgIndex, rowsCols_grid hx h8, hww, hchip, hy, h8, not_le.mpr hww, not_lt.mpr hc, hc7, hc8,
      fdiv_eq_tdiv hloc hw, fmod_eq_tmod hloc hw, fdiv_eq_tdiv hc hx, fmod_eq_tmod hc hx]
  · -- the driver refuses the chip, the port gives it a place below the image
    have hc7 : k.tdiv (w * w) > 7 := by omega
    have hdriver : bpc2ImgIndex ⟨0, 8, x, x * w⟩ k w = -1 := by simp [bpc2ImgIndex, hww, hc7]
    have hport : bpc2imgIndex k w 8 x 0 =
        ((k.tdiv (w * w)).tmod x * w + (k - k.tdiv (w * w) * (w * w)).tmod w) +
          x * w * ((k.tdiv (w * w)).tdiv x * w + (w - 1 - (k - k.tdiv (w * w) * (w * w)).tdiv w)) := by
      simp [bpc2imgIndex, hww, hchip, hy, h8, fdiv_eq_tdiv hloc hw, fmod_eq_tmod hloc hw, fdiv_eq_tdiv hc hx,
        fmod_eq_tmod hc hx]
    have hloc' : k - k.tdiv (w * w) * (w * w) < w * w := by
      have hdiv := Int.emod_lt_of_pos k hww
      rw [← Int.tmod_eq_emod_of_nonneg hk] at hdiv
      have hsplit := Int.tdiv_mul_add_tmod k (w * w)
      omega
    have hrow : (k - k.tdiv (w * w) * (w * w)).tdiv w < w := by
      rw [Int.tdiv_eq_ediv_of_nonneg hloc, Int.ediv_lt_iff_lt_mul (by omega)]
      exact hloc'
    have hi : 0 ≤ (k.tdiv (w * w)).tmod x * w + (k - k.tdiv (w * w) * (w * w)).tmod w :=
      add_nonneg (mul_nonneg (Int.tmod_nonneg x hc) (by omega)) (Int.tmod_nonneg w hloc)
    have hj : 0 ≤ x * w * ((k.tdiv (w * w)).tdiv x * w + (w - 1 - (k - k.tdiv (w * w) * (w * w)).tdiv w)) :=
      mul_nonneg (mul_nonneg hx.le (by omega))
        (add_nonneg (mul_nonneg (Int.tdiv_nonneg hc hx.le) (by omega)) (by omega))
    rw [hdriver, hport]
    refine iff_of_false (by omega) fun h => hc8 (h rfl)

/-! ## `pel_index` -/

theorem pelIndex_single {o i j : ℤ} :
    pelIndex i j w 1 1 o = Mask.pelIndex ⟨o, 1, 1, w⟩ i j ↔ 0 ≤ o ∧ o ≤ 7 := by
  simp only [pelIndex, Mask.pelIndex, findChip, rowsCols_single, if_true]
  by_cases ho : 0 ≤ o ∧ o ≤ 7
  · refine iff_of_true ?_ ho
    obtain ⟨ho0, ho7⟩ := ho
    interval_cases o <;> simp [pelSingleIndex]
  · rw [pelSingleIndex_unsupported ho]
    have hne : ∀ n : ℤ, 0 ≤ n → n ≤ 7 → o ≠ n := by
      intro n h0 h7 h
      omega
    simp [hne, ho]

theorem pelIndex_quad {o i j : ℤ} (hw : 1 ≤ w) (ho : o = 0 ∨ o = 3) (hi : 0 ≤ i) (hj : 0 ≤ j) :
    pelIndex i j w 4 2 o = Mask.pelIndex ⟨o, 4, 2, 2 * w⟩ i j := by
  have hX : 0 ≤ i.tdiv w := Int.tdiv_nonneg hi (by omega)
  have hY : 0 ≤ j.tdiv w := Int.tdiv_nonneg hj (by omega)
  simp only [pelIndex, Mask.pelIndex, findChip, rowsCols_quad, fdiv_eq_tdiv hi hw, fdiv_eq_tdiv hj hw]
  generalize i.tdiv w = X at *
  generalize j.tdiv w = Y at *
  by_cases ht : InRect 2 2 (X, Y)
  · obtain ⟨⟨-, hX'⟩, -, hY'⟩ := ht
    simp only at hX' hY'
    rcases ho with rfl | rfl <;> interval_cases X <;> interval_cases Y <;> simp [pelQuadIndex]
  · have hbeyond : X > 1 ∨ Y > 1 := by
      simp only [InRect] at ht
      omega
    have h11 : ¬ (X = 1 ∧ Y = 1) := by omega
    have h10 : ¬ (X = 1 ∧ Y = 0) := by omega
    have h00 : ¬ (X = 0 ∧ Y = 0) := by omega
    have h01 : ¬ (X = 0 ∧ Y = 1) := by omega
    rcases ho with rfl | rfl <;> simp [pelQuadIndex, h11, h10, h00, h01, hbeyond]

theorem pelIndex_mosaic {o x y i j : ℤ} (hw : 1 ≤ w) (hx : 0 < x) (h8 : x * y = 8) (hi : 0 ≤ i) (hj : 0 ≤ j) :
    pelIndex i j w 8 x o = Mask.pelIndex ⟨o, 8, x, x * w⟩ i j := by
  have hy : (8 : ℤ).fdiv x = y := by
    rw [fdiv_eq_tdiv (by decide) (by omega), ← h8]
    exact Int.mul_tdiv_cancel_left y hx.ne'
  have hw0 : ¬ w ≤ 0 := by omega
  simp [pelIndex, Mask.pelIndex, findChip, rowsCols_grid hx h8, fdiv_eq_tdiv hi hw, fdiv_eq_tdiv hj hw, hy, h8, hw0]

/-! ## The result -/

/-- Port and driver agree on a byte, and on a pixel, exactly when both have a formula for it or both have none. -/
theorem port_agrees_iff (g : Geometry) (w : ℤ) (hw : 1 ≤ w) (hg : Ported w g) (k i j : ℤ) (hk : 0 ≤ k) (hi : 0 ≤ i)
    (hj : 0 ≤ j) :
    (bpc2imgIndex k w g.numChips g.rowLen g.detOrientation = bpc2ImgIndex g k w ↔ BpcPorted g w k) ∧
      (pelIndex i j w g.numChips g.rowLen g.detOrientation = Mask.pelIndex g i j ↔ PelPorted g) := by
  unfold BpcPorted PelPorted
  cases hg with
  | single o =>
    rw [bpc2imgIndex_single hw hk, pelIndex_single]
    simp
  | quadUp =>
    rw [bpc2imgIndex_quad hw hk (Or.inl rfl), pelIndex_quad hw (Or.inl rfl) hi hj]
    simp [fileSize, mul_assoc]
  | quadLeft =>
    rw [bpc2imgIndex_quad hw hk (Or.inr rfl), pelIndex_quad hw (Or.inr rfl) hi hj]
    simp [fileSize, mul_assoc]
  | mosaic8 o x y hx h8 =>
    rw [bpc2imgIndex_mosaic hw hk hx h8, pelIndex_mosaic hw hx h8 hi hj]
    simp [fileSize, mul_assoc]

theorem port_agrees_iff_left :
    (bpc2imgIndex 70000 256 4 2 3 = bpc2ImgIndex ⟨3, 4, 2, 2 * 256⟩ 70000 256 ↔
        BpcPorted ⟨3, 4, 2, 2 * 256⟩ 256 70000) ∧
      (pelIndex 300 10 256 4 2 3 = Mask.pelIndex ⟨3, 4, 2, 2 * 256⟩ 300 10 ↔ PelPorted ⟨3, 4, 2, 2 * 256⟩) :=
  port_agrees_iff ⟨3, 4, 2, 2 * 256⟩ 256 (by decide) .quadLeft 70000 300 10 (by decide) (by decide) (by decide)

/-- The first byte behind the file of a quad: the port returns `-1`, the driver `0`. -/
theorem port_differs_beyond_quad :
    bpc2imgIndex 262144 256 4 2 0 = -1 ∧ bpc2ImgIndex ⟨0, 4, 2, 2 * 256⟩ 262144 256 = 0 := by decide

end VerifyCoordinateMap

end ADTimePix3.Mask
