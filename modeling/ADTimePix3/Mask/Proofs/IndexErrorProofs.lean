import ADTimePix3.Mask.IndexErrors
import ADTimePix3.Mask.Proofs.CoordinateProofs
import ADTimePix3.Mask.Proofs.MaskIOProofs
import Mathlib.Tactic.LinearCombination

/-!
# Proofs: errors of the index maps

Main result: `index_contract_iff`.
-/

namespace ADTimePix3.Mask

open Square

variable {g : Geometry} {w k : ℤ}

/-! ## Truncated division -/

theorem tdiv_tmod_nonneg (hw : 1 ≤ w) (hk : 0 ≤ k) :
    0 ≤ k.tdiv w ∧ 0 ≤ k.tmod w ∧ k.tmod w < w :=
  ⟨Int.tdiv_nonneg hk (by omega), Int.tmod_nonneg w hk, Int.tmod_lt_of_pos k (by omega)⟩

theorem tdiv_tmod_nonpos (hw : 1 ≤ w) (hk : k ≤ 0) :
    k.tdiv w ≤ 0 ∧ -w < k.tmod w ∧ k.tmod w ≤ 0 := by
  obtain ⟨hq, hr, hlt⟩ := tdiv_tmod_nonneg hw (k := -k) (by omega)
  rw [Int.neg_tdiv] at hq
  rw [Int.neg_tmod] at hr hlt
  omega

theorem le_tdiv_iff {n : ℤ} (hw : 1 ≤ w) (hn : 0 < n) : n ≤ k.tdiv w ↔ n * w ≤ k := by
  by_cases h0 : 0 ≤ k
  · rw [Int.tdiv_eq_ediv_of_nonneg h0, Int.le_ediv_iff_mul_le (by omega)]
  · have hnw : 0 < n * w := mul_pos hn (by omega)
    obtain ⟨hq, -, -⟩ := tdiv_tmod_nonpos (k := k) hw (by omega)
    omega

theorem tdiv_neg_iff (hw : 1 ≤ w) : k.tdiv w < 0 ↔ k ≤ -w := by
  have h := le_tdiv_iff (k := -k) (n := 1) hw (by omega)
  rw [Int.neg_tdiv] at h
  omega

theorem tdiv_neg_place {X x : ℤ} (hX : 0 ≤ X) (h0 : 0 ≤ x) (hlt : x < w) :
    (-(X * w + x)).tdiv w = -X ∧ (-(X * w + x)).tmod w = -x := by
  rw [Int.neg_tdiv, Int.neg_tmod, tdiv_place hX h0 hlt, tmod_place hX h0 hlt]
  exact ⟨rfl, rfl⟩

/-- A multiple of `w` between `-w` and `2 * w`. -/
theorem mul_small {t a : ℤ} (hw : 1 ≤ w) (ht : w * t = a) (h : -w < a) (h' : a < 2 * w) :
    t = 0 ∧ a = 0 ∨ t = 1 ∧ a = w := by
  have hlow : -1 < t := by
    by_contra hle
    have hmul : w * t ≤ w * -1 := mul_le_mul_of_nonneg_left (by omega) (by omega)
    omega
  have hhigh : t < 2 := by
    by_contra hle
    have hmul : w * 2 ≤ w * t := mul_le_mul_of_nonneg_left (by omega) (by omega)
    omega
  obtain rfl | rfl : t = 0 ∨ t = 1 := by omega
  · exact Or.inl ⟨rfl, by rw [← ht, mul_zero]⟩
  · exact Or.inr ⟨rfl, by rw [← ht, mul_one]⟩

/-- The quotient and the remainder of a number that is not in `[0, w * w)`. -/
inductive Outside (w k q r : ℤ) : Prop where
  | above (hq : w ≤ q) (hr : 0 ≤ r) (hlt : r < w)
  | below (hk : k < 0) (hq : q ≤ 0) (hr : -w < r) (hlt : r ≤ 0)

theorem Outside.abs_lt {q r : ℤ} (h : Outside w k q r) : -w < r ∧ r < w := by
  cases h with
  | above _ _ _ => omega
  | below _ _ _ _ => omega

theorem outside_of_not_mem (hw : 1 ≤ w) (hk : ¬ (0 ≤ k ∧ k < w * w)) : Outside w k (k.tdiv w) (k.tmod w) := by
  by_cases h0 : 0 ≤ k
  · obtain ⟨-, hr, hlt⟩ := tdiv_tmod_nonneg hw h0
    refine Outside.above ?_ hr hlt
    rw [Int.tdiv_eq_ediv_of_nonneg h0, Int.le_ediv_iff_mul_le (by omega)]
    omega
  · obtain ⟨hq, hr, hlt⟩ := tdiv_tmod_nonpos (k := k) hw (by omega)
    exact Outside.below (by omega) hq hr hlt

theorem ne_of_unsupported {o : ℤ} (ho : ¬ (0 ≤ o ∧ o ≤ 7)) (n : ℤ) (h0 : 0 ≤ n) (h7 : n ≤ 7) : o ≠ n := by
  rintro rfl
  exact ho ⟨h0, h7⟩

/-! ## `bpc2ImgIndex` for one chip -/

theorem bpcSingle_eq_neg_one_iff {o : ℤ} (hw : 1 ≤ w) (ho : 0 ≤ o) (ho' : o ≤ 7)
    (hk : ¬ (0 ≤ k ∧ k < w * w)) :
    (bpcSinglePel o k w).1 + w * (bpcSinglePel o k w).2 = -1 ↔ BpcSingleBefore o w k := by
  have hsplit : w * k.tdiv w + k.tmod w = k := Int.mul_tdiv_add_tmod k w
  have hout := outside_of_not_mem hw hk
  generalize hq : k.tdiv w = q at *
  generalize hr : k.tmod w = r at *
  obtain ⟨hlow, hhigh⟩ := hout.abs_lt
  interval_cases o <;> simp only [bpcSinglePel, BpcSingleBefore, hq, hr] <;> norm_num
  · -- UP: the pixel is `(r, w - 1 - q)`
    constructor
    · intro h
      have ht : w * (q + 1 - w) = r + 1 := by linear_combination -h
      rcases mul_small hw ht (by omega) (by omega) with ⟨hq0, hr0⟩ | ⟨hq1, hr1⟩
      · cases hout <;> omega
      · rw [← hsplit, show q = w by omega]
        omega
    · rintro rfl
      have ht : w * (q - w) = w - 1 - r := by linear_combination hsplit
      rcases mul_small hw ht (by omega) (by omega) with ⟨hq0, hr0⟩ | ⟨hq1, hr1⟩
      · rw [show q = w by omega]
        linear_combination -hr0
      · cases hout <;> omega
  · -- RIGHT: `(q, r)`
    constructor
    · intro h
      have hr0 : r = 0 := by
        cases hout with
        | above hle h0 _ =>
          have hmul : 0 ≤ w * r := mul_nonneg (by omega) h0
          omega
        | below _ hle _ hle' =>
          by_contra hne
          have hmul : w * r ≤ w * -1 := mul_le_mul_of_nonneg_left (by omega) (by omega)
          omega
      rw [hr0, mul_zero] at h
      rw [← hsplit, hr0, show q = -1 by omega]
      ring
    · rintro rfl
      have ht : w * (q + 1) = -r := by linear_combination hsplit
      rcases mul_small hw ht (by omega) (by omega) with ⟨hq0, hr0⟩ | ⟨hq1, hr1⟩
      · rw [show r = 0 by omega, mul_zero]
        omega
      · omega
  · -- DOWN: `(w - 1 - r, q)`
    constructor
    · intro h
      have ht : w * (q + 1) = r := by linear_combination h
      rcases mul_small hw ht (by omega) (by omega) with ⟨hq0, hr0⟩ | ⟨hq1, hr1⟩
      · rw [← hsplit, hr0, show q = -1 by omega]
        ring
      · omega
    · rintro rfl
      have ht : w * (q + 1) = -r := by linear_combination hsplit
      rcases mul_small hw ht (by omega) (by omega) with ⟨hq0, hr0⟩ | ⟨hq1, hr1⟩
      · rw [show q = -1 by omega]
        omega
      · omega
  · -- LEFT: `(w - 1 - q, w - 1 - r)`
    constructor
    · intro h
      linear_combination -h
    · intro h
      linear_combination -h
  · -- UP MIRRORED: `(w - 1 - r, w - 1 - q)`
    constructor
    · intro h
      have ht : w * (w - q) = r := by linear_combination h
      rcases mul_small hw ht (by omega) (by omega) with ⟨hq0, hr0⟩ | ⟨hq1, hr1⟩
      · rw [← hsplit, hr0, show q = w by omega, add_zero]
      · omega
    · rintro rfl
      have ht : w * (w - q) = r := by linear_combination -hsplit
      linear_combination ht
  · -- RIGHT MIRRORED: `(w - 1 - q, r)`
    constructor
    · intro h
      linear_combination -h
    · intro h
      linear_combination -h
  · -- DOWN MIRRORED: `(r, q)`
    rw [← hsplit, add_comm]
  · -- LEFT MIRRORED: `(q, w - 1 - r)`
    constructor
    · intro h
      linear_combination h
    · intro h
      linear_combination h

/-! ## `bpc2ImgIndex` for the quad -/

/-- A chip that the quad has not leaves the pixel `(0, 0)`. -/
theorem bpcQuadPel_outside {o chip : ℤ} (h : chip < 0 ∨ 4 ≤ chip) : bpcQuadPel o k w chip = (0, 0) := by
  have h0 : chip ≠ 0 := by omega
  have h1 : chip ≠ 1 := by omega
  have h2 : chip ≠ 2 := by omega
  have h3 : chip ≠ 3 := by omega
  simp only [bpcQuadPel, if_neg h0, if_neg h1, if_neg h2, if_neg h3, ite_self]

/-- An orientation that is not supported leaves the pixel `(0, 0)`. -/
theorem bpcQuadPel_unsupported {o chip : ℤ} (ho : ¬ (0 ≤ o ∧ o ≤ 7)) : bpcQuadPel o k w chip = (0, 0) := by
  simp [bpcQuadPel, ne_of_unsupported ho]

/-- Chip 0 of the quad, at a byte in front of the file. -/
theorem bpcQuad_chip0_eq_neg_one_iff {o : ℤ} (hw : 1 ≤ w) (hlow : -(w * w) < k) (hneg : k < 0) :
    (bpcQuadPel o k w 0).1 + 2 * w * (bpcQuadPel o k w 0).2 = -1 ↔ o = 3 ∧ k = -1 ∧ 2 ≤ w := by
  have hsplit : w * k.tdiv w + k.tmod w = k := Int.mul_tdiv_add_tmod k w
  obtain ⟨hq, hr, hr'⟩ := tdiv_tmod_nonpos (k := k) hw (by omega)
  have hq' : -w < k.tdiv w := by
    by_contra hle
    have hmul : w * k.tdiv w ≤ w * -w := mul_le_mul_of_nonneg_left (by omega) (by omega)
    rw [mul_neg] at hmul
    omega
  have hw2 : 1 ≤ 2 * w := by omega
  have hnn : ∀ a : ℤ, 0 ≤ a → 0 ≤ 2 * w * a := fun a ha => mul_nonneg (by omega) ha
  generalize hqe : k.tdiv w = q at *
  generalize hre : k.tmod w = r at *
  by_cases ho : 0 ≤ o ∧ o ≤ 7
  · obtain ⟨ho0, ho7⟩ := ho
    interval_cases o <;> simp only [bpcQuadPel, hqe, hre] <;> norm_num
    · -- UP: the row is below the image
      have hrow := hnn (2 * w - 1 - q) (by omega)
      omega
    · -- RIGHT: the row is in the lower half
      intro h
      have hrow : 2 * w * 1 ≤ 2 * w * (w + r) := mul_le_mul_of_nonneg_left (by omega) (by omega)
      omega
    · -- DOWN
      intro h
      have ht : 2 * w * (q + 1) = w + r := by linear_combination h
      rcases mul_small hw2 ht (by omega) (by omega) with ⟨-, h0⟩ | ⟨-, h1⟩ <;> omega
    · -- LEFT: the last pixel of the row above the image
      constructor
      · intro h
        have ht : 2 * w * (r + 1) = q := by linear_combination h
        rcases mul_small hw2 ht (by omega) (by omega) with ⟨hr0, hq0⟩ | ⟨-, hq1⟩
        · rw [hq0, mul_zero] at hsplit
          omega
        · omega
      · rintro ⟨rfl, hw2'⟩
        have ht : w * q = -1 - r := by linear_combination hsplit
        rcases mul_small hw ht (by omega) (by omega) with ⟨hq0, hr0⟩ | ⟨hq1, -⟩
        · rw [hq0, show r = -1 by omega]
          ring
        · omega
    · -- UP MIRRORED
      have hrow := hnn (2 * w - 1 - q) (by omega)
      omega
    · -- RIGHT MIRRORED
      have hrow := hnn (w + r) (by omega)
      omega
    · -- DOWN MIRRORED
      intro h
      have ht : 2 * w * (q + 1) = w - 1 - r := by linear_combination h
      rcases mul_small hw2 ht (by omega) (by omega) with ⟨h0, h0'⟩ | ⟨-, h1⟩ <;> omega
    · -- LEFT MIRRORED
      intro h
      have hrow := hnn (w - 1 - r) (by omega)
      have hrow' : 2 * w * 1 ≤ 2 * w * (w - 1 - r) := mul_le_mul_of_nonneg_left (by omega) (by omega)
      omega
  · rw [bpcQuadPel_unsupported ho]
    simp only [mul_zero, add_zero]
    omega

/-- The chip of a byte that the detector has not. -/
theorem chip_outside {n : ℤ} (hw : 1 ≤ w) (hk : ¬ (0 ≤ k ∧ k < n * (w * w))) :
    (k.tdiv (w * w) < 0 ∧ k ≤ -(w * w)) ∨ (k.tdiv (w * w) = 0 ∧ -(w * w) < k ∧ k < 0) ∨
      (n ≤ k.tdiv (w * w) ∧ 0 ≤ k ∧ n * (w * w) ≤ k) := by
  have hww : 0 < w * w := mul_pos (by omega) (by omega)
  by_cases h0 : 0 ≤ k
  · right
    right
    refine ⟨?_, h0, by omega⟩
    rw [Int.tdiv_eq_ediv_of_nonneg h0, Int.le_ediv_iff_mul_le hww]
    omega
  · have hneg : k.tdiv (w * w) = -((-k) / (w * w)) := by
      rw [← Int.tdiv_eq_ediv_of_nonneg (by omega), Int.neg_tdiv, neg_neg]
    by_cases hle : k ≤ -(w * w)
    · left
      refine ⟨?_, hle⟩
      have hone : 1 ≤ (-k) / (w * w) := by
        rw [Int.le_ediv_iff_mul_le hww]
        omega
      omega
    · right
      left
      refine ⟨?_, by omega, by omega⟩
      rw [hneg, Int.ediv_eq_zero_of_lt (by omega) (by omega), neg_zero]

/-! ## Supported layouts -/

/-- The tables only look at the width of a chip, so a supported layout is one of the supported geometries. -/
theorem chipGrid_supported (h : ChipWidth g w) {t : ℤ × ℤ} (ht : t ∈ chipGrid g) :
    ∃ g', Supported w g' ∧ g'.numChips = g.numChips ∧ imageWidth g' w = t.1 * w ∧ imageHeight g' w = t.2 * w ∧
      (∀ k, bpc2ImgIndex g k w = bpc2ImgIndex g' k w) ∧ ∀ i j, pelIndex g i j = pelIndex g' i j := by
  obtain ⟨hx, hw, hwidth⟩ := h
  obtain ⟨o, n, x, rows⟩ := g
  simp only [chipGrid] at ht
  by_cases h1 : n = 1 ∧ 0 ≤ o ∧ o ≤ 7
  · rw [if_pos h1] at ht
    obtain rfl := Option.some.inj ht
    obtain ⟨rfl, ho, ho'⟩ := h1
    refine ⟨⟨o, 1, 1, w⟩, .single o ho ho', rfl, rfl, by simp [imageHeight], fun k => rfl, fun i j => ?_⟩
    simp [pelIndex, findChip, hwidth, rowsCols_single]
  by_cases h4 : n = 4 ∧ 0 ≤ o ∧ o ≤ 7
  · rw [if_neg h1, if_pos h4] at ht
    obtain rfl := Option.some.inj ht
    obtain ⟨rfl, ho, ho'⟩ := h4
    have hdiv : (4 : ℤ).tdiv 2 = 2 := rfl
    refine ⟨⟨o, 4, 2, 2 * w⟩, .quad o ho ho', rfl, rfl, by simp [imageHeight, hdiv], fun k => rfl, fun i j => ?_⟩
    simp [pelIndex, findChip, hwidth, rowsCols_quad]
  · rw [if_neg h1, if_neg h4] at ht
    split at ht
    next h8 =>
      obtain rfl := Option.some.inj ht
      obtain ⟨rfl, rfl, hxy⟩ := h8
      refine ⟨⟨0, 8, x, x * w⟩, .mosaic8 x _ hx hxy, rfl, rfl, rfl, fun k => ?_, fun i j => ?_⟩
      · simp only [bpc2ImgIndex, hwidth, rowsCols_grid hx hxy]
        simp [rowsCols]
      · simp only [pelIndex, findChip, hwidth, rowsCols_grid hx hxy]
        simp [rowsCols]
    next => cases ht

theorem inFile_range (h : ChipWidth g w) (hin : InFile g w k) :
    0 ≤ bpc2ImgIndex g k w ∧ bpc2ImgIndex g k w < fileSize g w := by
  obtain ⟨hs, h0, hk⟩ := hin
  obtain ⟨t, ht⟩ := Option.isSome_iff_exists.mp hs
  obtain ⟨g', hg', hn, -, -, hbpc, -⟩ := chipGrid_supported h ht
  have hsize : fileSize g w = fileSize g' w := by rw [fileSize, fileSize, hn]
  rw [hsize] at hk ⊢
  obtain ⟨i, j, hij, hidx, -⟩ := pelIndex_of_bpc2ImgIndex h.one_le hg' h0 hk
  rw [hbpc, hidx]
  exact rowMajor_mem hg' hij

theorem onGrid_range (h : ChipWidth g w) {i j : ℤ} (hin : OnGrid g w i j) :
    0 ≤ pelIndex g i j ∧ pelIndex g i j < fileSize g w := by
  obtain ⟨t, ht, hij⟩ := hin
  obtain ⟨g', hg', hn, hwidth, hheight, -, hpel⟩ := chipGrid_supported h ht
  have hsize : fileSize g w = fileSize g' w := by rw [fileSize, fileSize, hn]
  have himage : InImage g' w i j := by
    rw [InImage, hwidth, hheight]
    exact ⟨hij.1.1, hij.1.2, hij.2.1, hij.2.2⟩
  rw [hsize, hpel]
  exact pelIndex_mem h.one_le hg' himage

/-- For what is valid the contract is kept, for all else it asks for `-1`. -/
theorem contract_iff {valid refused : Prop} {index : ℤ} (hvalid : valid → 0 ≤ index ∧ index < fileSize g w)
    (hrefused : ¬ valid → (index = -1 ↔ refused)) : Contract g w valid index ↔ valid ∨ refused := by
  unfold Contract
  by_cases h : valid
  · simp [h, hvalid h]
  · simp [h, hrefused h]

/-! ## The contract of `bpc2ImgIndex` -/

theorem bpcSinglePel_unsupported {o : ℤ} (ho : ¬ (0 ≤ o ∧ o ≤ 7)) : bpcSinglePel o k w = (0, 0) := by
  simp [bpcSinglePel, ne_of_unsupported ho]

theorem bpcSingleBefore_supported {o : ℤ} (h : BpcSingleBefore o w k) : 0 ≤ o ∧ o ≤ 7 := by
  unfold BpcSingleBefore at h
  omega

/-- A byte in front of the file belongs to chip 0 of a mosaic, and lies below the first row of chips. -/
theorem bpcMosaic_chip0 {x : ℤ} (hw : 1 ≤ w) (hx : 1 ≤ x) (hneg : k < 0) :
    k.tmod w + x * w * (w - 1 - k.tdiv w) ≠ -1 := by
  intro h
  have hsplit : w * k.tdiv w + k.tmod w = k := Int.mul_tdiv_add_tmod k w
  obtain ⟨hq, hr, hr'⟩ := tdiv_tmod_nonpos (k := k) hw (by omega)
  have hxw : w ≤ x * w := le_mul_of_one_le_left (by omega) hx
  generalize k.tdiv w = q at *
  generalize k.tmod w = r at *
  -- the row is 0 only if there is no remainder
  have hrow : 0 < w - 1 - q := by
    by_contra hle
    have hq0 : q = 0 := by omega
    rw [hq0, mul_zero] at hsplit
    omega
  have hmul : x * w * 1 ≤ x * w * (w - 1 - q) := mul_le_mul_of_nonneg_left hrow (by omega)
  omega

theorem bpcMosaic_eq_neg_one_iff (h : ChipWidth g w) (h8 : g.numChips = 8) (hout : ¬ InFile g w k) :
    bpc2ImgIndex g k w = -1 ↔ chipGrid g = none ∨ k ≤ -(w * w) ∨ fileSize g w ≤ k := by
  obtain ⟨hx, hw, hwidth⟩ := h
  obtain ⟨o, n, x, rows⟩ := g
  simp only at h8 hx
  subst h8
  have hww : 0 < w * w := mul_pos (by omega) (by omega)
  by_cases ho : o = 0
  · subst ho
    by_cases hxy : x * (8 : ℤ).tdiv x = 8
    · have hgrid : chipGrid ⟨0, 8, x, rows⟩ = some (x, (8 : ℤ).tdiv x) := by simp [chipGrid, hxy]
      have hk : ¬ (0 ≤ k ∧ k < 8 * (w * w)) := by
        intro hk
        refine hout ⟨by rw [hgrid]; rfl, hk.1, ?_⟩
        rw [fileSize, mul_assoc]
        exact hk.2
      have hx' : (rowsCols ⟨0, 8, x, rows⟩).xChips = x := rfl
      have hy' : (rowsCols ⟨0, 8, x, rows⟩).yChips = (8 : ℤ).tdiv x := rfl
      simp only [hgrid, reduceCtorEq, false_or, fileSize, mul_assoc]
      rcases chip_outside hw hk with ⟨hchip, hlow⟩ | ⟨hchip, hlow, hneg⟩ | ⟨hchip, h0, hhigh⟩
      · have hindex : bpc2ImgIndex ⟨0, 8, x, rows⟩ k w = -1 := by
          simp [bpc2ImgIndex, hww, hchip]
        exact iff_of_true hindex (Or.inl hlow)
      · have hindex : bpc2ImgIndex ⟨0, 8, x, rows⟩ k w = k.tmod w + x * w * (w - 1 - k.tdiv w) := by
          simp [bpc2ImgIndex, hwidth, hx', hy', hxy, hww, hchip, not_le.mpr hww]
        rw [hindex]
        refine iff_of_false (bpcMosaic_chip0 hw (by omega) hneg) ?_
        omega
      · have hchip7 : k.tdiv (w * w) > 7 := by omega
        have hindex : bpc2ImgIndex ⟨0, 8, x, rows⟩ k w = -1 := by
          simp [bpc2ImgIndex, hww, hchip7]
        exact iff_of_true hindex (Or.inr hhigh)
    · have hindex : bpc2ImgIndex ⟨0, 8, x, rows⟩ k w = -1 := by
        simp [bpc2ImgIndex, rowsCols, hxy]
      exact iff_of_true hindex (Or.inl (by simp [chipGrid, hxy]))
  · have hindex : bpc2ImgIndex ⟨o, 8, x, rows⟩ k w = -1 := by
      simp [bpc2ImgIndex, ho]
    exact iff_of_true hindex (Or.inl (by simp [chipGrid, ho]))

theorem bpc_contract_iff (h : ChipWidth g w) (k : ℤ) :
    Contract g w (InFile g w k) (bpc2ImgIndex g k w) ↔ InFile g w k ∨ BpcRefused g w k := by
  refine contract_iff (inFile_range h) fun hout => ?_
  have hw := h.one_le
  have hww : 0 < w * w := mul_pos (by omega) (by omega)
  unfold BpcRefused
  by_cases h1 : g.numChips = 1
  · rw [if_pos h1]
    simp only [bpc2ImgIndex, if_pos h1]
    by_cases ho : 0 ≤ g.detOrientation ∧ g.detOrientation ≤ 7
    · refine bpcSingle_eq_neg_one_iff hw ho.1 ho.2 fun hk => hout ⟨?_, hk.1, ?_⟩
      · simp [chipGrid, h1, ho]
      · rw [fileSize, h1, one_mul]
        exact hk.2
    · rw [bpcSinglePel_unsupported ho]
      simp only [mul_zero, add_zero]
      exact iff_of_false (by decide) (mt bpcSingleBefore_supported ho)
  rw [if_neg h1]
  by_cases h4 : g.numChips = 4
  · rw [if_pos h4]
    simp only [bpc2ImgIndex, if_neg h1, if_pos h4, if_pos hww]
    by_cases ho : 0 ≤ g.detOrientation ∧ g.detOrientation ≤ 7
    · have hk : ¬ (0 ≤ k ∧ k < 4 * (w * w)) := by
        intro hk
        refine hout ⟨?_, hk.1, ?_⟩
        · simp [chipGrid, h4, ho]
        · rw [fileSize, h4, mul_assoc]
          exact hk.2
      rcases chip_outside hw hk with ⟨hchip, hlow⟩ | ⟨hchip, hlow, hneg⟩ | ⟨hchip, h0, hhigh⟩
      · have hsq : w ≤ w * w := le_mul_of_one_le_left (by omega) hw
        rw [bpcQuadPel_outside (Or.inl hchip)]
        simp only [mul_zero, add_zero]
        omega
      · rw [hchip]
        exact bpcQuad_chip0_eq_neg_one_iff hw hlow hneg
      · rw [bpcQuadPel_outside (Or.inr hchip)]
        simp only [mul_zero, add_zero]
        omega
    · rw [bpcQuadPel_unsupported ho]
      simp only [mul_zero, add_zero]
      omega
  rw [if_neg h4]
  by_cases h8 : g.numChips = 8
  · rw [if_pos h8]
    exact bpcMosaic_eq_neg_one_iff h h8 hout
  · simp [bpc2ImgIndex, h1, h4, h8]

/-! ## The contract of `pelIndex` -/

theorem pelSingleIndex_unsupported {o i j : ℤ} (ho : ¬ (0 ≤ o ∧ o ≤ 7)) : pelSingleIndex o w i j = 0 := by
  simp [pelSingleIndex, ne_of_unsupported ho]

theorem pelQuadIndex_unsupported {o X Y i j : ℤ} (ho : ¬ (0 ≤ o ∧ o ≤ 7)) : pelQuadIndex o w X Y i j = 0 := by
  simp [pelQuadIndex, ne_of_unsupported ho]

/-- A tile that the quad has not. -/
theorem pelQuadIndex_outside {o X Y i j : ℤ} (ho : 0 ≤ o) (ho' : o ≤ 7) (ht : ¬ InRect 2 2 (X, Y)) :
    pelQuadIndex o w X Y i j = if X > 1 ∨ Y > 1 then -1 else 0 := by
  have h11 : ¬ (X = 1 ∧ Y = 1) := fun h => ht (by simp [InRect, h])
  have h10 : ¬ (X = 1 ∧ Y = 0) := fun h => ht (by simp [InRect, h])
  have h00 : ¬ (X = 0 ∧ Y = 0) := fun h => ht (by simp [InRect, h])
  have h01 : ¬ (X = 0 ∧ Y = 1) := fun h => ht (by simp [InRect, h])
  interval_cases o <;> simp [pelQuadIndex, h11, h10, h00, h01]

/-- Where the numbering of the bytes, continued beyond the chips, reaches the place in front of byte 0. -/
theorem linear_eq_neg_one_iff {c : ℤ} {p : ℤ × ℤ} (hw : 1 ≤ w) (hc : 0 ≤ c) (hx : -w < p.1) (hx' : p.1 < 2 * w - 1)
    (hy : -w < p.2) : linear w c p = -1 ↔ c = 0 ∧ (p = (-1, 0) ∨ p = (w - 1, -1)) := by
  obtain ⟨x, y⟩ := p
  simp only [linear, Prod.mk.injEq] at *
  constructor
  · intro h
    have ht : w * -(c * w + y) = x + 1 := by linear_combination -h
    have hc0 : c = 0 ∨ w ≤ c * w := by
      rcases hc.eq_or_lt with h0 | h1
      · exact Or.inl h0.symm
      · exact Or.inr (le_mul_of_one_le_left (by omega) h1)
    rcases mul_small hw ht (by omega) (by omega) with ⟨h0, h0'⟩ | ⟨h1, h1'⟩
    · obtain rfl | hcw := hc0
      · omega
      · omega
    · obtain rfl | hcw := hc0
      · omega
      · omega
  · rintro ⟨rfl, ⟨rfl, rfl⟩ | ⟨rfl, rfl⟩⟩
    · ring
    · ring

/-- A place next to the image on a tile of the quad. -/
theorem pelQuad_near_eq_neg_one_iff {o : ℤ} {t p : ℤ × ℤ} (hw : 1 ≤ w) (ho : 0 ≤ o) (ho' : o ≤ 7)
    (ht : InRect 2 2 t) (hx : -w < p.1 ∧ p.1 < w) (hy : -w < p.2 ∧ p.2 < w) (hx0 : t.1 ≠ 0 → 0 ≤ p.1)
    (hy0 : t.2 ≠ 0 → 0 ≤ p.2) (hneg : p.1 < 0 ∨ p.2 < 0) :
    pelQuadIndex o w t.1 t.2 (t.1 * w + p.1) (t.2 * w + p.2) = -1 ↔
      2 ≤ w ∧ PelQuadBefore o w (t.1 * w + p.1) (t.2 * w + p.2) := by
  rw [pelQuadIndex_tile ho ho' ht]
  have hmem := (quadUp.rotate (orientSym o) rfl).chipAt_mem t ht
  have hact : ∀ s : Sym, -w < (s.act w p).1 ∧ (s.act w p).1 < 2 * w - 1 ∧ -w < (s.act w p).2 := by
    intro s
    simp only [Sym.act, mirror]
    refine ⟨?_, ?_, ?_⟩ <;> split <;> split <;> omega
  obtain ⟨h1, h2, h3⟩ :=
    hact ((quadUp.rotate (orientSym o) rfl).sym ((quadUp.rotate (orientSym o) rfl).chipAt t)).inv
  rw [linear_eq_neg_one_iff hw hmem.1 h1 h2 h3]
  obtain ⟨X, Y⟩ := t
  obtain ⟨x, y⟩ := p
  obtain ⟨⟨hX, hX'⟩, hY, hY'⟩ := ht
  simp only at hX hX' hY hY' hx hy hx0 hy0 hneg
  clear hmem hact h1 h2 h3
  interval_cases o <;> interval_cases X <;> interval_cases Y <;>
    simp [PelQuadBefore, Mosaic.rotate, quadUp, quadChip, orientSym, Sym.id, Sym.inv, Sym.act, Sym.comp, mirror] <;>
    omega

theorem pelQuad_eq_neg_one_iff {o i j : ℤ} (hw : 1 ≤ w) (ho : 0 ≤ o) (ho' : o ≤ 7)
    (hout : ¬ InRect (2 * w) (2 * w) (i, j)) :
    pelQuadIndex o w (i.tdiv w) (j.tdiv w) i j = -1 ↔
      2 * w ≤ i ∨ 2 * w ≤ j ∨ 2 ≤ w ∧ PelQuadBefore o w i j := by
  have hX2 := le_tdiv_iff (k := i) (n := 2) hw (by decide)
  have hY2 := le_tdiv_iff (k := j) (n := 2) hw (by decide)
  have hX1 := le_tdiv_iff (k := i) (n := 1) hw (by decide)
  have hY1 := le_tdiv_iff (k := j) (n := 1) hw (by decide)
  have hXneg := tdiv_neg_iff (k := i) hw
  have hYneg := tdiv_neg_iff (k := j) hw
  have hi := Int.mul_tdiv_add_tmod i w
  have hj := Int.mul_tdiv_add_tmod j w
  have hin : ¬ ((0 ≤ i ∧ i < 2 * w) ∧ 0 ≤ j ∧ j < 2 * w) := hout
  by_cases hbeyond : 2 * w ≤ i ∨ 2 * w ≤ j
  · rw [pelQuadIndex_outside ho ho' (by simp only [InRect]; omega), if_pos (by omega)]
    omega
  · by_cases hfar : i ≤ -w ∨ j ≤ -w
    · rw [pelQuadIndex_outside ho ho' (by simp only [InRect]; omega), if_neg (by omega)]
      unfold PelQuadBefore
      omega
    · -- the pixel is next to the image
      have hx : -w < i.tmod w ∧ i.tmod w < w := ⟨Int.lt_tmod_of_pos i (by omega), Int.tmod_lt_of_pos i (by omega)⟩
      have hy : -w < j.tmod w ∧ j.tmod w < w := ⟨Int.lt_tmod_of_pos j (by omega), Int.tmod_lt_of_pos j (by omega)⟩
      have hnear := pelQuad_near_eq_neg_one_iff (t := (i.tdiv w, j.tdiv w)) (p := (i.tmod w, j.tmod w)) hw ho ho'
        (by simp only [InRect]; omega) hx hy (fun hne => Int.tmod_nonneg w (by simp only at hne; omega))
        (fun hne => Int.tmod_nonneg w (by simp only at hne; omega))
      simp only [Int.tdiv_mul_add_tmod] at hnear
      have hneg : i.tmod w < 0 ∨ j.tmod w < 0 := by
        rcases (by omega : i < 0 ∨ j < 0) with h | h
        · rw [show i.tdiv w = 0 by omega, mul_zero] at hi
          omega
        · rw [show j.tdiv w = 0 by omega, mul_zero] at hj
          omega
      rw [hnear hneg, ← or_assoc, or_iff_right hbeyond]

/-- The three ways in which the numbering of a mosaic reaches the place in front of byte 0, by the number of the chip
and the place on it. -/
def ReachesFront (w n x y : ℤ) : Prop :=
  x = -1 ∧ (y = w - 1 ∧ n = 0 ∨ y = -1 ∧ n = -1) ∨ x = w - 1 ∧ y = 0 ∧ n = -1

theorem mosaic_eq_neg_one_iff {n x y : ℤ} (hw : 1 ≤ w) (hx : -w < x ∧ x < w) (hy : -w < y ∧ y < w) :
    n * w * w + x + (w - 1 - y) * w = -1 ↔ ReachesFront w n x y := by
  constructor
  · intro h
    unfold ReachesFront
    have ht : w * -(n * w + (w - 1 - y)) = x + 1 := by linear_combination -h
    rcases mul_small hw ht (by omega) (by omega) with ⟨h0, hx0⟩ | ⟨h1, hx1⟩
    · have hrow : w * (n + 1) = y + 1 := by linear_combination -h0
      rcases mul_small hw hrow (by omega) (by omega) with ⟨hn, hy'⟩ | ⟨hn, hy'⟩ <;> omega
    · have hrow : w * (n + 1) = y := by linear_combination -h1
      rcases mul_small hw hrow (by omega) (by omega) with ⟨hn, hy'⟩ | ⟨hn, hy'⟩ <;> omega
  · rintro (⟨rfl, ⟨rfl, rfl⟩ | ⟨rfl, rfl⟩⟩ | ⟨rfl, rfl, rfl⟩) <;> ring

theorem before_of_reachesFront {x i j : ℤ} (hw : 1 ≤ w) (hx : 0 < x) (hi : i < x * w)
    (h : ReachesFront w (j.tdiv w * x + i.tdiv w) (i.tmod w) (j.tmod w)) : PelMosaicBefore x w i j := by
  have hisplit := Int.mul_tdiv_add_tmod i w
  have hjsplit := Int.mul_tdiv_add_tmod j w
  have hipos := tdiv_tmod_nonneg (k := i) hw
  have hineg := tdiv_tmod_nonpos (k := i) hw
  have hjpos := tdiv_tmod_nonneg (k := j) hw
  have hjneg := tdiv_tmod_nonpos (k := j) hw
  rcases h with ⟨hx1, ⟨hy1, hchip⟩ | ⟨hy1, hchip⟩⟩ | ⟨hx1, hy1, hchip⟩
  · -- behind the end of the row of chips above
    have hj : 0 ≤ j := by omega
    refine Or.inl ⟨hj, ?_, ?_⟩
    · rw [← Int.tmod_eq_emod_of_nonneg hj, hy1]
    · rw [← Int.tdiv_eq_ediv_of_nonneg hj]
      linear_combination -hisplit + hx1 + w * hchip
  · -- above and to the left of the mosaic
    refine Or.inr (Or.inr ⟨by omega, ?_⟩)
    rcases (by omega : j.tdiv w = 0 ∨ j.tdiv w ≤ -1) with hY | hY
    · rw [hY, mul_zero] at hjsplit
      rw [hY, zero_mul, zero_add] at hchip
      rw [hchip] at hisplit
      omega
    · have hmul : j.tdiv w * x ≤ -1 * x := mul_le_mul_of_nonneg_right hY (by omega)
      obtain rfl : x = 1 := by omega
      rw [show i.tdiv w = 0 by omega, mul_zero] at hisplit
      rw [show j.tdiv w = -1 by omega] at hjsplit
      omega
  · rw [hy1, add_zero] at hjsplit
    rcases (by omega : 0 ≤ j.tdiv w ∨ j.tdiv w ≤ -1) with hY | hY
    · -- chips of one pixel
      have hmul : 0 ≤ j.tdiv w * x := mul_nonneg hY (by omega)
      obtain rfl : w = 1 := by omega
      rw [Int.tdiv_one, Int.tdiv_one] at hchip
      rw [Int.tdiv_one] at hY
      refine Or.inl ⟨hY, by rw [Int.emod_one]; rfl, ?_⟩
      rw [Int.ediv_one]
      omega
    · -- to the left of the first row of chips
      have hX : i.tdiv w < x := by
        by_contra hle
        have hmul : w * x ≤ w * i.tdiv w := mul_le_mul_of_nonneg_left (by omega) (by omega)
        rw [mul_comm w x] at hmul
        omega
      have hY1 : j.tdiv w = -1 := by
        by_contra hne
        have hmul : j.tdiv w * x ≤ -2 * x := mul_le_mul_of_nonneg_right (by omega) (by omega)
        omega
      rw [hY1] at hjsplit hchip
      refine Or.inr (Or.inl ⟨?_, by omega⟩)
      rw [show i.tdiv w = x - 1 by omega, hx1] at hisplit
      linear_combination -hisplit

theorem reachesFront_of_before {x i j : ℤ} (hw : 1 ≤ w) (hx : 0 < x) (h : PelMosaicBefore x w i j) :
    ReachesFront w (j.tdiv w * x + i.tdiv w) (i.tmod w) (j.tmod w) := by
  rcases h with ⟨hj, hy1, hi1⟩ | ⟨hi1, hj1⟩ | ⟨hw2, ⟨hi1, hj1⟩ | ⟨hx1, hi1, hj1⟩⟩
  · rcases hw.eq_or_lt with rfl | hw2
    · rw [Int.ediv_one, mul_one] at hi1
      right
      rw [Int.tmod_one, Int.tmod_one, Int.tdiv_one, Int.tdiv_one]
      exact ⟨rfl, rfl, by omega⟩
    · have hX : 0 ≤ j / w * x := mul_nonneg (Int.ediv_nonneg hj (by omega)) (by omega)
      obtain ⟨hdiv, hmod⟩ := tdiv_neg_place hX (by decide) hw2
      rw [show -(j / w * x * w + 1) = i by omega] at hdiv hmod
      refine Or.inl ⟨hmod, Or.inl ⟨?_, ?_⟩⟩
      · rw [Int.tmod_eq_emod_of_nonneg hj, hy1]
      · rw [hdiv, Int.tdiv_eq_ediv_of_nonneg hj]
        omega
  · have hdiv := tdiv_place (w := w) (X := x - 1) (x := w - 1) (by omega) (by omega) (by omega)
    have hmod := tmod_place (w := w) (X := x - 1) (x := w - 1) (by omega) (by omega) (by omega)
    rw [show (x - 1) * w + (w - 1) = i by rw [hi1]; ring] at hdiv hmod
    obtain ⟨hdiv', hmod'⟩ := tdiv_neg_place (w := w) (X := 1) (x := 0) (by decide) le_rfl (by omega)
    rw [show -(1 * w + 0) = j by omega] at hdiv' hmod'
    refine Or.inr ⟨hmod, hmod', ?_⟩
    rw [hdiv, hdiv']
    ring
  · obtain ⟨hdiv, hmod⟩ := tdiv_neg_place (w := w) (X := 1) (x := 1) (by decide) (by decide) (by omega)
    rw [show -(1 * w + 1) = i by omega] at hdiv hmod
    obtain ⟨hdiv', hmod'⟩ := tdiv_neg_place (w := w) (X := 0) (x := 1) le_rfl (by decide) (by omega)
    rw [show -(0 * w + 1) = j by omega] at hdiv' hmod'
    refine Or.inl ⟨hmod, Or.inr ⟨hmod', ?_⟩⟩
    rw [hdiv, hdiv']
    ring
  · obtain ⟨hdiv, hmod⟩ := tdiv_neg_place (w := w) (X := 0) (x := 1) le_rfl (by decide) (by omega)
    rw [show -(0 * w + 1) = i by omega] at hdiv hmod
    obtain ⟨hdiv', hmod'⟩ := tdiv_neg_place (w := w) (X := 1) (x := 1) (by decide) (by decide) (by omega)
    rw [show -(1 * w + 1) = j by omega] at hdiv' hmod'
    refine Or.inl ⟨hmod, Or.inr ⟨hmod', ?_⟩⟩
    rw [hdiv, hdiv', hx1]
    ring

/-- A place next to a mosaic. -/
theorem pelMosaic_near_eq_neg_one_iff {x i j : ℤ} (hw : 1 ≤ w) (hx : 0 < x) (hi : i < x * w) :
    (j.tdiv w * x + i.tdiv w) * w * w + (i - i.tdiv w * w) + (w - 1 - (j - j.tdiv w * w)) * w = -1 ↔
      PelMosaicBefore x w i j := by
  have hisplit := Int.mul_tdiv_add_tmod i w
  have hjsplit := Int.mul_tdiv_add_tmod j w
  have hlx : -w < i.tmod w ∧ i.tmod w < w := ⟨Int.lt_tmod_of_pos i (by omega), Int.tmod_lt_of_pos i (by omega)⟩
  have hly : -w < j.tmod w ∧ j.tmod w < w := ⟨Int.lt_tmod_of_pos j (by omega), Int.tmod_lt_of_pos j (by omega)⟩
  rw [show i - i.tdiv w * w = i.tmod w by linear_combination -hisplit,
    show j - j.tdiv w * w = j.tmod w by linear_combination -hjsplit, mosaic_eq_neg_one_iff hw hlx hly]
  exact ⟨before_of_reachesFront hw hx hi, reachesFront_of_before hw hx⟩

theorem findChip_eq (h : (rowsCols g).chipPelWidth = w) (i j : ℤ) : findChip g i j = (i.tdiv w, j.tdiv w, w) := by
  rw [← h]
  rfl

theorem pelMosaic_eq_neg_one_iff (h : ChipWidth g w) (h8 : g.numChips = 8) (i j : ℤ) :
    pelIndex g i j = -1 ↔
      ∀ t ∈ chipGrid g, t.1 * w ≤ i ∨ t.2 * w ≤ j ∨ PelMosaicBefore t.1 w i j := by
  obtain ⟨hx, hw, hwidth⟩ := h
  have h1 : g.numChips ≠ 1 := by omega
  have h4 : g.numChips ≠ 4 := by omega
  rw [pelIndex, findChip_eq hwidth]
  simp only [if_neg h1, if_neg h4, if_pos h8, hwidth]
  by_cases ho : g.detOrientation = 0
  swap
  · rw [if_pos ho]
    exact iff_of_true rfl (fun t ht => by simp [chipGrid, h8, ho] at ht)
  rw [if_neg (not_not.mpr ho)]
  show (if g.rowLen * g.numChips.tdiv g.rowLen ≠ 8 ∨ w ≤ 0 ∨ i.tdiv w ≥ g.rowLen ∨
      j.tdiv w ≥ g.numChips.tdiv g.rowLen then _ else _) = -1 ↔ _
  by_cases hxy : g.rowLen * g.numChips.tdiv g.rowLen = 8
  swap
  · rw [if_pos (Or.inl hxy)]
    rw [h8] at hxy
    exact iff_of_true rfl (fun t ht => by simp [chipGrid, ho, hxy, h8] at ht)
  have hgrid : chipGrid g = some (g.rowLen, g.numChips.tdiv g.rowLen) := by
    rw [h8] at hxy
    simp [chipGrid, ho, hxy, h8]
  have hxChips : (rowsCols g).xChips = g.rowLen := rfl
  have hy : 0 < g.numChips.tdiv g.rowLen := by
    by_contra hle
    have hmul : g.rowLen * g.numChips.tdiv g.rowLen ≤ 0 := mul_nonpos_of_nonneg_of_nonpos hx.le (by omega)
    omega
  simp only [hgrid, Option.mem_some_iff, forall_eq']
  by_cases hbeyond : g.rowLen * w ≤ i ∨ g.numChips.tdiv g.rowLen * w ≤ j
  · rw [if_pos (Or.inr (Or.inr (hbeyond.imp (le_tdiv_iff hw hx).mpr (le_tdiv_iff hw hy).mpr)))]
    exact iff_of_true rfl (or_assoc.mp (Or.inl hbeyond))
  · have hin : ¬ (g.rowLen * g.numChips.tdiv g.rowLen ≠ 8 ∨ w ≤ 0 ∨ i.tdiv w ≥ g.rowLen ∨
        j.tdiv w ≥ g.numChips.tdiv g.rowLen) := by
      rintro (h | h | h)
      · exact h hxy
      · omega
      · exact hbeyond (h.imp (le_tdiv_iff hw hx).mp (le_tdiv_iff hw hy).mp)
    rw [if_neg hin, hxChips, pelMosaic_near_eq_neg_one_iff hw hx (not_le.mp (not_or.mp hbeyond).1), ← or_assoc,
      or_iff_right hbeyond]

theorem pel_contract_iff (h : ChipWidth g w) (i j : ℤ) :
    Contract g w (OnGrid g w i j) (pelIndex g i j) ↔ OnGrid g w i j ∨ PelRefused g w i j := by
  refine contract_iff (onGrid_range h) fun hout => ?_
  have hmosaic := fun h8 => pelMosaic_eq_neg_one_iff h h8 i j
  obtain ⟨hx, hw, hwidth⟩ := h
  rw [pelIndex, findChip_eq hwidth] at *
  unfold PelRefused
  simp only at hmosaic ⊢
  by_cases h1 : g.numChips = 1
  · rw [if_pos h1, if_pos h1]
    by_cases ho : 0 ≤ g.detOrientation ∧ g.detOrientation ≤ 7
    · have hturned := pelSingleIndex_turned (w := w) ho.1 ho.2 (i, j)
      simp only at hturned
      rw [hturned]
      generalize (orientSym g.detOrientation).inv.act w (i, j) = p
      constructor
      · intro h
        exact ⟨ho.1, ho.2, by linear_combination h⟩
      · rintro ⟨-, -, h⟩
        linear_combination h
    · rw [pelSingleIndex_unsupported ho]
      exact iff_of_false (by decide) (fun h => ho ⟨h.1, h.2.1⟩)
  by_cases h4 : g.numChips = 4
  · rw [if_neg h1, if_neg h1, if_pos h4, if_pos h4]
    by_cases ho : 0 ≤ g.detOrientation ∧ g.detOrientation ≤ 7
    · have hgrid : chipGrid g = some (2, 2) := by simp [chipGrid, h4, ho]
      rw [pelQuad_eq_neg_one_iff hw ho.1 ho.2 (fun hin => hout ⟨(2, 2), hgrid, hin⟩)]
      exact ⟨fun h => ⟨ho.1, ho.2, h⟩, fun h => h.2.2⟩
    · rw [pelQuadIndex_unsupported ho]
      exact iff_of_false (by decide) (fun h => ho ⟨h.1, h.2.1⟩)
  by_cases h8 : g.numChips = 8
  · rw [hmosaic h8, if_neg h1, if_neg h4, if_pos h8]
  · rw [if_neg h1, if_neg h1, if_neg h4, if_neg h4, if_neg h8, if_neg h8]
    exact iff_of_false (by decide) id

/-! ## The result -/

/-- The index maps keep their contract on what the detector has, and beyond it where they happen to give `-1`. -/
theorem index_contract_iff (g : Geometry) (w : ℤ) (h : ChipWidth g w) (k i j : ℤ) :
    (Contract g w (InFile g w k) (bpc2ImgIndex g k w) ↔ InFile g w k ∨ BpcRefused g w k) ∧
      (Contract g w (OnGrid g w i j) (pelIndex g i j) ↔ OnGrid g w i j ∨ PelRefused g w i j) :=
  ⟨bpc_contract_iff h k, pel_contract_iff h i j⟩

theorem index_contract_iff_quad :
    (Contract ⟨0, 4, 2, 4⟩ 2 (InFile ⟨0, 4, 2, 4⟩ 2 16) (bpc2ImgIndex ⟨0, 4, 2, 4⟩ 16 2) ↔
        InFile ⟨0, 4, 2, 4⟩ 2 16 ∨ BpcRefused ⟨0, 4, 2, 4⟩ 2 16) ∧
      (Contract ⟨0, 4, 2, 4⟩ 2 (OnGrid ⟨0, 4, 2, 4⟩ 2 4 0) (pelIndex ⟨0, 4, 2, 4⟩ 4 0) ↔
        OnGrid ⟨0, 4, 2, 4⟩ 2 4 0 ∨ PelRefused ⟨0, 4, 2, 4⟩ 2 4 0) :=
  index_contract_iff ⟨0, 4, 2, 4⟩ 2 ⟨by decide, by decide, rfl⟩ 16 4 0

/-- The first byte behind the file of a quad is given the pixel `(0, 0)`. -/
theorem quad_beyond_file_valid :
    ¬ InFile ⟨0, 4, 2, 512⟩ 256 262144 ∧ bpc2ImgIndex ⟨0, 4, 2, 512⟩ 262144 256 = 0 ∧
      ¬ Contract ⟨0, 4, 2, 512⟩ 256 (InFile ⟨0, 4, 2, 512⟩ 256 262144) (bpc2ImgIndex ⟨0, 4, 2, 512⟩ 262144 256) := by
  have hout : ¬ InFile ⟨0, 4, 2, 512⟩ 256 262144 := by decide
  have hindex : bpc2ImgIndex ⟨0, 4, 2, 512⟩ 262144 256 = 0 := by decide
  refine ⟨hout, hindex, fun h => ?_⟩
  rw [h.2 hout] at hindex
  cases hindex

end ADTimePix3.Mask
