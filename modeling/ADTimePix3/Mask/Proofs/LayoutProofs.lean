import ADTimePix3.Mask.Layout
import ADTimePix3.Mask.Bpc2ImgIndex
import ADTimePix3.Mask.PelIndex

/-!
# The tables of `mask_io.cpp` follow the layouts

`pelIndex` computes the index map of `layout`, and `bpc2ImgIndex` the pixel map of `bpcLayout`, for every
supported geometry. The two sides are compared tile by tile: once tile, chip and orientation are fixed,
both are polynomials in the width and the position inside the tile.
-/

namespace ADTimePix3.Mask

open Square

/-! ## Truncated division at the places it is used -/

theorem tdiv_place {w X x : ℤ} (hX : 0 ≤ X) (h0 : 0 ≤ x) (hw : x < w) :
    (X * w + x).tdiv w = X := by
  have hnn : 0 ≤ X * w + x := add_nonneg (mul_nonneg hX (by omega)) h0
  rw [Int.tdiv_eq_ediv_of_nonneg hnn, mul_add_ediv X h0 hw]

theorem tmod_place {w X x : ℤ} (hX : 0 ≤ X) (h0 : 0 ≤ x) (hw : x < w) :
    (X * w + x).tmod w = x := by
  have hnn : 0 ≤ X * w + x := add_nonneg (mul_nonneg hX (by omega)) h0
  rw [Int.tmod_eq_emod_of_nonneg hnn, mul_add_emod X h0 hw]

theorem tdiv_linear {w c : ℤ} {p : ℤ × ℤ} (hc : 0 ≤ c) (hp : InRect w w p) :
    (linear w c p).tdiv (w * w) = c := by
  have hl := mul_add_range hp.2 hp.1
  exact tdiv_place hc hl.1 hl.2

theorem linear_sub (w c : ℤ) (p : ℤ × ℤ) : linear w c p - c * (w * w) = p.2 * w + p.1 := by
  simp only [linear]
  ring

/-! ## `rowsCols` of the supported geometries -/

theorem rowsCols_single (o w : ℤ) : rowsCols ⟨o, 1, 1, w⟩ = ⟨w, w, 1, 1, w⟩ := by
  simp [rowsCols]

theorem rowsCols_quad (o w : ℤ) : rowsCols ⟨o, 4, 2, 2 * w⟩ = ⟨2 * w, 2 * w, 2, 2, w⟩ := by
  have h : (4 : ℤ).tdiv 2 = 2 := rfl
  simp [rowsCols, h]

theorem rowsCols_grid {o w x y : ℤ} (hx : 0 < x) (h8 : x * y = 8) :
    rowsCols ⟨o, 8, x, x * w⟩ = ⟨x * w, y * w, x, y, w⟩ := by
  have hy : (8 : ℤ).tdiv x = y := by rw [← h8]; exact Int.mul_tdiv_cancel_left y hx.ne'
  have hw : (x * w).tdiv x = w := Int.mul_tdiv_cancel_left w hx.ne'
  simp [rowsCols, hy, hw]

/-! ## `pelIndex` -/

/-- The 2x2 table of `pelIndex` on tile `t`. The formulas do not depend on `p` being a pixel of the tile. -/
theorem pelQuadIndex_tile {o w : ℤ} {t : ℤ × ℤ} (ho : 0 ≤ o) (ho' : o ≤ 7) (ht : InRect 2 2 t) (p : ℤ × ℤ) :
    pelQuadIndex o w t.1 t.2 (t.1 * w + p.1) (t.2 * w + p.2) =
      linear w ((quadUp.rotate (orientSym o) rfl).chipAt t)
        (((quadUp.rotate (orientSym o) rfl).sym ((quadUp.rotate (orientSym o) rfl).chipAt t)).inv.act w p) := by
  obtain ⟨X, Y⟩ := t
  obtain ⟨⟨hX, hX'⟩, hY, hY'⟩ := ht
  simp only at hX hX' hY hY'
  interval_cases o <;> interval_cases X <;> interval_cases Y <;>
    simp [pelQuadIndex, Mosaic.rotate, quadUp, quadChip, orientSym, Sym.id, Sym.inv, Sym.act,
      Sym.comp, mirror, linear] <;> ring

theorem pelQuadIndex_eq {o w : ℤ} {t p : ℤ × ℤ} (ho : 0 ≤ o) (ho' : o ≤ 7) (ht : InRect 2 2 t)
    (hp : InRect w w p) :
    pelQuadIndex o w t.1 t.2 (t.1 * w + p.1) (t.2 * w + p.2) =
      (quadUp.rotate (orientSym o) rfl).indexOf w (place w t p) := by
  rw [Mosaic.indexOf_place _ hp, pelQuadIndex_tile ho ho' ht]

/-- The single-chip table of `pelIndex`: the pixel is turned back to orientation UP. -/
theorem pelSingleIndex_turned {o w : ℤ} (ho : 0 ≤ o) (ho' : o ≤ 7) (p : ℤ × ℤ) :
    pelSingleIndex o w p.1 p.2 =
      ((orientSym o).inv.act w p).1 + (w - 1 - ((orientSym o).inv.act w p).2) * w := by
  interval_cases o <;>
    simp [pelSingleIndex, orientSym, Sym.id, Sym.inv, Sym.act, mirror]

theorem pelSingleIndex_eq {o w : ℤ} {p : ℤ × ℤ} (ho : 0 ≤ o) (ho' : o ≤ 7) (hp : InRect w w p) :
    pelSingleIndex o w p.1 p.2 =
      (singleUp.rotate (orientSym o) rfl).indexOf w (place w (0, 0) p) := by
  rw [Mosaic.indexOf_place _ hp]
  interval_cases o <;>
    simp [pelSingleIndex, Mosaic.rotate, singleUp, orientSym, Sym.id, Sym.inv, Sym.act,
      Sym.comp, mirror, linear] <;> ring

theorem pelIndex_grid {w x y : ℤ} {t p : ℤ × ℤ} (hx : 0 < x) (h8 : x * y = 8) (hw : 0 < w)
    (ht : InRect x y t) (hp : InRect w w p) :
    pelIndex ⟨0, 8, x, x * w⟩ (t.1 * w + p.1) (t.2 * w + p.2) =
      (gridUp x y hx).indexOf w (place w t p) := by
  rw [Mosaic.indexOf_place _ hp]
  obtain ⟨⟨hX, hX'⟩, hY, hY'⟩ := ht
  have htx := tdiv_place hX hp.1.1 hp.1.2
  have hty := tdiv_place hY hp.2.1 hp.2.2
  simp [pelIndex, findChip, rowsCols_grid hx h8, htx, hty, h8, not_le.mpr hw, not_le.mpr hX',
    not_le.mpr hY', gridUp, Sym.inv, Sym.act, mirror, linear]
  ring

/-- The layout of the three kinds of supported geometries. -/
theorem layout_single (o w : ℤ) :
    layout ⟨o, 1, 1, w⟩ = singleUp.rotate (orientSym o) rfl := by simp [layout]

theorem layout_quad (o w : ℤ) :
    layout ⟨o, 4, 2, 2 * w⟩ = quadUp.rotate (orientSym o) rfl := by simp [layout]

theorem layout_grid {w x y : ℤ} (hx : 0 < x) (h8 : x * y = 8) :
    layout ⟨0, 8, x, x * w⟩ = gridUp x y hx := by
  have hy : (8 : ℤ).tdiv x = y := by rw [← h8]; exact Int.mul_tdiv_cancel_left y hx.ne'
  simp [layout, hx, hy]

/-- A supported geometry has as many chips as its layout, on a grid of the size of the image. -/
theorem layout_size {g : Geometry} {w : ℤ} (hg : Supported w g) :
    (layout g).chips * (w * w) = fileSize g w ∧ (layout g).cols * w = imageWidth g w ∧
      (layout g).rows * w = imageHeight g w := by
  cases hg with
  | single o _ _ =>
    rw [layout_single]
    simp [fileSize, imageWidth, imageHeight, Mosaic.rotate, singleUp]
  | quad o _ _ =>
    have h : (4 : ℤ).tdiv 2 = 2 := rfl
    rw [layout_quad]
    simp [fileSize, imageWidth, imageHeight, Mosaic.rotate, quadUp, h]
    ring
  | mosaic8 x y hx h8 =>
    have hy : (8 : ℤ).tdiv x = y := by rw [← h8]; exact Int.mul_tdiv_cancel_left y hx.ne'
    rw [layout_grid hx h8]
    refine ⟨?_, rfl, by simp [imageHeight, gridUp, hy]⟩
    simp only [fileSize, gridUp, ← h8]
    ring

theorem inImage_iff {g : Geometry} {w i j : ℤ} (hg : Supported w g) :
    InImage g w i j ↔ InRect ((layout g).cols * w) ((layout g).rows * w) (i, j) := by
  obtain ⟨-, hc, hr⟩ := layout_size hg
  rw [hc, hr]
  exact and_assoc.symm

theorem pelIndex_eq_indexOf {g : Geometry} {w i j : ℤ} (hw : 0 < w) (hg : Supported w g)
    (hij : InImage g w i j) : pelIndex g i j = (layout g).indexOf w (i, j) := by
  rw [inImage_iff hg] at hij
  obtain ⟨t, p, ht, hp, hpl⟩ := exists_place hw hij
  obtain ⟨rfl, rfl⟩ := Prod.mk.inj hpl
  cases hg with
  | single o ho ho' =>
    rw [layout_single] at ht ⊢
    obtain ⟨X, Y⟩ := t
    obtain ⟨⟨hX, hX'⟩, hY, hY'⟩ := ht
    simp only [Mosaic.rotate, singleUp] at hX hX' hY hY'
    obtain rfl : X = 0 := by omega
    obtain rfl : Y = 0 := by omega
    have heq := pelSingleIndex_eq ho ho' hp
    simpa [pelIndex, findChip, rowsCols_single, place] using heq
  | quad o ho ho' =>
    rw [layout_quad] at ht ⊢
    have htx := tdiv_place ht.1.1 hp.1.1 hp.1.2
    have hty := tdiv_place ht.2.1 hp.2.1 hp.2.2
    have heq := pelQuadIndex_eq ho ho' ht hp
    simpa [pelIndex, findChip, rowsCols_quad, htx, hty, place] using heq
  | mosaic8 x y hx h8 =>
    rw [layout_grid hx h8] at ht ⊢
    exact pelIndex_grid hx h8 hw ht hp

/-! ## `bpc2ImgIndex` -/

/-- The single-chip table of `bpc2ImgIndex`, at the pixel `p` of the chip. -/
theorem bpcSinglePel_eq {o w : ℤ} {p : ℤ × ℤ} (ho : 0 ≤ o) (ho' : o ≤ 7) (hp : InRect w w p) :
    bpcSinglePel o (linear w 0 p) w =
      place w (0, 0) (((singleUp.rotate (orientSym o) rfl).sym 0).act w p) := by
  have hdiv := tdiv_place hp.2.1 hp.1.1 hp.1.2
  have hmod := tmod_place hp.2.1 hp.1.1 hp.1.2
  interval_cases o <;>
    simp [bpcSinglePel, linear, hdiv, hmod, place, Mosaic.rotate, singleUp, orientSym, Sym.id,
      Sym.act, Sym.comp, mirror]

/-- The 2x2 table of `bpc2ImgIndex`, at the pixel `p` of chip `c`. -/
theorem bpcQuadPel_eq {o w c : ℤ} {p : ℤ × ℤ} (ho : 0 ≤ o) (ho' : o ≤ 7) (hc : 0 ≤ c)
    (hc' : c < 4) (hp : InRect w w p) :
    bpcQuadPel o (linear w c p) w c =
      place w ((bpcLayout ⟨o, 4, 2, 2 * w⟩).tileOf c)
        (((bpcLayout ⟨o, 4, 2, 2 * w⟩).sym c).act w p) := by
  have hdiv := tdiv_place hp.2.1 hp.1.1 hp.1.2
  have hmod := tmod_place hp.2.1 hp.1.1 hp.1.2
  have h0 : linear w 0 p = p.2 * w + p.1 := by simp [linear]
  have h1 := linear_sub w 1 p
  rw [one_mul] at h1
  have h2 := linear_sub w 2 p
  have h3 := linear_sub w 3 p
  simp only [bpcLayout, layout_quad]
  interval_cases o <;> interval_cases c <;> refine Prod.ext ?_ ?_ <;>
    simp [bpcQuadPel, h0, h1, h2, h3, hdiv, hmod, place, LeftChip0, Mosaic.rotate, quadUp,
      quadTile, orientSym, Sym.id, Sym.act, Sym.comp, mirror] <;> ring

theorem bpc2ImgIndex_grid {w x y c : ℤ} {p : ℤ × ℤ} (hx : 0 < x) (h8 : x * y = 8) (hw : 0 < w)
    (hc : 0 ≤ c) (hc' : c < 8) (hp : InRect w w p) :
    bpc2ImgIndex ⟨0, 8, x, x * w⟩ (linear w c p) w =
      (c % x * w + p.1) + x * w * (c / x * w + (w - 1 - p.2)) := by
  have hww := mul_pos hw hw
  have hdiv := tdiv_place hp.2.1 hp.1.1 hp.1.2
  have hmod := tmod_place hp.2.1 hp.1.1 hp.1.2
  have hcx : c.tdiv x = c / x := Int.tdiv_eq_ediv_of_nonneg hc
  have hcm : c.tmod x = c % x := Int.tmod_eq_emod_of_nonneg hc
  have hc7 : ¬ c > 7 := by omega
  simp [bpc2ImgIndex, rowsCols_grid hx h8, hww, tdiv_linear hc hp, h8, not_le.mpr hww,
    not_lt.mpr hc, hc7, linear_sub, hdiv, hmod, hcx, hcm]

/-- `bpc2ImgIndex` is the row-major index of the pixel that its layout gives. -/
theorem bpc2ImgIndex_eq_pixelOf {g : Geometry} {w k : ℤ} (hw : 0 < w) (hg : Supported w g)
    (h0 : 0 ≤ k) (hk : k < fileSize g w) :
    bpc2ImgIndex g k w =
      ((bpcLayout g).pixelOf w k).2 * imageWidth g w + ((bpcLayout g).pixelOf w k).1 := by
  have hww := mul_pos hw hw
  rw [← (layout_size hg).1] at hk
  obtain ⟨c, p, ⟨hc, hc'⟩, hp, rfl⟩ := exists_linear hw h0 hk
  rw [Mosaic.pixelOf_linear _ hp]
  cases hg with
  | single o ho ho' =>
    rw [layout_single] at hc'
    simp only [Mosaic.rotate, singleUp] at hc'
    obtain rfl : c = 0 := by omega
    have heq := bpcSinglePel_eq ho ho' hp
    have htile : (orientSym o).act 1 (0, 0) = (0, 0) := by simp [Sym.act, mirror]
    simp only [bpcLayout, LeftChip0, layout_single, Mosaic.rotate, singleUp] at heq ⊢
    simp [bpc2ImgIndex, heq, htile, imageWidth]
    ring
  | quad o ho ho' =>
    rw [layout_quad] at hc'
    have heq := bpcQuadPel_eq ho ho' hc hc' hp
    simp [bpc2ImgIndex, hww, tdiv_linear hc hp, heq, imageWidth]
    ring
  | mosaic8 x y hx h8 =>
    rw [layout_grid hx h8] at hc'
    have h8' : y * x = 8 := by rw [mul_comm]; exact h8
    rw [bpc2ImgIndex_grid hx h8 hw hc (by simpa [gridUp, h8'] using hc') hp]
    simp [bpcLayout, LeftChip0, layout_grid hx h8, gridUp, Sym.act, mirror, place, imageWidth]
    ring

end ADTimePix3.Mask
