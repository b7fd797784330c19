import ADTimePix3.Mask.CheckedDraw
import ADTimePix3.Mask.Proofs.MaskIOProofs

/-!
# Drawing in machine arithmetic: proofs

Where nothing overflows, a call in machine arithmetic is the call over `ℤ`, of which `Draw.apply_touches` says
what it does.

Main result: `drawsMask_of_draws`.
-/

namespace ADTimePix3.Mask

open Loops MachineInt Square

variable {g : Geometry} {w : ℤ}

/-! ## Geometry -/

theorem Grid.rowMajor (hg : Grid w g) : RowMajor w g := by
  obtain ⟨hw, hrow, hchips, hrows⟩ := hg
  have hwidth : g.numberOfRows.tdiv g.rowLen = w := by
    rw [hrows]
    exact Int.mul_tdiv_cancel_left w hrow.ne'
  refine ⟨hrows, ?_, ?_⟩
  · simp only [rowsCols, imageHeight, hwidth]
  · have hfloor : g.numChips.tdiv g.rowLen * g.rowLen ≤ g.numChips := by
      rw [Int.tdiv_eq_ediv_of_nonneg hchips]
      exact Int.ediv_mul_le g.numChips hrow.ne'
    have hww : 0 ≤ w * w := mul_self_nonneg w
    calc imageHeight g w * imageWidth g w
        = g.numChips.tdiv g.rowLen * g.rowLen * (w * w) := by rw [imageHeight, imageWidth]; ring
      _ ≤ g.numChips * (w * w) := mul_le_mul_of_nonneg_right hfloor hww
      _ = fileSize g w := by rw [fileSize, mul_assoc]

/-- The supported geometries are grids of chips. -/
theorem Supported.grid (hw : 1 ≤ w) (hg : Supported w g) : Grid w g := by
  cases hg with
  | single o _ _ => exact ⟨hw, Int.one_pos, by simp, (one_mul w).symm⟩
  | quad o _ _ => exact ⟨hw, by simp, by simp, rfl⟩
  | mosaic8 x y hx _ => exact ⟨hw, hx, by simp, rfl⟩

/-! ## Nothing overflows -/

theorem Checked.rowsCols_of_fits (h : Fits (Mask.rowsCols g).cols) :
    Checked.rowsCols g = some (Mask.rowsCols g) := by
  have hcols : int ((Mask.rowsCols g).yChips * (Mask.rowsCols g).chipPelWidth) =
      some (Mask.rowsCols g).cols := int_of_fits h
  simp only [Checked.rowsCols, hcols]
  rfl

theorem inDisc_of_fits {nX nY nRadius i j : ℤ} (hi : nX - nRadius ≤ i ∧ i ≤ nX + nRadius)
    (hj : nY - nRadius ≤ j ∧ j ≤ nY + nRadius)
    (hd : Fits ((i - nX) * (i - nX) + (j - nY) * (j - nY))) (hr : Fits (nRadius * nRadius)) :
    Checked.inDisc nX nY nRadius i j =
      some (decide ((i - nX) * (i - nX) + (j - nY) * (j - nY) ≤ nRadius * nRadius)) := by
  have hr0 : 0 ≤ nRadius := by omega
  have hsmall : nRadius < 2 ^ 31 := by
    by_contra hle
    have hsq : (2 ^ 31 : ℤ) * 2 ^ 31 ≤ nRadius * nRadius :=
      mul_self_le_mul_self (by norm_num) (not_lt.mp hle)
    unfold Fits at hr
    omega
  have hx0 := mul_self_nonneg (i - nX)
  have hy0 := mul_self_nonneg (j - nY)
  have hx : Fits (i - nX) := by unfold Fits; omega
  have hy : Fits (j - nY) := by unfold Fits; omega
  have hx2 := hd.of_le hx0 (by omega)
  have hy2 := hd.of_le hy0 (by omega)
  simp [Checked.inDisc, int_of_fits hx, int_of_fits hy, int_of_fits hx2, int_of_fits hy2,
    int_of_fits hd, int_of_fits hr]

theorem setMaskBit_other {m : ℕ} (hm : m ≠ 0) (onOff e : Word) :
    (setMaskBit onOff e).getLsbD m = e.getLsbD m := by
  unfold setMaskBit
  split
  · simp [hm]
  · rw [BitVec.getLsbD_and, BitVec.getLsbD_not]
    by_cases hlt : m < 32
    · simp [hm, hlt]
    · simp [BitVec.getLsbD_of_ge e m (by omega)]

section Grid

variable (hg : Grid w g)
include hg

theorem element_of_draws {p : Draw} (hp : p.Draws g w) {i j : ℤ} (hij : InImage g w i j)
    (hcov : p.Covers i j) :
    Checked.element (rowsCols g) i j = some (j * (rowsCols g).rows + i) := by
  have hfit := hp.element_fits i j hij hcov
  obtain ⟨hi, hi', hj, -⟩ := hij
  have hrow0 : 0 ≤ j * imageWidth g w := mul_nonneg hj (by omega)
  rw [Checked.element, hg.rowMajor.rows_eq, int_of_fits (hfit.of_le hrow0 (by omega))]
  exact int_of_fits hfit

theorem checked_maskReset {onOff : Word} (hp : (Draw.reset onOff).Draws g w) (buf : List Word) :
    Checked.maskReset g buf onOff = maskReset g buf onOff := by
  simp only [Checked.maskReset, Checked.rowsCols_of_fits hp.cols_fit, Option.bind_eq_bind,
    Option.bind_some, maskReset]
  refine forLoop_congr (fun j hj hj' buf => forLoop_congr (fun i hi hi' buf => ?_) buf) buf
  have hij := (hp.reaches i j trivial).mp ⟨⟨hi, hj⟩, hi', hj'⟩
  rw [element_of_draws hg hp hij trivial, Option.bind_some]

theorem checked_maskRectangle {nX nXsize nY nYsize : ℤ} {onOff : Word}
    (hp : (Draw.rectangle nX nXsize nY nYsize onOff).Draws g w) (buf : List Word) :
    Checked.maskRectangle g buf nX nXsize nY nYsize onOff =
      maskRectangle g buf nX nXsize nY nYsize onOff := by
  obtain ⟨hyEnd, hxEnd⟩ := hp.bounds_fit
  simp only [Checked.maskRectangle, Checked.rowsCols_of_fits hp.cols_fit, int_of_fits hyEnd,
    Option.bind_eq_bind, Option.bind_some, maskRectangle]
  refine forLoop_congr (fun j hj hj' buf => ?_) buf
  by_cases hjr : j < (rowsCols g).rows
  · rw [if_pos hjr, if_pos hjr, int_of_fits (hxEnd (by omega) (by omega)), Option.bind_some]
    refine forLoop_congr (fun i hi hi' buf => ?_) buf
    by_cases hic : i < (rowsCols g).cols
    · have hcov : (Draw.rectangle nX nXsize nY nYsize onOff).Covers i j := ⟨⟨hi, hi'⟩, hj, hj'⟩
      have hij := (hp.reaches i j hcov).mp ⟨trivial, hic, hjr⟩
      rw [if_pos hic, if_pos hic, element_of_draws hg hp hij hcov, Option.bind_some]
    · rw [if_neg hic, if_neg hic]
  · rw [if_neg hjr, if_neg hjr]

theorem checked_maskCircle {nX nY nRadius : ℤ} {onOff : Word}
    (hp : (Draw.circle nX nY nRadius onOff).Draws g w) (buf : List Word) :
    Checked.maskCircle g buf nX nY nRadius onOff = maskCircle g buf nX nY nRadius onOff := by
  obtain ⟨hyFirst, hyLast, hbox⟩ := hp.bounds_fit
  simp only [Checked.maskCircle, Checked.rowsCols_of_fits hp.cols_fit, int_of_fits hyFirst,
    int_of_fits hyLast, Option.bind_eq_bind, Option.bind_some, maskCircle]
  rw [forLoopLe_of_fits fun hle => (hbox (by omega)).1]
  refine forLoop_congr (fun j hj hj' buf => ?_) buf
  obtain ⟨-, hxFirst, hxNext, hdist⟩ := hbox (by omega)
  have hxLast : Fits (nX + nRadius) := by
    unfold Fits at *
    omega
  rw [int_of_fits hxFirst, Option.bind_some, int_of_fits hxLast, Option.bind_some,
    forLoopLe_of_fits fun _ => hxNext]
  refine forLoop_congr (fun i hi hi' buf => ?_) buf
  by_cases hin : (0 ≤ j ∧ j < (rowsCols g).rows) ∧ 0 ≤ i ∧ i < (rowsCols g).cols
  · obtain ⟨⟨hj0, hjr⟩, hi0, hic⟩ := hin
    have hibox : nX - nRadius ≤ i ∧ i ≤ nX + nRadius := ⟨hi, by omega⟩
    have hjbox : nY - nRadius ≤ j ∧ j ≤ nY + nRadius := ⟨hj, by omega⟩
    obtain ⟨hd, hr⟩ := hdist i j ⟨hibox, hjbox⟩ ⟨⟨hj0, hjr⟩, hi0, hic⟩
    rw [if_pos ⟨hj0, hjr, hi0, hic⟩, inDisc_of_fits hibox hjbox hd hr, Option.bind_some]
    by_cases hcov : (i - nX) * (i - nX) + (j - nY) * (j - nY) ≤ nRadius * nRadius
    · have hij := (hp.reaches i j hcov).mp ⟨⟨hi0, hj0, by omega⟩, hic, hjr⟩
      rw [if_pos (decide_eq_true hcov), if_pos ⟨hj0, hjr, hi0, hic, hcov⟩,
        element_of_draws hg hp hij hcov, Option.bind_some]
    · rw [if_neg (by simpa using hcov), if_neg fun h => hcov h.2.2.2.2]
  · rw [if_neg fun h => hin ⟨⟨h.1, h.2.1⟩, h.2.2⟩,
      if_neg fun h => hin ⟨⟨h.1, h.2.1⟩, h.2.2.1, h.2.2.2.1⟩]

/-- A call that draws its shape is the same in machine arithmetic and over `ℤ`. -/
theorem checked_apply {p : Draw} (hp : p.Draws g w) (buf : List Word) :
    Checked.apply g buf p = p.apply g buf := by
  cases p with
  | reset onOff => exact checked_maskReset hg hp buf
  | rectangle nX nXsize nY nYsize onOff => exact checked_maskRectangle hg hp buf
  | circle nX nY nRadius onOff => exact checked_maskCircle hg hp buf

theorem checked_apply_touches {p : Draw} (hp : p.Draws g w) {buf : List Word}
    (hlen : (buf.length : ℤ) = fileSize g w) :
    ∃ buf', Checked.apply g buf p = some buf' ∧ Touches p.paint (p.Elements g w) buf buf' := by
  rw [checked_apply hg hp]
  exact Draw.apply_touches hg.rowMajor hlen hp.reaches

/-! ## Runs -/

theorem exists_bitAt_pixel {buf : List Word} (hlen : (buf.length : ℤ) = fileSize g w) {i j : ℤ}
    (hij : InImage g w i j) : ∃ b, bitAt buf (j * imageWidth g w + i) 0 = some b := by
  obtain ⟨h1, h2, h3, h4⟩ := hij
  obtain ⟨h0, hlt⟩ := mul_add_range ⟨h3, h4⟩ ⟨h1, h2⟩
  have hsize := hg.rowMajor.size_le
  exact exists_bitAt buf 0 h0 (by rw [hlen]; omega)

/-- A sequence of calls leaves on each pixel the bit of the last call that covers it. -/
theorem applyAll_drawn (draws : List Draw) (hp : ∀ p ∈ draws, p.Draws g w) (value : List Word)
    (hlen : (value.length : ℤ) = fileSize g w) :
    ∃ mask, Checked.applyAll g draws value = some mask ∧ mask.length = value.length ∧
      ∀ i j, InImage g w i j → ∃ b, bitAt value (j * imageWidth g w + i) 0 = some b ∧
        bitAt mask (j * imageWidth g w + i) 0 = some (lastDrawn draws i j b) := by
  induction draws generalizing value with
  | nil =>
    refine ⟨value, rfl, rfl, fun i j hij => ?_⟩
    obtain ⟨b, hb⟩ := exists_bitAt_pixel hg hlen hij
    exact ⟨b, hb, hb⟩
  | cons p draws ih =>
    have hp0 := hp p (List.mem_cons_self ..)
    obtain ⟨v, hv, ht⟩ := checked_apply_touches hg hp0 hlen
    have hlv : v.length = value.length := ht.length_eq
    obtain ⟨mask, hmask, hlm, hdrawn⟩ := ih (fun q hq => hp q (List.mem_cons_of_mem p hq)) v
      (by rw [hlv, hlen])
    refine ⟨mask, ?_, hlm.trans hlv, fun i j hij => ?_⟩
    · unfold Checked.applyAll
      rw [List.foldlM_cons, hv]
      exact hmask
    · obtain ⟨b', hb', hm⟩ := hdrawn i j hij
      obtain ⟨b, hb⟩ := exists_bitAt_pixel hg hlen hij
      have hstep := request_bitAt ht hij hb
      rw [hp0.bit_eq] at hstep
      obtain rfl : b' = if p.Covers i j then decide (p.onOff ≠ 0) else b :=
        Option.some.inj (hb'.symm.trans hstep)
      exact ⟨b, hb, hm⟩

/-- A rectangle and a circle write bit 0 of the pixels they cover only. -/
theorem checked_apply_kept {p : Draw} (hp : p.Draws g w) (hnr : ¬ p.IsReset) {buf : List Word}
    (hlen : (buf.length : ℤ) = fileSize g w) :
    ∃ buf', Checked.apply g buf p = some buf' ∧
      ∀ k m, (∃ i j, InImage g w i j ∧ p.Covers i j ∧ k = j * imageWidth g w + i) ∧ m = 0 ∨
        bitAt buf' k m = bitAt buf k m := by
  obtain ⟨buf', hbuf', ht⟩ := checked_apply_touches hg hp hlen
  refine ⟨buf', hbuf', fun k m => ?_⟩
  by_cases hk : p.Elements g w k
  · by_cases hm : m = 0
    · exact .inl ⟨hk, hm⟩
    · have hk0 : 0 ≤ k := by
        obtain ⟨i, j, ⟨h1, h2, h3, h4⟩, -, rfl⟩ := hk
        exact (mul_add_range ⟨h3, h4⟩ ⟨h1, h2⟩).1
      have hbit : ∀ e, (p.paint e).getLsbD m = e.getLsbD m := by
        intro e
        cases p with
        | reset onOff => exact absurd trivial hnr
        | rectangle _ _ _ _ onOff => exact setMaskBit_other hm onOff e
        | circle _ _ _ onOff => exact setMaskBit_other hm onOff e
      right
      rw [bitAt_touched id ht hk0 hk hbit, Option.map_id_apply]
  · exact .inr (bitAt_of_fetch (ht.fetch_kept hk))

end Grid

/-- Calls that each draw their shape draw the mask, in any sequence of them. -/
theorem drawsMask_of_draws (g : Geometry) (w : ℤ) (hg : Grid w g) (draws : List Draw)
    (hp : ∀ p ∈ draws, p.Draws g w) (value : List Word)
    (hlen : (value.length : ℤ) = fileSize g w) : DrawsMask g w draws value := by
  refine ⟨applyAll_drawn hg draws hp value hlen, ?_⟩
  rintro before p after rfl hnr
  obtain ⟨buf, hbuf, hlb, -⟩ := applyAll_drawn hg before
    (fun q hq => hp q (List.mem_append_left _ hq)) value hlen
  have hp0 : p.Draws g w := hp p (by simp)
  obtain ⟨buf', hbuf', hkept⟩ := checked_apply_kept hg hp0 hnr (by rw [hlb, hlen])
  exact ⟨buf, buf', hbuf, hbuf', hkept⟩

/-- A disc at the edge of the quad and a rectangle that runs up to it. -/
theorem drawsMask_of_draws_quad :
    DrawsMask ⟨3, 4, 2, 2 * 256⟩ 256 [.circle 1 20 3 1, .rectangle 510 2 0 2 0]
      (List.replicate (4 * 256 * 256) 0) := by
  have hg : Supported 256 ⟨3, 4, 2, 2 * 256⟩ := .quad 3 (by decide) (by decide)
  have hsq : imageWidth ⟨3, 4, 2, 2 * 256⟩ 256 = imageHeight ⟨3, 4, 2, 2 * 256⟩ 256 := by decide
  have hfits : ∀ i j, InImage ⟨3, 4, 2, 2 * 256⟩ 256 i j →
      Fits (j * imageWidth ⟨3, 4, 2, 2 * 256⟩ 256 + i) := by
    rintro i j ⟨h1, h2, h3, h4⟩
    simp only [imageHeight, imageWidth, Fits] at *
    omega
  refine drawsMask_of_draws ⟨3, 4, 2, 2 * 256⟩ 256 (hg.grid (by decide)) _ (fun p hp => ?_) _ (by
    rw [List.length_replicate]; decide)
  have hmem : p = .circle 1 20 3 1 ∨ p = .rectangle 510 2 0 2 0 := by simpa using hp
  rcases hmem with rfl | rfl
  · have hin : (Draw.circle 1 20 3 1).InRange ⟨3, 4, 2, 2 * 256⟩ 256 :=
      ⟨by unfold InImage; decide, by decide⟩
    refine ⟨by decide, ⟨by decide, by decide, fun _ => ⟨by decide, by decide, by decide, ?_⟩⟩,
      hin.reaches hg hsq, fun i j hij _ => hfits i j hij, by decide⟩
    rintro i j ⟨⟨hi, hi'⟩, hj, hj'⟩ -
    have hx := mul_self_nonneg (i - 1)
    have hy := mul_self_nonneg (j - 20)
    have hx' : (i - 1) * (i - 1) ≤ 9 := by nlinarith
    have hy' : (j - 20) * (j - 20) ≤ 9 := by nlinarith
    refine ⟨?_, by decide⟩
    unfold Fits
    omega
  · have hin : (Draw.rectangle 510 2 0 2 0).InRange ⟨3, 4, 2, 2 * 256⟩ 256 := by
      unfold Draw.InRange
      decide
    exact ⟨by decide, ⟨by decide, fun _ _ => by decide⟩, hin.reaches hg hsq,
      fun i j hij _ => hfits i j hij, by decide⟩

/-- The rectangle of one pixel at `MinX = -1` writes in front of the waveform. -/
theorem not_drawsMask_negative :
    ¬ ∀ (g : Geometry) (w : ℤ) (draws : List Draw) (value : List Word), Grid w g →
      (value.length : ℤ) = fileSize g w → DrawsMask g w draws value := by
  intro h
  have hg : Grid 256 ⟨0, 1, 1, 256⟩ := ⟨by decide, by decide, by decide, by decide⟩
  obtain ⟨⟨mask, hmask, -⟩, -⟩ := h ⟨0, 1, 1, 256⟩ 256 [.rectangle (-1) 1 0 1 1]
    (List.replicate (256 * 256) 0) hg (by rw [List.length_replicate]; decide)
  have hrc : Checked.rowsCols ⟨0, 1, 1, 256⟩ = some ⟨256, 256, 1, 1, 256⟩ := by decide
  have hend : int (0 + 1) = some (0 + 1) := by decide
  have hend' : int (-1 + 1) = some (-1 + 1) := by decide
  have helem : Checked.element ⟨256, 256, 1, 1, 256⟩ (-1) 0 = some (-1) := by decide
  generalize List.replicate (256 * 256) (0 : Word) = value at hmask
  rw [Checked.applyAll, List.foldlM_cons] at hmask
  simp only [Checked.apply, Checked.maskRectangle, hrc, hend, hend', helem, Option.bind_eq_bind,
    Option.bind_some, forLoop_single] at hmask
  simp [update] at hmask

end ADTimePix3.Mask
