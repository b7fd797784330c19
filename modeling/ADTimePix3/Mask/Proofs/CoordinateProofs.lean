import ADTimePix3.Mask.Proofs.LayoutProofs

/-!
# `pelIndex` and `bpc2ImgIndex` as maps between file and image

`pelIndex` numbers the pixels of every supported geometry without gaps or repetitions. `bpc2ImgIndex` is
its inverse, up to chip 0 of the LEFT quad, whose columns it reverses.
-/

namespace ADTimePix3.Mask

open Square

/-! ## Chip 0 of the LEFT quad -/

def LeftQuad (g : Geometry) : Prop := g.numChips = 4 ∧ g.detOrientation = 3

instance (g : Geometry) : Decidable (LeftQuad g) := inferInstanceAs (Decidable (_ ∧ _))

theorem leftChip0_iff (g : Geometry) (c : ℤ) : LeftChip0 g c ↔ LeftQuad g ∧ c = 0 :=
  and_assoc.symm

theorem bpcLayout_sym_of_not {g : Geometry} {c : ℤ} (h : ¬ LeftChip0 g c) :
    (bpcLayout g).sym c = (layout g).sym c := if_neg h

theorem bpcLayout_sym_left {g : Geometry} {c : ℤ} (h : LeftChip0 g c) :
    (bpcLayout g).sym c = ⟨true, true, false⟩ := if_pos h

theorem layout_sym_left {g : Geometry} {w c : ℤ} (hg : Supported w g) (h : LeftChip0 g c) :
    (layout g).sym c = ⟨true, true, true⟩ := by
  obtain ⟨h4, h3, rfl⟩ := h
  cases hg with
  | single o _ _ => simp at h4
  | quad o _ _ =>
    simp only at h3
    subst h3
    simp [layout_quad, Mosaic.rotate, quadUp, orientSym, Sym.comp]
  | mosaic8 x y _ _ => simp at h4

/-- The tile of chip 0 in the LEFT quad is the upper right one. -/
theorem layout_chipAt_left {g : Geometry} {w : ℤ} (hg : Supported w g) (h : LeftQuad g)
    {t : ℤ × ℤ} (ht : InRect (layout g).cols (layout g).rows t) :
    (layout g).chipAt t = 0 ↔ t.1 ≠ 0 ∧ t.2 = 0 := by
  obtain ⟨h4, h3⟩ := h
  cases hg with
  | single o _ _ => simp at h4
  | quad o _ _ =>
    simp only at h3
    subst h3
    rw [layout_quad] at ht ⊢
    obtain ⟨X, Y⟩ := t
    obtain ⟨⟨hX, hX'⟩, hY, hY'⟩ := ht
    simp only [Mosaic.rotate, quadUp] at hX hX' hY hY'
    interval_cases X <;> interval_cases Y <;>
      simp [Mosaic.rotate, quadUp, quadChip, orientSym, Sym.inv, Sym.act, mirror]
  | mosaic8 x y _ _ => simp at h4

/-- What is left of a pixel when one layout writes it and the other reads it, inside a chip. -/
theorem sym_inv_bpc_act {g : Geometry} {w c : ℤ} (hg : Supported w g) (p : ℤ × ℤ) :
    ((layout g).sym c).inv.act w (((bpcLayout g).sym c).act w p) =
      if LeftChip0 g c then (w - 1 - p.1, p.2) else p := by
  split_ifs with h
  · rw [layout_sym_left hg h, bpcLayout_sym_left h]
    simp [Sym.inv, Sym.act, mirror]
  · rw [bpcLayout_sym_of_not h, Sym.inv_act_act]

theorem bpc_act_sym_inv {g : Geometry} {w c : ℤ} (hg : Supported w g) (p : ℤ × ℤ) :
    ((bpcLayout g).sym c).act w (((layout g).sym c).inv.act w p) =
      if LeftChip0 g c then (p.1, w - 1 - p.2) else p := by
  split_ifs with h
  · rw [layout_sym_left hg h, bpcLayout_sym_left h]
    simp [Sym.inv, Sym.act, mirror]
  · rw [bpcLayout_sym_of_not h, Sym.act_inv_act]

/-- The first chip of the file holds the bytes below `w * w`. -/
theorem linear_lt_iff {w c : ℤ} {p : ℤ × ℤ} (hc : 0 ≤ c) (hp : InRect w w p) :
    linear w c p < w * w ↔ c = 0 := by
  have hl := mul_add_range hp.2 hp.1
  exact mul_add_lt_iff hc hl

/-- Column and row of a file byte inside its chip. -/
theorem linear_emod {w c : ℤ} {p : ℤ × ℤ} (hp : InRect w w p) : linear w c p % w = p.1 := by
  have h : linear w c p = (c * w + p.2) * w + p.1 := by
    simp only [linear]
    ring
  rw [h, mul_add_emod _ hp.1.1 hp.1.2]

/-! ## The two round trips -/

theorem pelIndex_of_bpc2ImgIndex {g : Geometry} {w k : ℤ} (hw : 0 < w) (hg : Supported w g)
    (h0 : 0 ≤ k) (hk : k < fileSize g w) :
    ∃ i j, InImage g w i j ∧ bpc2ImgIndex g k w = j * imageWidth g w + i ∧
      pelIndex g i j = if LeftQuad g ∧ k < w * w then (k - k % w) + (w - 1 - k % w) else k := by
  have hk' := hk
  rw [← (layout_size hg).1] at hk'
  have hmem : InRect ((layout g).cols * w) ((layout g).rows * w) ((bpcLayout g).pixelOf w k) :=
    (bpcLayout g).pixelOf_mem hw h0 hk'
  have hin : InImage g w ((bpcLayout g).pixelOf w k).1 ((bpcLayout g).pixelOf w k).2 :=
    (inImage_iff hg).mpr hmem
  refine ⟨((bpcLayout g).pixelOf w k).1, ((bpcLayout g).pixelOf w k).2, hin,
    bpc2ImgIndex_eq_pixelOf hw hg h0 hk, ?_⟩
  rw [pelIndex_eq_indexOf hw hg hin, Prod.mk.eta]
  obtain ⟨c, p, ⟨hc, hc'⟩, hp, rfl⟩ := exists_linear hw h0 hk'
  have hround : (layout g).chipAt ((layout g).tileOf c) = c := (layout g).chipAt_tileOf c hc hc'
  have htile : (bpcLayout g).tileOf c = (layout g).tileOf c := rfl
  rw [Mosaic.pixelOf_linear _ hp, Mosaic.indexOf_place _ (Sym.act_mem _ hp), htile, hround,
    sym_inv_bpc_act hg, linear_emod hp]
  simp only [linear_lt_iff hc hp, leftChip0_iff]
  split_ifs
  · simp only [linear]
    ring
  · rfl

theorem bpc2ImgIndex_of_pelIndex {g : Geometry} {w i j : ℤ} (hw : 0 < w) (hg : Supported w g)
    (hij : InImage g w i j) :
    bpc2ImgIndex g (pelIndex g i j) w =
      if LeftQuad g ∧ w ≤ i ∧ j < w then (w - 1 - j) * imageWidth g w + i
      else j * imageWidth g w + i := by
  have hrect := (inImage_iff hg).mp hij
  have hidx := (layout g).indexOf_mem hw hrect
  rw [(layout_size hg).1] at hidx
  rw [pelIndex_eq_indexOf hw hg hij, bpc2ImgIndex_eq_pixelOf hw hg hidx.1 hidx.2]
  obtain ⟨t, p, ht, hp, hpl⟩ := exists_place hw hrect
  have htile : (bpcLayout g).tileOf ((layout g).chipAt t) = t := (layout g).tileOf_chipAt t ht
  rw [hpl, Mosaic.indexOf_place _ hp, Mosaic.pixelOf_linear _ (Sym.act_mem _ hp), htile,
    bpc_act_sym_inv hg]
  obtain ⟨rfl, rfl⟩ := Prod.mk.inj hpl
  have hcond : LeftChip0 g ((layout g).chipAt t) ↔
      LeftQuad g ∧ w ≤ t.1 * w + p.1 ∧ t.2 * w + p.2 < w := by
    rw [leftChip0_iff]
    refine and_congr_right fun hl => ?_
    rw [layout_chipAt_left hg hl ht]
    rw [← not_lt, mul_add_lt_iff ht.1.1 hp.1, mul_add_lt_iff ht.2.1 hp.2]
  simp only [hcond]
  split_ifs with h
  · have hY : t.2 = 0 := (mul_add_lt_iff ht.2.1 hp.2).mp h.2.2
    simp only [place, hY]
    ring
  · rfl

/-- **Where the two maps are inverse to each other**: everywhere, but on chip 0 of the LEFT quad, where
each round trip reverses a coordinate inside the chip. -/
theorem bpc2ImgIndex_pelIndex_round_trip (g : Geometry) (w : ℤ) (hw : 1 ≤ w) (hg : Supported w g) :
    (∀ k, 0 ≤ k → k < fileSize g w →
      ∃ i j, InImage g w i j ∧ bpc2ImgIndex g k w = j * imageWidth g w + i ∧
        pelIndex g i j =
          if LeftQuad g ∧ k < w * w then (k - k % w) + (w - 1 - k % w) else k) ∧
    ∀ i j, InImage g w i j →
      bpc2ImgIndex g (pelIndex g i j) w =
        if LeftQuad g ∧ w ≤ i ∧ j < w then (w - 1 - j) * imageWidth g w + i
        else j * imageWidth g w + i :=
  ⟨fun _ h0 hk => pelIndex_of_bpc2ImgIndex hw hg h0 hk,
    fun _ _ hij => bpc2ImgIndex_of_pelIndex hw hg hij⟩

theorem bpc2ImgIndex_pelIndex_round_trip_left2 :
    (∀ k, 0 ≤ k → k < fileSize ⟨3, 4, 2, 2 * 2⟩ 2 →
      ∃ i j, InImage ⟨3, 4, 2, 2 * 2⟩ 2 i j ∧
        bpc2ImgIndex ⟨3, 4, 2, 2 * 2⟩ k 2 = j * imageWidth ⟨3, 4, 2, 2 * 2⟩ 2 + i ∧
        pelIndex ⟨3, 4, 2, 2 * 2⟩ i j =
          if LeftQuad ⟨3, 4, 2, 2 * 2⟩ ∧ k < 2 * 2 then (k - k % 2) + (2 - 1 - k % 2) else k) ∧
    ∀ i j, InImage ⟨3, 4, 2, 2 * 2⟩ 2 i j →
      bpc2ImgIndex ⟨3, 4, 2, 2 * 2⟩ (pelIndex ⟨3, 4, 2, 2 * 2⟩ i j) 2 =
        if LeftQuad ⟨3, 4, 2, 2 * 2⟩ ∧ 2 ≤ i ∧ j < 2 then
          (2 - 1 - j) * imageWidth ⟨3, 4, 2, 2 * 2⟩ 2 + i
        else j * imageWidth ⟨3, 4, 2, 2 * 2⟩ 2 + i :=
  bpc2ImgIndex_pelIndex_round_trip ⟨3, 4, 2, 2 * 2⟩ 2 (by decide)
    (.quad 3 (by decide) (by decide))

/-! ## `pelIndex` as a numbering -/

/-- **`pelIndex` is a bijection** between the pixels of the image and the bytes of the BPC file. -/
theorem pelIndex_bijOn (g : Geometry) (w : ℤ) (hw : 1 ≤ w) (hg : Supported w g) :
    Set.BijOn (fun q : ℤ × ℤ => pelIndex g q.1 q.2) {q | InImage g w q.1 q.2}
      {k | 0 ≤ k ∧ k < fileSize g w} := by
  have hbij := (layout g).indexOf_bijOn hw
  rw [(layout_size hg).1] at hbij
  have hset : {q : ℤ × ℤ | InImage g w q.1 q.2} =
      {q | InRect ((layout g).cols * w) ((layout g).rows * w) q} := by
    ext q
    exact inImage_iff hg
  rw [hset]
  refine hbij.congr fun q hq => ?_
  exact (pelIndex_eq_indexOf hw hg ((inImage_iff hg).mpr hq)).symm

theorem pelIndex_bijOn_mosaic42 :
    Set.BijOn (fun q : ℤ × ℤ => pelIndex ⟨0, 8, 4, 4 * 3⟩ q.1 q.2)
      {q | InImage ⟨0, 8, 4, 4 * 3⟩ 3 q.1 q.2} {k | 0 ≤ k ∧ k < fileSize ⟨0, 8, 4, 4 * 3⟩ 3} :=
  pelIndex_bijOn ⟨0, 8, 4, 4 * 3⟩ 3 (by decide) (.mosaic8 4 2 (by decide) (by decide))

end ADTimePix3.Mask
