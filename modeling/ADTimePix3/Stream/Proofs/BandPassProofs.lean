import ADTimePix3.Stream.BandPass
import Mathlib.Data.List.Forall2

/-!
# The band-pass image and its address: proofs

Two pixels on the same side of `2 ^ 31` are subtracted exactly. On different sides the signed difference is off by
`2 ^ 32`, so it overflows exactly when the exact one is an `int32_t`.
-/

namespace ADTimePix3.Stream.BandPass

open Img (toInt32 PixelFormat)
open MachineInt (Fits int)

variable {clipDiff : Bool} {a b n : ℕ} {d : ℤ} {s : Slots} {settings : DiffSettings} {arith : ℤ → Option ℤ}
  {safe : Bool → ℕ → ℕ → Prop} {pT0 pT1 : SourceArray} {t0 t1 : List ℕ}

/-! ## One pixel -/

/-- A pixel is computed, and it is right. -/
def PixelDone (arith : ℤ → Option ℤ) (clipDiff : Bool) (a b : ℕ) : Prop :=
  ∃ d, diffPixel arith clipDiff a b = some d ∧ PixelRight clipDiff a b d

/-- Where an overflow has no result: on different sides of `2 ^ 31` either the subtraction overflows, or its value
is on the wrong side of zero and the exact one is no `int32_t`. -/
theorem pixelDone_int_iff (ha : a < 2 ^ 32) (hb : b < 2 ^ 32) :
    PixelDone int clipDiff a b ↔ PixelSafe clipDiff a b := by
  by_cases hfits : Fits (toInt32 a - toInt32 b)
  · have hsub : int (toInt32 a - toInt32 b) = some (toInt32 a - toInt32 b) := MachineInt.int_of_fits hfits
    unfold PixelDone diffPixel PixelRight PixelSafe exactPixel
    simp only [hsub, Option.map_some, Option.some.injEq, exists_eq_left']
    unfold Fits toInt32 at *
    cases clipDiff with
    | false =>
      simp only [Bool.false_eq_true, if_false, false_imp_iff, and_true, true_and]
      omega
    | true =>
      simp only [if_true, Bool.true_eq_false, false_and, or_false, true_imp_iff]
      split <;> omega
  · have hsub : int (toInt32 a - toInt32 b) = none := if_neg hfits
    unfold PixelDone diffPixel PixelSafe
    simp only [hsub, Option.map_none, reduceCtorEq, false_and, exists_false, false_iff]
    unfold Fits toInt32 at *
    omega

theorem pixelDone_wrap_iff (ha : a < 2 ^ 32) (hb : b < 2 ^ 32) :
    PixelDone wrap clipDiff a b ↔ PixelSafeWrapped clipDiff a b := by
  unfold PixelDone diffPixel wrap PixelRight PixelSafeWrapped Fits exactPixel
  simp only [Option.map_some, Option.some.injEq, exists_eq_left']
  cases clipDiff with
  | false =>
    simp only [Bool.false_eq_true, if_false, false_imp_iff, and_true, true_or, iff_true]
    unfold toInt32
    omega
  | true =>
    simp only [if_true, Bool.true_eq_false, false_or, true_imp_iff]
    unfold toInt32
    split <;> omega

/-! ## The loop -/

/-- A list is mapped to related values if every element is. -/
theorem exists_mapM_iff {α β : Type} {f : α → Option β} {R : α → β → Prop} (l : List α) :
    (∃ ds, l.mapM f = some ds ∧ List.Forall₂ R l ds) ↔ ∀ x ∈ l, ∃ d, f x = some d ∧ R x d := by
  induction l with
  | nil => simp
  | cons x l ih =>
    rw [List.forall_mem_cons, ← ih]
    constructor
    · rintro ⟨ds, hds, hR⟩
      rw [List.mapM_cons] at hds
      simp only [Option.bind_eq_bind, Option.bind_eq_some_iff] at hds
      obtain ⟨d, hd, es, hes, heq⟩ := hds
      obtain rfl := Option.some.inj heq
      obtain ⟨hxd, hle⟩ := List.forall₂_cons.mp hR
      exact ⟨⟨d, hd, hxd⟩, es, hes, hle⟩
    · rintro ⟨⟨d, hd, hxd⟩, es, hes, hle⟩
      refine ⟨d :: es, ?_, List.Forall₂.cons hxd hle⟩
      rw [List.mapM_cons, hd, hes]
      rfl

theorem mapM_congr {α β : Type} {f g : α → Option β} {l : List α} (h : ∀ x ∈ l, f x = g x) :
    l.mapM f = l.mapM g := by
  induction l with
  | nil => rfl
  | cons x l ih =>
    rw [List.mapM_cons, List.mapM_cons, h x List.mem_cons_self, ih fun y hy => h y (List.mem_cons_of_mem x hy)]

/-- In arrays that have as many pixels as the loop counts, the loop goes through the pairs of pixels. -/
theorem diffPixels_eq (h0 : t0.length = n) (h1 : t1.length = n) :
    diffPixels arith clipDiff n t0 t1 = (t0.zip t1).mapM fun p => diffPixel arith clipDiff p.1 p.2 := by
  have hzip : t0.zip t1 = (List.range n).map fun i => (t0.getD i 0, t1.getD i 0) := by
    apply List.ext_getElem
    · simp [h0, h1]
    · intro i hi hi'
      rw [List.length_zip, h0, h1, Nat.min_self] at hi
      simp [List.getElem_zip, h0, h1, hi]
  rw [hzip, List.mapM_map, diffPixels]
  refine mapM_congr fun i hi => ?_
  have hlt := List.mem_range.mp hi
  have ht0 : t0[i]? = some (t0.getD i 0) := by
    rw [List.getElem?_eq_getElem (by omega), List.getD_eq_getElem _ _ (by omega)]
  have ht1 : t1[i]? = some (t1.getD i 0) := by
    rw [List.getElem?_eq_getElem (by omega), List.getD_eq_getElem _ _ (by omega)]
  rw [ht0, ht1]
  rfl

/-! ## The checks before the allocation -/

/-- What is known of the two arrays once the checks are passed. -/
structure Checked (s : Slots) (pT0 pT1 : SourceArray) (t0 t1 : List ℕ) : Prop where
  slot0 : s.pT0 = some pT0
  slot1 : s.pT1 = some pT1
  data0 : pT0.pData = some t0
  data1 : pT1.pData = some t1
  dims_eq : pT0.dims = pT1.dims

theorem checked_of_sources (h : sources settings s = some (pT0, pT1, t0, t1)) : Checked s pT0 pT1 t0 t1 := by
  unfold sources at h
  split_ifs at h with hboth
  split at h
  · rename_i q0 q1 hq0 hq1
    split at h
    · rename_i x0 x1 hx0 hx1
      split_ifs at h with hframe hdims
      obtain ⟨rfl, rfl, rfl, rfl⟩ : q0 = pT0 ∧ q1 = pT1 ∧ x0 = t0 ∧ x1 = t1 := by simpa using h
      exact ⟨hq0, hq1, hx0, hx1, by tauto⟩
    · cases h
  · cases h

theorem Checked.length_eq (h : Checked s pT0 pT1 t0 t1) :
    t0.length = pT0.dims.prod ∧ t1.length = pT0.dims.prod := by
  refine ⟨pT0.length_eq t0 h.data0, ?_⟩
  rw [h.dims_eq]
  exact pT1.length_eq t1 h.data1

/-- Every pixel has 32 bits at most. -/
theorem Checked.pixel_lt (h : Checked s pT0 pT1 t0 t1) : ∀ p ∈ t0.zip t1, p.1 < 2 ^ 32 ∧ p.2 < 2 ^ 32 := by
  have hbits : ∀ format : PixelFormat, 2 ^ (8 * bytesPerPixel format) ≤ 2 ^ 32 := by
    intro format
    cases format <;> decide
  rintro ⟨a, b⟩ hp
  obtain ⟨ha, hb⟩ := List.of_mem_zip hp
  exact ⟨lt_of_lt_of_le (pT0.pixel_lt t0 h.data0 a ha) (hbits _),
    lt_of_lt_of_le (pT1.pixel_lt t1 h.data1 b hb) (hbits _)⟩

/-! ## The function -/

theorem emit_of_none (h : sources settings s = none) :
    emitPreviewThresholdDiff arith settings s = some ⟨false, s⟩ := by
  simp only [emitPreviewThresholdDiff, h]

/-- Behind the checks, where the allocation fails or the types differ, the address of the difference is empty. -/
theorem emit_of_fail (h : sources settings s = some (pT0, pT1, t0, t1))
    (hfail : ¬ (settings.alloc ∧ pT0.dataType = pT1.dataType)) :
    emitPreviewThresholdDiff arith settings s = some ⟨false, { s with pDiff := none }⟩ := by
  simp only [emitPreviewThresholdDiff, h]
  by_cases halloc : settings.alloc = true
  · have htype : pT0.dataType ≠ pT1.dataType := fun htype => hfail ⟨halloc, htype⟩
    simp [halloc, htype]
  · simp [halloc]

theorem emit_of_pass (h : sources settings s = some (pT0, pT1, t0, t1))
    (hpass : settings.alloc ∧ pT0.dataType = pT1.dataType) :
    emitPreviewThresholdDiff arith settings s =
      (diffPixels arith settings.clipDiff pT0.dims.prod t0 t1).map fun data =>
        ⟨true,
          { s with
            pDiff := some ⟨pT0.dims, pT0.uniqueId, data, settings.clipDiff⟩
            lastDiffT0Frame := pT0.uniqueId }⟩ := by
  simp only [emitPreviewThresholdDiff, h, hpass.1, hpass.2, Bool.not_true, Bool.false_eq_true, if_false, if_true]

/-- A difference is emitted and right exactly when all pairs of pixels are done. -/
theorem diffRight_of_pass (h : sources settings s = some (pT0, pT1, t0, t1))
    (hpass : settings.alloc ∧ pT0.dataType = pT1.dataType) :
    DiffRight arith settings s ↔ ∀ p ∈ t0.zip t1, PixelDone arith settings.clipDiff p.1 p.2 := by
  have hchecked := checked_of_sources h
  obtain ⟨hlen0, hlen1⟩ := hchecked.length_eq
  have hpixels := exists_mapM_iff (f := fun p : ℕ × ℕ => diffPixel arith settings.clipDiff p.1 p.2)
    (R := fun p d => PixelRight settings.clipDiff p.1 p.2 d) (t0.zip t1)
  unfold PixelDone
  rw [← hpixels]
  unfold DiffRight
  rw [emit_of_pass h hpass, diffPixels_eq hlen0 hlen1]
  constructor
  · rintro ⟨r, hr, hdiff⟩
    obtain ⟨data, hdata, rfl⟩ := Option.map_eq_some_iff.mp hr
    rw [if_pos rfl] at hdiff
    obtain ⟨q0, q1, x0, x1, diff, hq0, hq1, hx0, hx1, hslot, hdiff⟩ := hdiff
    obtain rfl := Option.some.inj (hchecked.slot0.symm.trans hq0)
    obtain rfl := Option.some.inj (hchecked.slot1.symm.trans hq1)
    obtain rfl := Option.some.inj (hchecked.data0.symm.trans hx0)
    obtain rfl := Option.some.inj (hchecked.data1.symm.trans hx1)
    obtain rfl := Option.some.inj hslot
    exact ⟨data, hdata, hdiff.pixels⟩
  · rintro ⟨data, hdata, hright⟩
    rw [hdata]
    refine ⟨_, rfl, ?_⟩
    rw [if_pos rfl]
    refine ⟨pT0, pT1, t0, t1, _, hchecked.slot0, hchecked.slot1, hchecked.data0, hchecked.data1, rfl,
      ⟨rfl, hchecked.dims_eq⟩, hright, ?_⟩
    show data.length = pT0.dims.prod
    rw [← hright.length_eq, List.length_zip, hlen0, hlen1, Nat.min_self]

/-- The function does what is expected if and only if nothing fails behind the release of the old difference, and
the pixels are safe. -/
theorem diffRight_iff_of_pixels (hsafe : ∀ a b, a < 2 ^ 32 → b < 2 ^ 32 →
    (PixelDone arith settings.clipDiff a b ↔ safe settings.clipDiff a b)) :
    DiffRight arith settings s ↔ Harmless safe settings s := by
  cases hsources : sources settings s with
  | none =>
    constructor
    · intro _ q0 q1 x0 x1 h
      rw [hsources] at h
      cases h
    · intro _
      exact ⟨⟨false, s⟩, emit_of_none hsources, rfl, rfl⟩
  | some found =>
    obtain ⟨pT0, pT1, t0, t1⟩ := found
    have hharmless : Harmless safe settings s ↔
        if settings.alloc ∧ pT0.dataType = pT1.dataType then ∀ p ∈ t0.zip t1, safe settings.clipDiff p.1 p.2
        else s.pDiff = none := by
      constructor
      · intro h
        exact h pT0 pT1 t0 t1 hsources
      · intro h q0 q1 x0 x1 hfound
        rw [hsources] at hfound
        obtain ⟨rfl, rfl, rfl, rfl⟩ : pT0 = q0 ∧ pT1 = q1 ∧ t0 = x0 ∧ t1 = x1 := by simpa using hfound
        exact h
    rw [hharmless]
    by_cases hpass : settings.alloc ∧ pT0.dataType = pT1.dataType
    · rw [if_pos hpass, diffRight_of_pass hsources hpass]
      refine forall₂_congr fun p hp => ?_
      obtain ⟨ha, hb⟩ := (checked_of_sources hsources).pixel_lt p hp
      exact hsafe p.1 p.2 ha hb
    · rw [if_neg hpass]
      unfold DiffRight
      rw [emit_of_fail hsources hpass]
      constructor
      · rintro ⟨r, hr, hdiff⟩
        obtain rfl := Option.some.inj hr
        exact hdiff.1.symm
      · intro hnone
        exact ⟨_, rfl, hnone.symm, rfl⟩

/-- `emitPreviewThresholdDiff` emits a right difference or leaves everything as it was exactly when it is harmless:
the first part where an overflow of the subtraction has no result, the second where it wraps. -/
theorem diffRight_iff (settings : DiffSettings) (s : Slots) :
    (DiffRight int settings s ↔ Harmless PixelSafe settings s) ∧
      (DiffRight wrap settings s ↔ Harmless PixelSafeWrapped settings s) :=
  ⟨diffRight_iff_of_pixels fun _ _ ha hb => pixelDone_int_iff ha hb,
    diffRight_iff_of_pixels fun _ _ ha hb => pixelDone_wrap_iff ha hb⟩

/-- The array of an image of one pixel. -/
def onePixel (dataType : PixelFormat) (t : ℕ) (h : t < 2 ^ (8 * bytesPerPixel dataType)) (uniqueId : ℤ) :
    SourceArray where
  dataType := dataType
  dims := [1, 1]
  uniqueId := uniqueId
  pData := some [t]
  length_eq := by simp
  pixel_lt := by simpa using h

/-- Of a pixel of `2 ^ 31` against an empty one nothing is left when the difference is clipped; and an image of
another type takes the old difference away. -/
theorem not_diffRight :
    (∃ s : Slots, s.pT0.bind (·.pData) = some [2 ^ 31] ∧ s.pT1.bind (·.pData) = some [0] ∧
      ¬ DiffRight int ⟨true, true, true⟩ s ∧ ¬ DiffRight wrap ⟨true, true, true⟩ s) ∧
    ∃ s : Slots, s.pDiff.isSome ∧
      emitPreviewThresholdDiff int ⟨true, true, true⟩ s = some ⟨false, { s with pDiff := none }⟩ ∧
      ¬ DiffRight int ⟨true, true, true⟩ s := by
  constructor
  · refine ⟨⟨some (onePixel .uint32 (2 ^ 31) (by decide) 5), some (onePixel .uint32 0 (by decide) 5), none, -1⟩,
      rfl, rfl, fun hright => ?_, fun hright => ?_⟩
    · have hsafe := (diffRight_iff_of_pixels fun _ _ ha hb => pixelDone_int_iff ha hb).mp hright _ _ _ _ rfl
      exact absurd (hsafe (2 ^ 31, 0) (by decide)) (by simp [PixelSafe])
    · have hsafe := (diffRight_iff_of_pixels fun _ _ ha hb => pixelDone_wrap_iff ha hb).mp hright _ _ _ _ rfl
      exact absurd (hsafe (2 ^ 31, 0) (by decide)) (by simp [PixelSafeWrapped, Fits])
  · refine ⟨⟨some (onePixel .uint32 7 (by decide) 5), some (onePixel .uint16 3 (by decide) 5),
      some ⟨[1, 1], 4, [2], true⟩, 4⟩, rfl, rfl, ?_⟩
    rintro ⟨r, hr, hdiff⟩
    obtain rfl := Option.some.inj hr
    exact absurd hdiff.1 (by simp)

/-! ## The pairing model -/

theorem diffPixel_wrap (clipDiff : Bool) (a b : ℕ) :
    diffPixel wrap clipDiff a b = some (Stream.diffPixel clipDiff a b) := rfl

theorem diffPixels_wrap (h0 : t0.length = n) (h1 : t1.length = n) :
    diffPixels wrap clipDiff n t0 t1 = some (List.zipWith (Stream.diffPixel clipDiff) t0 t1) := by
  have hzip : List.zipWith (Stream.diffPixel clipDiff) t0 t1 =
      (t0.zip t1).map fun p => Stream.diffPixel clipDiff p.1 p.2 := by
    rw [List.zip, List.map_zipWith]
  rw [diffPixels_eq h0 h1, hzip]
  generalize t0.zip t1 = l
  induction l with
  | nil => rfl
  | cons p l ih =>
    rw [List.mapM_cons, diffPixel_wrap, ih]
    rfl

section Pairing

variable {p : Pairing} {im0 im1 : Image}

theorem Represents.dims_eq_iff (h0 : Represents pT0 im0) (h1 : Represents pT1 im1) :
    pT0.dims = pT1.dims ↔ im0.width = im1.width ∧ im0.height = im1.height := by
  have hn0 := h0.dims_nonneg
  have hn1 := h1.dims_nonneg
  rw [h0.dims_eq, h1.dims_eq]
  simp only [List.cons.injEq, and_true]
  omega

theorem sources_of_represents (hs0 : s.pT0 = some pT0) (hs1 : s.pT1 = some pT1) (h0 : Represents pT0 im0)
    (h1 : Represents pT1 im1) (hlast : s.lastDiffT0Frame = p.lastDiffT0Frame) :
    sources settings s =
      if settings.bothCounters = true ∧ im0.uniqueId ≠ p.lastDiffT0Frame ∧ im0.width = im1.width ∧
          im0.height = im1.height then
        some (pT0, pT1, im0.pixels, im1.pixels)
      else none := by
  have hlen0 : pT0.dims.length = 2 := by rw [h0.dims_eq]; rfl
  have hlen1 : pT1.dims.length = 2 := by rw [h1.dims_eq]; rfl
  unfold sources
  simp only [hs0, hs1, h0.pData_eq, h1.pData_eq, h0.uniqueId_eq, hlast, hlen0, hlen1, ne_eq, not_true,
    false_or, h0.dims_eq_iff h1]
  cases settings.bothCounters with
  | false => simp
  | true =>
    by_cases hframe : im0.uniqueId = p.lastDiffT0Frame
    · simp [hframe]
    · by_cases hdims : im0.width = im1.width ∧ im0.height = im1.height
      · simp [hframe, hdims]
      · simp [hframe, hdims]

/-- With the arrays of two images on its addresses, the function emits what the pairing model says, with the
pixels it says. -/
theorem emit_eq_pairing (hs0 : s.pT0 = some pT0) (hs1 : s.pT1 = some pT1) (hp0 : p.pT0 = some im0)
    (hp1 : p.pT1 = some im1) (h0 : Represents pT0 im0) (h1 : Represents pT1 im1)
    (hlast : s.lastDiffT0Frame = p.lastDiffT0Frame) :
    ∃ r, emitPreviewThresholdDiff wrap settings s = some r ∧
      (r.emitted = true ↔ (Stream.emitPreviewThresholdDiff settings p).isSome) ∧
      ∀ d, Stream.emitPreviewThresholdDiff settings p = some d →
        r.slots.pDiff = some ⟨pT0.dims, d.t0.uniqueId, d.data, d.clipped⟩ := by
  have hsources : sources settings s = _ := sources_of_represents hs0 hs1 h0 h1 hlast
  by_cases hready : settings.bothCounters = true ∧ im0.uniqueId ≠ p.lastDiffT0Frame ∧ im0.width = im1.width ∧
      im0.height = im1.height
  · rw [if_pos hready] at hsources
    obtain ⟨hboth, hframe, hwidth, hheight⟩ := hready
    by_cases hpass : settings.alloc ∧ pT0.dataType = pT1.dataType
    · obtain ⟨hlen0, hlen1⟩ := (checked_of_sources hsources).length_eq
      have htype : im0.dataType = im1.dataType := by rw [← h0.dataType_eq, ← h1.dataType_eq, hpass.2]
      have hpair : Stream.emitPreviewThresholdDiff settings p = some (thresholdDiff settings.clipDiff im0 im1) := by
        simp [Stream.emitPreviewThresholdDiff, hp0, hp1, hboth, hframe, hwidth, hheight, hpass.1, htype]
      refine ⟨_, by rw [emit_of_pass hsources hpass, diffPixels_wrap hlen0 hlen1]; rfl, ?_, ?_⟩
      · simp [hpair]
      · intro d hd
        obtain rfl := Option.some.inj (hpair.symm.trans hd)
        show some (DiffArray.mk _ _ _ _) = _
        rw [h0.uniqueId_eq]
        rfl
    · have hpair : Stream.emitPreviewThresholdDiff settings p = none := by
        rw [h0.dataType_eq, h1.dataType_eq] at hpass
        simp only [Stream.emitPreviewThresholdDiff, hp0, hp1]
        rw [if_neg]
        simp only [Bool.and_eq_true, beq_iff_eq]
        tauto
      refine ⟨_, emit_of_fail hsources hpass, by simp [hpair], ?_⟩
      intro d hd
      rw [hpair] at hd
      cases hd
  · rw [if_neg hready] at hsources
    have hpair : Stream.emitPreviewThresholdDiff settings p = none := by
      simp only [Stream.emitPreviewThresholdDiff, hp0, hp1]
      rw [if_neg]
      simp only [Bool.and_eq_true, beq_iff_eq, bne_iff_ne]
      tauto
    refine ⟨_, emit_of_none hsources, by simp [hpair], ?_⟩
    intro d hd
    rw [hpair] at hd
    cases hd

end Pairing

end ADTimePix3.Stream.BandPass
