import ADTimePix3.Serval.Proofs.PixelConfigProofs
import Mathlib.Algebra.BigOperators.Ring.Finset

/-!
# The waveform PixelConfigDiff: proofs

The loops visit pixel `(i, j)` for `j < ROWS` and `i < COLS` with stride `COLS`. On a square image that is the
image, row by row. On a mosaic the element of a pixel is that of another one, unless it is in the first row.

Main result: `selfConsistent_iff`.
-/

namespace ADTimePix3.Serval

open Mask Loops Buffers Square IndexCounts

variable {g : Geometry} {bpcBuf : List Byte} {replies : ℕ → Reply} {nChips k m n : ℕ} {s : Fetch}

/-! ## Sizes -/

/-- Number of chips, width and height of the supported images. -/
theorem supported_sizes (hg : Supported 256 g) :
    (g.numChips = 1 ∧ imageWidth g 256 = 256 ∧ imageHeight g 256 = 256) ∨
    (g.numChips = 4 ∧ imageWidth g 256 = 512 ∧ imageHeight g 256 = 512) ∨
    (g.numChips = 8 ∧ imageWidth g 256 = 256 ∧ imageHeight g 256 = 2048) ∨
    (g.numChips = 8 ∧ imageWidth g 256 = 512 ∧ imageHeight g 256 = 1024) ∨
    (g.numChips = 8 ∧ imageWidth g 256 = 1024 ∧ imageHeight g 256 = 512) ∨
    (g.numChips = 8 ∧ imageWidth g 256 = 2048 ∧ imageHeight g 256 = 256) := by
  cases hg with
  | single o _ _ => exact .inl (by simp [imageWidth, imageHeight])
  | quad o _ _ =>
    have h : (4 : ℤ).tdiv 2 = 2 := rfl
    exact .inr (.inl (by simp [imageWidth, imageHeight, h]))
  | mosaic8 x y hx h8 =>
    have hy : (8 : ℤ).tdiv x = y := by rw [← h8]; exact Int.mul_tdiv_cancel_left y hx.ne'
    have hx8 : x ≤ 8 := by
      have hy0 : 0 < y := by
        by_contra hle
        nlinarith
      nlinarith
    simp only [imageWidth, imageHeight, hy, true_and]
    interval_cases x <;> omega

/-- Behind the edge of a mosaic there is no byte. -/
theorem pelIndex_outside (hg : Supported 256 g) (h8 : g.numChips = 8) {i j : ℤ} (hi : 0 ≤ i) (hj : 0 ≤ j)
    (hout : ¬ InImage g 256 i j) : pelIndex g i j = -1 := by
  cases hg with
  | single o _ _ => simp at h8
  | quad o _ _ => simp at h8
  | mosaic8 x y hx hxy =>
    have hy : (8 : ℤ).tdiv x = y := by rw [← hxy]; exact Int.mul_tdiv_cancel_left y hx.ne'
    have hbeyond : x ≤ i / 256 ∨ y ≤ j / 256 := by
      simp only [InImage, imageWidth, imageHeight, hy] at hout
      omega
    simp [pelIndex, findChip, rowsCols_grid hx hxy, Int.tdiv_eq_ediv_of_nonneg hi,
      Int.tdiv_eq_ediv_of_nonneg hj, hxy, hbeyond]

/-- The first pixels of a mosaic belong to its first two chips. -/
theorem pelIndex_firstRow (hg : Supported 256 g) (h8 : g.numChips = 8) {i : ℤ} (hi : 0 ≤ i) (hi' : i < 512)
    (hin : InImage g 256 i 0) : pelIndex g i 0 < 131072 := by
  cases hg with
  | single o _ _ => simp at h8
  | quad o _ _ => simp at h8
  | mosaic8 x y hx hxy =>
    have hy : (8 : ℤ).tdiv x = y := by rw [← hxy]; exact Int.mul_tdiv_cancel_left y hx.ne'
    have hwithin : ¬ (x ≤ i / 256 ∨ y ≤ 0) := by
      simp only [InImage, imageWidth, imageHeight, hy] at hin
      omega
    simp [pelIndex, findChip, rowsCols_grid hx hxy, Int.tdiv_eq_ediv_of_nonneg hi, hxy, hwithin]
    omega

/-! ## One element -/

/-- What the loops put into the element of a pixel whose byte has index `k`. -/
def shown (bpcBuf : List Byte) (replies : ℕ → Reply) (k : ℕ) : ℤ :=
  match (replies (k / kPixelConfigBytes)).decoded, bpcBuf[k]? with
  | some decoded, some b =>
    if k < diffSize then |((decoded.getD (k % kPixelConfigBytes) 0).toNat : ℤ) - b.toNat| else 0
  | _, _ => 0

theorem shown_beyond (hk : diffSize ≤ k) : shown bpcBuf replies k = 0 := by
  have hlt : ¬ k < diffSize := by omega
  unfold shown
  cases (replies (k / kPixelConfigBytes)).decoded with
  | none => rfl
  | some decoded =>
    cases bpcBuf[k]? with
    | none => rfl
    | some b => exact if_neg hlt

theorem diffAt_of_neg {i j : ℤ} (h : pelIndex g i j < 0) : diffAt g bpcBuf nChips s i j = 0 := by
  unfold diffAt
  rw [if_pos (.inl h)]

theorem diffAt_eq_shown (hs : Fetched bpcBuf replies nChips nChips s) {i j : ℤ}
    (hk0 : 0 ≤ pelIndex g i j) (hk : pelIndex g i j < nChips * kPixelConfigBytes) :
    diffAt g bpcBuf nChips s i j = shown bpcBuf replies (pelIndex g i j).toNat := by
  unfold diffAt
  obtain ⟨k, hkk⟩ := Int.eq_ofNat_of_zero_le hk0
  have hdiv : (k : ℤ).tdiv kPixelConfigBytes = (k / kPixelConfigBytes : ℕ) := by
    rw [Int.tdiv_eq_ediv_of_nonneg (by omega), Int.natCast_ediv]
  have hchip : k / kPixelConfigBytes < nChips := by
    rw [Nat.div_lt_iff_lt_mul (by decide)]
    exact_mod_cast hkk ▸ hk
  have hoff : k / kPixelConfigBytes * kPixelConfigBytes ≤ k := Nat.div_mul_le_self _ _
  simp only [hkk, Int.toNat_natCast, hdiv, hs.staged_length, hs.decoded_length]
  by_cases hL : k < bpcBuf.length
  · by_cases hsize : k < diffSize
    · unfold shown
      rw [if_neg (by omega)]
      cases hdec : (replies (k / kPixelConfigBytes)).decoded with
      | none =>
        have hflag : s.chipDecoded.getD (k / kPixelConfigBytes) false = false := by
          rw [← Bool.not_eq_true, hs.decoded_iff _ hchip]
          rintro ⟨-, ⟨decoded, hsome⟩, -⟩
          rw [hdec] at hsome
          cases hsome
        rw [if_pos (.inr (.inr (.inr hflag)))]
      | some decoded =>
        have hflag : s.chipDecoded.getD (k / kPixelConfigBytes) false = true :=
          (hs.decoded_iff _ hchip).mpr ⟨hchip, ⟨decoded, hdec⟩, by omega⟩
        have hstaged := hs.staged_eq k hsize hchip (by omega) decoded hdec
        rw [if_neg, hstaged, List.getElem?_eq_getElem hL, List.getD_eq_getElem _ _ hL]
        · simp only [if_pos hsize]
          split
          · rw [abs_of_pos (by omega)]
          · rw [abs_of_nonpos (by omega)]
            omega
        · rintro (h | h | h | h)
          · exact absurd h (not_lt.mpr (Int.natCast_nonneg _))
          · omega
          · omega
          · rw [hflag] at h
            cases h
    · rw [if_pos (by omega)]
      exact (shown_beyond (not_lt.mp hsize)).symm
  · unfold shown
    rw [if_pos (by omega), List.getElem?_eq_none (by omega)]
    cases (replies (k / kPixelConfigBytes)).decoded with
    | none => rfl
    | some decoded => rfl

/-- The element `n` of the waveform. -/
theorem fillDiff_getElem? (hcols : 0 < (rowsCols g).cols) (diff : List ℤ) (hn : n < diff.length) :
    (fillDiff g bpcBuf nChips s diff)[n]? =
      some (if (n : ℤ) / (rowsCols g).cols < (rowsCols g).rows then
        diffAt g bpcBuf nChips s (n % (rowsCols g).cols) (n / (rowsCols g).cols) else 0) := by
  set C := (rowsCols g).cols with hC
  set R := (rowsCols g).rows with hR
  let pos : ℤ × ℤ → ℕ := fun q => (q.1 * C + q.2).toNat
  let val : ℕ → ℤ := fun n => diffAt g bpcBuf nChips s ((n : ℤ) % C) ((n : ℤ) / C)
  let pixels := (forRange 0 R).flatMap fun j => (forRange 0 C).map fun i => (j, i)
  have hmem : ∀ q, q ∈ pixels ↔ (0 ≤ q.1 ∧ q.1 < R) ∧ 0 ≤ q.2 ∧ q.2 < C := by
    rintro ⟨j, i⟩
    simp [pixels, mem_forRange]
  have hpos : ∀ q ∈ pixels, ((pos q : ℕ) : ℤ) = q.1 * C + q.2 := by
    intro q hq
    obtain ⟨⟨hj, -⟩, hi, -⟩ := (hmem q).mp hq
    have hrow : 0 ≤ q.1 * C := mul_nonneg hj hcols.le
    exact Int.toNat_of_nonneg (by omega)
  have hfill : fillDiff g bpcBuf nChips s diff =
      pixels.foldl (fun v q => v.set (pos q) (val (pos q))) (diff.map fun _ => 0) := by
    have hloop : fillDiff g bpcBuf nChips s diff =
        pixels.foldl (fun v q => if pos q ≥ v.length then v else
          v.set (pos q) (diffAt g bpcBuf nChips s q.2 q.1)) (diff.map fun _ => 0) := by
      simp only [pixels, List.foldl_flatMap, List.foldl_map]
      rfl
    rw [hloop]
    refine List.foldl_ext _ _ _ fun v q hq => ?_
    obtain ⟨-, hi, hi'⟩ := (hmem q).mp hq
    have hval : val (pos q) = diffAt g bpcBuf nChips s q.2 q.1 := by
      simp only [val, hpos q hq, mul_add_ediv q.1 hi hi', mul_add_emod q.1 hi hi']
    rw [hval]
    by_cases hge : pos q ≥ v.length
    · rw [if_pos hge, List.set_eq_of_length_le hge]
    · rw [if_neg hge]
  have hvisit : n ∈ pixels.map pos ↔ (n : ℤ) / C < R := by
    have hdiv := Int.mul_ediv_add_emod (n : ℤ) C
    have hmod0 := Int.emod_nonneg (n : ℤ) hcols.ne'
    have hmod := Int.emod_lt_of_pos (n : ℤ) hcols
    have hq0 : 0 ≤ (n : ℤ) / C := Int.ediv_nonneg (by omega) hcols.le
    rw [List.mem_map]
    constructor
    · rintro ⟨q, hq, hqn⟩
      obtain ⟨⟨-, hj'⟩, hi, hi'⟩ := (hmem q).mp hq
      rw [← hqn, hpos q hq, mul_add_ediv q.1 hi hi']
      exact hj'
    · intro hlt
      have hq : ((n : ℤ) / C, (n : ℤ) % C) ∈ pixels := (hmem _).mpr ⟨⟨hq0, hlt⟩, hmod0, hmod⟩
      refine ⟨_, hq, ?_⟩
      have heq := hpos _ hq
      simp only at heq
      rw [mul_comm, hdiv] at heq
      exact_mod_cast heq
  rw [hfill, getElem?_foldl_set]
  simp only [List.length_map, hn, true_and, hvisit]
  by_cases hlt : (n : ℤ) / C < R
  · rw [if_pos hlt, if_pos hlt]
  · rw [if_neg hlt, if_neg hlt]
    simp [hn]

/-! ## The image -/

instance (g : Geometry) (w i j : ℤ) : Decidable (InImage g w i j) :=
  inferInstanceAs (Decidable (_ ∧ _ ∧ _ ∧ _))

/-- Element `m` of the waveform after the loops: they take it for pixel `m % COLS` of row `m / COLS`. -/
def shownAt (g : Geometry) (bpcBuf : List Byte) (replies : ℕ → Reply) (m : ℕ) : ℤ :=
  let i := (m : ℤ) % imageHeight g 256
  let j := (m : ℤ) / imageHeight g 256
  if InImage g 256 i j then shown bpcBuf replies (pelIndex g i j).toNat else 0

/-- What element `m` of the waveform owes to the pixel it stands for. -/
def dueAt (g : Geometry) (bpcBuf : List Byte) (replies : ℕ → Reply) (m : ℕ) : ℤ :=
  distance bpcBuf replies
    (pelIndex g ((m : ℤ) % imageWidth g 256) ((m : ℤ) / imageWidth g 256)).toNat

/-- Number of pixels of the image. -/
def pixelCount (g : Geometry) : ℕ := g.numChips.toNat * kPixelConfigBytes

section Supported

variable (hg : Supported 256 g)
include hg

theorem pixelCount_eq : (pixelCount g : ℤ) = imageHeight g 256 * imageWidth g 256 := by
  rw [pixelCount, kPixelConfigBytes]
  rcases supported_sizes hg with h | h | h | h | h | h <;> obtain ⟨hn, hW, hH⟩ := h <;>
    rw [hn, hW, hH] <;> rfl

/-- The pixel of an element. -/
theorem inImage_of_lt (hm : m < pixelCount g) :
    InImage g 256 ((m : ℤ) % imageWidth g 256) ((m : ℤ) / imageWidth g 256) := by
  have hcount := pixelCount_eq hg
  obtain ⟨hW, -⟩ := image_pos (by decide) hg
  have hle : (m : ℤ) < imageHeight g 256 * imageWidth g 256 := by omega
  obtain ⟨hq, hr⟩ := ediv_emod_range hW (by omega) hle
  exact ⟨hr.1, hr.2, hq.1, hq.2⟩

theorem fileSize_eq_pixelCount : fileSize g 256 = pixelCount g := by
  rw [fileSize_eq hg, pixelCount_eq hg]

theorem pelIndex_lt {i j : ℤ} (hij : InImage g 256 i j) :
    0 ≤ pelIndex g i j ∧ pelIndex g i j < g.numChips.toNat * kPixelConfigBytes := by
  have hmem := pelIndex_mem (by decide) hg hij
  rw [fileSize_eq_pixelCount hg, pixelCount] at hmem
  exact_mod_cast hmem

/-- Every byte of the detector belongs to a pixel. -/
theorem exists_pixel (hk : k < pixelCount g) : ∃ i j, InImage g 256 i j ∧ pelIndex g i j = k := by
  have hsize := (layout_size hg).1
  rw [fileSize_eq_pixelCount hg] at hsize
  have hk' : (k : ℤ) < (layout g).chips * (256 * 256) := by omega
  have hmem := (layout g).pixelOf_mem (by decide) (by omega) hk'
  have hij : InImage g 256 ((layout g).pixelOf 256 k).1 ((layout g).pixelOf 256 k).2 :=
    (inImage_iff hg).mpr hmem
  refine ⟨_, _, hij, ?_⟩
  rw [pelIndex_eq_indexOf (by decide) hg hij]
  exact (layout g).indexOf_pixelOf (by decide) (by omega) hk'

theorem diffAt_eq_shownAt (hs : Fetched bpcBuf replies g.numChips.toNat g.numChips.toNat s)
    (hm : m < diffSize) :
    (if (m : ℤ) / imageHeight g 256 < imageWidth g 256 then
      diffAt g bpcBuf g.numChips.toNat s (m % imageHeight g 256) (m / imageHeight g 256) else 0) =
      shownAt g bpcBuf replies m := by
  obtain ⟨hW, hH⟩ := image_pos (by decide) hg
  have hi := Int.emod_nonneg (m : ℤ) hH.ne'
  have hj := Int.ediv_nonneg (Int.natCast_nonneg m) hH.le
  simp only [shownAt]
  by_cases hin : InImage g 256 ((m : ℤ) % imageHeight g 256) ((m : ℤ) / imageHeight g 256)
  · obtain ⟨h0, hlt⟩ := pelIndex_lt hg hin
    have hrow : (m : ℤ) / imageHeight g 256 < imageWidth g 256 := by
      have hsize := hin.2.2.2
      unfold diffSize at hm
      rcases supported_sizes hg with h | h | h | h | h | h <;> obtain ⟨-, hW', hH'⟩ := h <;>
        rw [hH'] at hsize ⊢ <;> rw [hW'] <;> omega
    rw [if_pos hin, if_pos hrow, diffAt_eq_shown hs h0 hlt]
  · rw [if_neg hin]
    by_cases hrow : (m : ℤ) / imageHeight g 256 < imageWidth g 256
    · rw [if_pos hrow]
      by_cases h8 : g.numChips = 8
      · exact diffAt_of_neg (by rw [pelIndex_outside hg h8 hi hj hin]; decide)
      · have hmod := Int.emod_lt_of_pos (m : ℤ) hH
        refine absurd ⟨hi, ?_, hj, ?_⟩ hin <;>
          rcases supported_sizes hg with h | h | h | h | h | h <;> omega
    · rw [if_neg hrow]

end Supported

/-! ## The refresh -/

variable {d : Driver} {old : PixelConfig}

theorem readBPCfile_geometry (d : Driver) : (readBPCfile d).1.geometry = d.geometry := by
  unfold readBPCfile
  dsimp only
  split <;> rfl

theorem nChips_eq (hg : Supported 256 g) :
    (if g.numChips < 1 then 1 else g.numChips.toNat) = g.numChips.toNat := by
  rcases supported_sizes hg with h | h | h | h | h | h <;> rw [h.1] <;> rfl

section Refresh

variable (hg : Supported 256 d.geometry)
include hg

/-- What the loop over the chips leaves. -/
theorem refresh_fetched (replies : ℕ → Reply) (old : PixelConfig) : ∃ s,
    Fetched (readBPCfile d).2 replies d.geometry.numChips.toNat d.geometry.numChips.toNat s ∧
      (refreshPixelConfigFromServal d replies old).2.chips = s.chips ∧
      (refreshPixelConfigFromServal d replies old).2.published =
        if (readBPCfile d).2 = [] then old.pixelConfigDiff.1
        else fillDiff d.geometry (readBPCfile d).2 d.geometry.numChips.toNat s
          old.pixelConfigDiff.1 := by
  refine ⟨_, fetchChips_fetched (readBPCfile d).2 d.geometry.numChips.toNat replies old.chips,
    ?_, ?_⟩
  · simp only [refreshPixelConfigFromServal, readBPCfile_geometry, nChips_eq hg]
  · simp only [refreshPixelConfigFromServal, readBPCfile_geometry, nChips_eq hg]
    by_cases hnil : (readBPCfile d).2 = []
    · rw [if_pos hnil, if_neg (by rw [hnil]; simp)]
    · rw [if_neg hnil, if_pos (List.length_pos_iff.mpr hnil)]

theorem refresh_match (replies : ℕ → Reply) (old : PixelConfig) {chip : ℕ}
    (hchip : (chip : ℤ) < d.geometry.numChips) :
    ((refreshPixelConfigFromServal d replies old).2.chips chip).matchBPC = 1 ↔
      (replies chip).decoded = some (chipSlice (readBPCfile d).2 chip) ∧
        chipSlice (readBPCfile d).2 chip ≠ [] := by
  obtain ⟨s, hs, hchips, -⟩ := refresh_fetched hg replies old
  rw [hchips]
  exact hs.match_iff chip (by omega)

/-- The mismatches of all chips, counted over the image. -/
theorem refresh_mismatch (replies : ℕ → Reply) (old : PixelConfig) :
    ((List.range d.geometry.numChips.toNat).map fun chip =>
      ((refreshPixelConfigFromServal d replies old).2.chips chip).mismatchBytes).sum =
      (Nat.count (fun m => dueAt d.geometry (readBPCfile d).2 replies m ≠ 0)
        (pixelCount d.geometry) : ℕ) := by
  obtain ⟨s, hs, hchips, -⟩ := refresh_fetched hg replies old
  have hchip : ∀ chip ∈ List.range d.geometry.numChips.toNat,
      ((refreshPixelConfigFromServal d replies old).2.chips chip).mismatchBytes =
        (Nat.count (fun i => distance (readBPCfile d).2 replies (chip * kPixelConfigBytes + i) ≠ 0)
          kPixelConfigBytes : ℕ) := by
    intro chip hmem
    rw [hchips]
    exact hs.mismatch_eq chip (List.mem_range.mp hmem)
  have hpel : ∀ m < pixelCount d.geometry,
      (pelIndex d.geometry ((m : ℤ) % imageWidth d.geometry 256)
        ((m : ℤ) / imageWidth d.geometry 256)).toNat < pixelCount d.geometry := by
    intro m hm
    obtain ⟨h0, hlt⟩ := pelIndex_lt hg (inImage_of_lt hg hm)
    rw [pixelCount]
    omega
  have hinj : ∀ m < pixelCount d.geometry, ∀ m' < pixelCount d.geometry,
      (pelIndex d.geometry ((m : ℤ) % imageWidth d.geometry 256)
        ((m : ℤ) / imageWidth d.geometry 256)).toNat =
      (pelIndex d.geometry ((m' : ℤ) % imageWidth d.geometry 256)
        ((m' : ℤ) / imageWidth d.geometry 256)).toNat → m = m' := by
    intro m hm m' hm' heq
    obtain ⟨h0, -⟩ := pelIndex_lt hg (inImage_of_lt hg hm)
    obtain ⟨h0', -⟩ := pelIndex_lt hg (inImage_of_lt hg hm')
    obtain ⟨hi, hj⟩ := pelIndex_inj (by decide) hg (inImage_of_lt hg hm) (inImage_of_lt hg hm')
      (by omega)
    have hm1 := Int.mul_ediv_add_emod (m : ℤ) (imageWidth d.geometry 256)
    have hm2 := Int.mul_ediv_add_emod (m' : ℤ) (imageWidth d.geometry 256)
    rw [hi, hj, hm2] at hm1
    exact_mod_cast hm1.symm
  have hcomp : Nat.count (fun m => dueAt d.geometry (readBPCfile d).2 replies m ≠ 0)
      (pixelCount d.geometry) =
      Nat.count (fun k => distance (readBPCfile d).2 replies k ≠ 0) (pixelCount d.geometry) :=
    count_comp (p := fun k => distance (readBPCfile d).2 replies k ≠ 0) hpel hinj
  rw [List.map_congr_left hchip, hcomp, pixelCount, count_mul, Nat.cast_list_sum, List.map_map]
  rfl

theorem refresh_published (hbpc : (readBPCfile d).2 ≠ []) (replies : ℕ → Reply) (old : PixelConfig) :
    (refreshPixelConfigFromServal d replies old).2.published =
      tabulate diffSize (shownAt d.geometry (readBPCfile d).2 replies) := by
  obtain ⟨s, hs, -, hpub⟩ := refresh_fetched hg replies old
  obtain ⟨hr, hc⟩ := rowsCols_supported hg
  obtain ⟨-, hH⟩ := image_pos (by decide) hg
  have hlen := old.pixelConfigDiff.2
  rw [hpub, if_neg hbpc]
  refine List.ext_getElem? fun m => ?_
  rcases Nat.lt_or_ge m diffSize with hm | hm
  · rw [fillDiff_getElem? (by rw [hc]; exact hH) _ (by rw [hlen]; exact hm), hr, hc,
      diffAt_eq_shownAt hg hs hm]
    simp [tabulate, hm]
  · rw [List.getElem?_eq_none (by rw [length_fillDiff, hlen]; exact hm),
      List.getElem?_eq_none (by rw [length_tabulate]; exact hm)]

theorem refresh_count (hbpc : (readBPCfile d).2 ≠ []) (replies : ℕ → Reply) (old : PixelConfig) :
    (refreshPixelConfigFromServal d replies old).2.published.countP (· ≠ 0) =
      Nat.count (fun m => shownAt d.geometry (readBPCfile d).2 replies m ≠ 0) diffSize := by
  rw [refresh_published hg hbpc, tabulate, List.countP_map, countP_range]
  exact count_congr fun m _ => by simp

/-- With a BPC file, what is left to ask for is that the waveform shows each pixel what it is due, and shows
as many bytes apart as were counted. -/
theorem selfConsistent_iff_shown (hbpc : (readBPCfile d).2 ≠ []) :
    SelfConsistent d replies old ↔
      (∀ m, m < diffSize → m < pixelCount d.geometry →
        shownAt d.geometry (readBPCfile d).2 replies m =
          dueAt d.geometry (readBPCfile d).2 replies m) ∧
      Nat.count (fun m => shownAt d.geometry (readBPCfile d).2 replies m ≠ 0) diffSize =
        Nat.count (fun m => dueAt d.geometry (readBPCfile d).2 replies m ≠ 0)
          (pixelCount d.geometry) := by
  obtain ⟨hW, hH⟩ := image_pos (by decide) hg
  have hfetch : ∀ m : ℕ, m < diffSize →
      fetch (refreshPixelConfigFromServal d replies old).2.published m =
        some (shownAt d.geometry (readBPCfile d).2 replies m) := by
    intro m hm
    rw [refresh_published hg hbpc, fetch, if_pos (Int.natCast_nonneg m), Int.toNat_natCast]
    simp [tabulate, hm]
  constructor
  · intro h
    refine ⟨fun m hm hpix => ?_, ?_⟩
    · have hij := inImage_of_lt hg hpix
      have hm' := Int.mul_ediv_add_emod (m : ℤ) (imageWidth d.geometry 256)
      rw [mul_comm] at hm'
      have hentry := h.entry_eq _ _ hij (by rw [hm']; exact_mod_cast hm)
      rw [hm', hfetch m hm] at hentry
      exact Option.some.inj hentry
    · have hcount := h.count_eq
      rw [refresh_count hg hbpc, refresh_mismatch hg] at hcount
      exact_mod_cast hcount
  · rintro ⟨hshown, hcount⟩
    refine ⟨fun chip hchip => refresh_match hg replies old hchip, ?_, fun i j hij hlt => ?_,
      fun blank _ => ?_⟩
    · rw [refresh_count hg hbpc, refresh_mismatch hg, hcount]
    · obtain ⟨h0, hsize⟩ := rowMajor_mem hg hij
      obtain ⟨m, hm⟩ := Int.eq_ofNat_of_zero_le h0
      rw [fileSize_eq_pixelCount hg] at hsize
      rw [hm] at hlt hsize ⊢
      rw [hfetch m (by exact_mod_cast hlt), hshown m (by exact_mod_cast hlt) (by exact_mod_cast hsize),
        dueAt, ← hm, mul_add_ediv j hij.1 hij.2.1, mul_add_emod j hij.1 hij.2.1]
    · rw [refresh_published hg hbpc, refresh_published hg hbpc]

end Refresh

/-! ## Replies that end early -/

theorem shown_of_noTail (hno : NoTail d replies) (hk : k < diffSize) (hpix : k < pixelCount d.geometry) :
    shown (readBPCfile d).2 replies k = distance (readBPCfile d).2 replies k := by
  have hchip : ((k / kPixelConfigBytes : ℕ) : ℤ) < d.geometry.numChips := by
    have hlt : k / kPixelConfigBytes < d.geometry.numChips.toNat :=
      (Nat.div_lt_iff_lt_mul (by decide)).mpr hpix
    exact Int.lt_toNat.mp hlt
  have hmod : k % kPixelConfigBytes < kPixelConfigBytes := Nat.mod_lt _ (by decide)
  unfold shown distance
  cases hdec : (replies (k / kPixelConfigBytes)).decoded with
  | none => rfl
  | some decoded =>
    cases hb : (readBPCfile d).2[k]? with
    | none => simp
    | some b =>
      simp only [if_pos hk, Option.bind_some]
      cases ha : decoded[k % kPixelConfigBytes]? with
      | some a => rw [List.getD_eq_getElem?_getD, ha, Option.getD_some]
      | none =>
        -- nothing was decoded for the byte, so it lies in the tail of the slice
        have hlen := List.getElem?_eq_none_iff.mp ha
        have hslice : (chipSlice (readBPCfile d).2 (k / kPixelConfigBytes))[k % kPixelConfigBytes]? =
            some b := by
          rw [chipSlice_getElem? hmod, Nat.div_add_mod', hb]
        have htail : ((chipSlice (readBPCfile d).2 (k / kPixelConfigBytes)).drop
            decoded.length)[k % kPixelConfigBytes - decoded.length]? = some b := by
          rw [List.getElem?_drop, Nat.add_sub_cancel' hlen, hslice]
        obtain rfl := hno _ hchip decoded hdec b (List.mem_of_getElem? htail)
        rw [List.getD_eq_getElem?_getD, ha]
        simp

theorem noTail_of_shown (hsize : pixelCount d.geometry ≤ diffSize)
    (h : ∀ k < pixelCount d.geometry,
      shown (readBPCfile d).2 replies k = distance (readBPCfile d).2 replies k) :
    NoTail d replies := by
  intro chip hchip decoded hdec b hb
  obtain ⟨t, ht⟩ := List.mem_iff_getElem?.mp hb
  rw [List.getElem?_drop] at ht
  have hlen := (List.getElem?_eq_some_iff.mp ht).1
  have hi : decoded.length + t < kPixelConfigBytes := by
    rw [length_chipSlice] at hlen
    omega
  rw [chipSlice_getElem? hi] at ht
  set k := chip * kPixelConfigBytes + (decoded.length + t) with hk
  have hdiv : k / kPixelConfigBytes = chip ∧ k % kPixelConfigBytes = decoded.length + t := by
    unfold kPixelConfigBytes at *
    omega
  have hpix : k < pixelCount d.geometry := by
    unfold pixelCount kPixelConfigBytes at *
    omega
  have heq := h k hpix
  have hnone : decoded[decoded.length + t]? = none := List.getElem?_eq_none (by omega)
  unfold shown distance at heq
  rw [hdiv.1, hdiv.2, hdec, ht] at heq
  have hlt : k < diffSize := by omega
  simp only [if_pos hlt, Option.bind_some, hnone, List.getD_eq_getElem?_getD] at heq
  have hb0 : b.toNat = 0 := by simpa using heq
  exact BitVec.eq_of_toNat_eq hb0

/-! ## The wrong stride -/

/-- An array of `H` rows of `W` elements that is read as `W` rows of `H` elements shows the marks of the
array only if they are in the first row. -/
theorem marks_of_wrong_stride {W H N : ℕ} (hW : 0 < W) (hH : 0 < H) (hne : W ≠ H) (P : ℕ → ℕ → Prop)
    (hlim : ∀ m < W * H, P (m % W) (m / W) → m < N)
    (hread : ∀ m < N, m < W * H → P (m % W) (m / W) → m % H < W ∧ m / H < H ∧ P (m % H) (m / H)) :
    ∀ m < W * H, P (m % W) (m / W) → m < W ∧ m < H := by
  -- the mark that is read for a mark is a mark again, at `m / H * W + m % H`
  have hnext : ∀ m < W * H, P (m % W) (m / W) →
      m % H < W ∧ m / H * W + m % H < W * H ∧
        P ((m / H * W + m % H) % W) ((m / H * W + m % H) / W) := by
    intro m hm hP
    obtain ⟨hi, hj, hP'⟩ := hread m (hlim m hm hP) hm hP
    have hle : (m / H + 1) * W ≤ H * W := Nat.mul_le_mul_right W hj
    have hmod : (m / H * W + m % H) % W = m % H := by
      rw [Nat.mul_add_mod', Nat.mod_eq_of_lt hi]
    have hdiv : (m / H * W + m % H) / W = m / H := by
      rw [Nat.mul_comm, Nat.mul_add_div hW, Nat.div_eq_of_lt hi, Nat.add_zero]
    refine ⟨hi, ?_, by rw [hmod, hdiv]; exact hP'⟩
    rw [Nat.add_mul] at hle
    rw [Nat.mul_comm W H]
    omega
  have hdm : ∀ m, m / H * H + m % H = m := fun m => Nat.div_add_mod' m H
  rcases Nat.lt_or_gt_of_ne hne with hlt | hgt
  · intro m
    -- marks behind the first row lead to earlier ones
    induction m using Nat.strongRecOn with
    | ind m ih =>
      intro hm hP
      obtain ⟨hi, hlt', hP'⟩ := hnext m hm hP
      rcases Nat.lt_or_ge m H with hmH | hmH
      · rw [Nat.mod_eq_of_lt hmH] at hi
        exact ⟨hi, hmH⟩
      · have hq : 1 ≤ m / H := (Nat.one_le_div_iff hH).mpr hmH
        have hless : m / H * W + m % H < m := by
          have hmul := Nat.mul_lt_mul_of_pos_left hlt (show 0 < m / H by omega)
          have := hdm m
          omega
        have hfirst := (ih _ hless hlt' hP').1
        have hrow : 1 * W ≤ m / H * W := Nat.mul_le_mul_right W hq
        omega
  · intro m hm hP
    have hnone : ∀ c m, W * H - m = c → H ≤ m → m < W * H → ¬ P (m % W) (m / W) := by
      intro c
      -- marks behind the first `H` elements lead to later ones
      induction c using Nat.strongRecOn with
      | ind c ih =>
        intro m hc hmH hm hP
        obtain ⟨-, hlt', hP'⟩ := hnext m hm hP
        have hq : 0 < m / H := (Nat.one_le_div_iff hH).mpr hmH
        have hmul := Nat.mul_lt_mul_of_pos_left hgt hq
        have hmore := hdm m
        exact ih (W * H - (m / H * W + m % H)) (by omega) _ rfl (by omega) hlt' hP'
    have hmH : m < H := by
      by_contra hge
      exact hnone _ m rfl (by omega) hm hP
    exact ⟨by omega, hmH⟩

/-! ## When the waveform shows what is due -/

section Shown

variable (hg : Supported 256 d.geometry)
include hg

/-- What `selfConsistent_iff_shown` asks for. -/
def ShowsDue (d : Driver) (replies : ℕ → Reply) : Prop :=
  (∀ m, m < diffSize → m < pixelCount d.geometry →
    shownAt d.geometry (readBPCfile d).2 replies m = dueAt d.geometry (readBPCfile d).2 replies m) ∧
  Nat.count (fun m => shownAt d.geometry (readBPCfile d).2 replies m ≠ 0) diffSize =
    Nat.count (fun m => dueAt d.geometry (readBPCfile d).2 replies m ≠ 0) (pixelCount d.geometry)

theorem square_size (hsq : imageWidth d.geometry 256 = imageHeight d.geometry 256) :
    pixelCount d.geometry ≤ diffSize := by
  have hcount := pixelCount_eq hg
  unfold diffSize
  rcases supported_sizes hg with h | h | h | h | h | h <;> obtain ⟨-, hW, hH⟩ := h <;>
    rw [hW, hH] at hcount hsq <;> omega

theorem showsDue_square_iff (hsq : imageWidth d.geometry 256 = imageHeight d.geometry 256) :
    ShowsDue d replies ↔ NoTail d replies := by
  have hsize := square_size hg hsq
  have hshown : ∀ m < pixelCount d.geometry, shownAt d.geometry (readBPCfile d).2 replies m =
      shown (readBPCfile d).2 replies (pelIndex d.geometry ((m : ℤ) % imageWidth d.geometry 256)
        ((m : ℤ) / imageWidth d.geometry 256)).toNat := by
    intro m hm
    simp only [shownAt, ← hsq]
    rw [if_pos (inImage_of_lt hg hm)]
  have hcut : Nat.count (fun m => shownAt d.geometry (readBPCfile d).2 replies m ≠ 0) diffSize =
      Nat.count (fun m => shownAt d.geometry (readBPCfile d).2 replies m ≠ 0)
        (pixelCount d.geometry) := by
    refine count_eq_of_le hsize fun m hm _ hne => ?_
    have hcount := pixelCount_eq hg
    obtain ⟨-, hH⟩ := image_pos (by decide) hg
    rw [shownAt, if_neg] at hne
    · exact hne rfl
    · rintro ⟨-, -, -, hrow⟩
      rw [Int.ediv_lt_iff_lt_mul hH, ← hsq] at hrow
      rw [← hsq] at hcount
      omega
  constructor
  · rintro ⟨heq, -⟩
    refine noTail_of_shown hsize fun k hk => ?_
    obtain ⟨i, j, hij, hpel⟩ := exists_pixel hg hk
    obtain ⟨h0, hlt⟩ := rowMajor_mem hg hij
    obtain ⟨m, hm⟩ := Int.eq_ofNat_of_zero_le h0
    rw [fileSize_eq_pixelCount hg, hm] at hlt
    have hpix : m < pixelCount d.geometry := by exact_mod_cast hlt
    have hmark := heq m (by omega) hpix
    rw [hshown m hpix, dueAt, ← hm, mul_add_ediv j hij.1 hij.2.1, mul_add_emod j hij.1 hij.2.1,
      hpel, Int.toNat_natCast] at hmark
    exact hmark
  · intro hno
    have heq : ∀ m < pixelCount d.geometry, shownAt d.geometry (readBPCfile d).2 replies m =
        dueAt d.geometry (readBPCfile d).2 replies m := by
      intro m hm
      obtain ⟨h0, hlt⟩ := pelIndex_lt hg (inImage_of_lt hg hm)
      have hpix : (pelIndex d.geometry ((m : ℤ) % imageWidth d.geometry 256)
          ((m : ℤ) / imageWidth d.geometry 256)).toNat < pixelCount d.geometry := by
        rw [pixelCount]
        omega
      rw [hshown m hm, shown_of_noTail hno (by omega) hpix, dueAt]
    refine ⟨fun m _ hm => heq m hm, ?_⟩
    rw [hcut]
    exact count_congr fun m hm => by rw [heq m hm]

/-- A marked element of a mosaic is read from a byte of the detector that is apart. -/
theorem distance_of_shownAt (hno : NoTail d replies)
    (hm : shownAt d.geometry (readBPCfile d).2 replies m ≠ 0) :
    InImage d.geometry 256 (m % imageHeight d.geometry 256) (m / imageHeight d.geometry 256) ∧
      distance (readBPCfile d).2 replies (pelIndex d.geometry (m % imageHeight d.geometry 256)
        (m / imageHeight d.geometry 256)).toNat =
        shownAt d.geometry (readBPCfile d).2 replies m := by
  simp only [shownAt] at hm ⊢
  by_cases hin : InImage d.geometry 256 (m % imageHeight d.geometry 256)
      (m / imageHeight d.geometry 256)
  · rw [if_pos hin] at hm ⊢
    obtain ⟨h0, hlt⟩ := pelIndex_lt hg hin
    have hk : (pelIndex d.geometry (m % imageHeight d.geometry 256)
        (m / imageHeight d.geometry 256)).toNat < diffSize := by
      by_contra hge
      exact hm (shown_beyond (not_lt.mp hge))
    exact ⟨hin, (shown_of_noTail hno hk (by rw [pixelCount]; omega)).symm⟩
  · rw [if_neg hin] at hm
    exact absurd rfl hm

theorem mosaic_size (hne : imageWidth d.geometry 256 ≠ imageHeight d.geometry 256) :
    d.geometry.numChips = 8 ∧ pixelCount d.geometry = 524288 ∧ imageWidth d.geometry 256 ≤ 2048 ∧
      (imageWidth d.geometry 256 ≤ 512 ∨ imageHeight d.geometry 256 ≤ 512) := by
  have h8 : d.geometry.numChips = 8 := by
    rcases supported_sizes hg with h | h | h | h | h | h <;> omega
  refine ⟨h8, by rw [pixelCount, h8]; rfl, ?_⟩
  rcases supported_sizes hg with h | h | h | h | h | h <;> omega

theorem firstRow_of_showsDue (hne : imageWidth d.geometry 256 ≠ imageHeight d.geometry 256)
    (hno : NoTail d replies) (h : ShowsDue d replies) : FirstRow d replies := by
  obtain ⟨heq, hmarks⟩ := h
  have hcount := pixelCount_eq hg
  obtain ⟨hW, hH⟩ := image_pos (by decide) hg
  obtain ⟨-, hpixels, -⟩ := mosaic_size hg hne
  have hsize : diffSize = 262144 := rfl
  obtain ⟨W, hWn⟩ := Int.eq_ofNat_of_zero_le hW.le
  obtain ⟨H, hHn⟩ := Int.eq_ofNat_of_zero_le hH.le
  rw [hWn, hHn] at hcount
  have hdue : ∀ m : ℕ, dueAt d.geometry (readBPCfile d).2 replies m =
      distance (readBPCfile d).2 replies (pelIndex d.geometry (m % W : ℕ) (m / W : ℕ)).toNat := by
    intro m
    rw [dueAt, hWn, Int.natCast_emod, Int.natCast_ediv]
  -- the waveform has half of the image: the other half must not be due anything
  have hnone : ∀ m, diffSize ≤ m → m < pixelCount d.geometry →
      dueAt d.geometry (readBPCfile d).2 replies m = 0 := by
    intro m hm hlt
    have hcut : Nat.count (fun m => shownAt d.geometry (readBPCfile d).2 replies m ≠ 0) diffSize =
        Nat.count (fun m => dueAt d.geometry (readBPCfile d).2 replies m ≠ 0) diffSize :=
      count_congr fun m hm => by rw [heq m hm (by omega)]
    exact not_not.mp (not_of_count_eq (hmarks.symm.trans hcut) hm hlt)
  have hfirst := marks_of_wrong_stride (W := W) (H := H) (N := diffSize) (by omega) (by omega)
    (by omega)
    (fun i j => distance (readBPCfile d).2 replies (pelIndex d.geometry (i : ℕ) (j : ℕ)).toNat ≠ 0)
    (fun m hm hP => ?_) (fun m hm _ hP => ?_)
  · intro i j hij hdist
    obtain ⟨h0, hlt⟩ := rowMajor_mem hg hij
    obtain ⟨m, hm⟩ := Int.eq_ofNat_of_zero_le h0
    have hiW : i < W := hWn ▸ hij.2.1
    rw [fileSize_eq_pixelCount hg, hm, hcount, mul_comm] at hlt
    rw [hWn] at hm
    have hi : ((m % W : ℕ) : ℤ) = i := by
      rw [Int.natCast_emod, ← hm, mul_add_emod j hij.1 hiW]
    have hj : ((m / W : ℕ) : ℤ) = j := by
      rw [Int.natCast_ediv, ← hm, mul_add_ediv j hij.1 hiW]
    obtain ⟨hmW, hmH⟩ := hfirst m (by exact_mod_cast hlt) (by rw [hi, hj]; exact hdist)
    rw [Nat.mod_eq_of_lt hmW] at hi
    rw [Nat.div_eq_of_lt hmW] at hj
    omega
  · have hpix : m < pixelCount d.geometry := by
      have hm' : ((m : ℕ) : ℤ) < W * H := by exact_mod_cast hm
      rw [mul_comm] at hcount
      omega
    by_contra hge
    exact hP (by rw [← hdue]; exact hnone m (by omega) hpix)
  · have hshown : shownAt d.geometry (readBPCfile d).2 replies m ≠ 0 := by
      rw [heq m hm (by omega), hdue]
      exact hP
    obtain ⟨hin, hdist⟩ := distance_of_shownAt hg hno hshown
    rw [hHn, ← Int.natCast_emod, ← Int.natCast_ediv] at hin hdist
    obtain ⟨-, hi, -, hj⟩ := hin
    rw [hWn] at hi
    rw [hHn] at hj
    exact ⟨by exact_mod_cast hi, by exact_mod_cast hj, by rw [hdist]; exact hshown⟩

theorem showsDue_of_firstRow (hne : imageWidth d.geometry 256 ≠ imageHeight d.geometry 256)
    (hno : NoTail d replies) (hfirst : FirstRow d replies) : ShowsDue d replies := by
  obtain ⟨hW, hH⟩ := image_pos (by decide) hg
  obtain ⟨h8, hpixels, hsmall, hcorner⟩ := mosaic_size hg hne
  have hsize : diffSize = 262144 := rfl
  obtain ⟨W, hWn⟩ := Int.eq_ofNat_of_zero_le hW.le
  obtain ⟨H, hHn⟩ := Int.eq_ofNat_of_zero_le hH.le
  have hmarkDue : ∀ m < pixelCount d.geometry,
      dueAt d.geometry (readBPCfile d).2 replies m ≠ 0 → m < W ∧ m < H := by
    intro m hm hmark
    obtain ⟨hj, hi⟩ := hfirst _ _ (inImage_of_lt hg hm) hmark
    rw [hWn, ← Int.natCast_ediv] at hj
    have hmW : m < W := (Nat.div_eq_zero_iff.mp (by exact_mod_cast hj)).resolve_left (by omega)
    rw [hWn, hHn, ← Int.natCast_emod, Nat.mod_eq_of_lt hmW] at hi
    exact ⟨hmW, by exact_mod_cast hi⟩
  have hmarkShown : ∀ m, shownAt d.geometry (readBPCfile d).2 replies m ≠ 0 → m < W ∧ m < H := by
    intro m hmark
    obtain ⟨hin, hdist⟩ := distance_of_shownAt hg hno hmark
    obtain ⟨hj, -⟩ := hfirst _ _ hin (by rw [hdist]; exact hmark)
    rw [hHn, ← Int.natCast_ediv] at hj
    have hmH : m < H := (Nat.div_eq_zero_iff.mp (by exact_mod_cast hj)).resolve_left (by omega)
    have hi := hin.2.1
    rw [hHn, ← Int.natCast_emod, Nat.mod_eq_of_lt hmH, hWn] at hi
    exact ⟨by exact_mod_cast hi, hmH⟩
  -- in the first row, up to the shorter side, both strides mean the same pixel
  have heq : ∀ m < pixelCount d.geometry, shownAt d.geometry (readBPCfile d).2 replies m =
      dueAt d.geometry (readBPCfile d).2 replies m := by
    intro m hm
    by_cases hin : m < W ∧ m < H
    · have hpixel : InImage d.geometry 256 m 0 := ⟨by omega, by omega, le_rfl, hH⟩
      have hpel := pelIndex_firstRow hg h8 (by omega) (by omega) hpixel
      obtain ⟨h0, hlt⟩ := pelIndex_lt hg hpixel
      simp only [shownAt, dueAt, Int.emod_eq_of_lt (Int.natCast_nonneg m) hpixel.2.1,
        Int.ediv_eq_zero_of_lt (Int.natCast_nonneg m) hpixel.2.1,
        Int.emod_eq_of_lt (Int.natCast_nonneg m) (show (m : ℤ) < imageHeight d.geometry 256 by omega),
        Int.ediv_eq_zero_of_lt (Int.natCast_nonneg m)
          (show (m : ℤ) < imageHeight d.geometry 256 by omega)]
      rw [if_pos hpixel, shown_of_noTail hno (by omega) (by rw [pixelCount]; omega)]
    · have hs0 : shownAt d.geometry (readBPCfile d).2 replies m = 0 :=
        not_not.mp (mt (hmarkShown m) hin)
      have hd0 : dueAt d.geometry (readBPCfile d).2 replies m = 0 :=
        not_not.mp (mt (hmarkDue m hm) hin)
      rw [hs0, hd0]
  refine ⟨fun m _ hm => heq m hm, ?_⟩
  rw [count_eq_of_le (p := fun m => dueAt d.geometry (readBPCfile d).2 replies m ≠ 0)
    (m := diffSize) (n := pixelCount d.geometry) (by omega)]
  · exact count_congr fun m hm => by rw [heq m (by omega)]
  · intro m hm hlt hmark
    have hmW := (hmarkDue m hlt hmark).1
    omega

/-! ## Main result -/

/-- Without a BPC file the waveform published is the old one. -/
theorem selfConsistent_iff_empty (hnil : (readBPCfile d).2 = []) :
    SelfConsistent d replies old ↔ old.pixelConfigDiff.1 = List.replicate diffSize 0 := by
  have hpub : ∀ old, (refreshPixelConfigFromServal d replies old).2.published =
      old.pixelConfigDiff.1 := by
    intro old
    obtain ⟨s, -, -, hpub⟩ := refresh_fetched hg replies old
    rw [hpub, if_pos hnil]
  have hdist : ∀ k, distance (readBPCfile d).2 replies k = 0 := by
    intro k
    by_contra hne
    obtain ⟨decoded, a, b, -, -, hb, -⟩ := (distance_ne_zero_iff _ _ _).mp hne
    rw [hnil] at hb
    cases hb
  have hsum : Nat.count (fun m => dueAt d.geometry (readBPCfile d).2 replies m ≠ 0)
      (pixelCount d.geometry) = 0 := by
    simp [dueAt, hdist]
  constructor
  · intro h
    have hzero := h.count_eq
    rw [refresh_mismatch hg, hsum, hpub] at hzero
    have hnone : ∀ x ∈ old.pixelConfigDiff.1, x = 0 := by
      intro x hx
      have := List.countP_eq_zero.mp (by exact_mod_cast hzero) x hx
      simpa using this
    exact List.eq_replicate_iff.mpr ⟨old.pixelConfigDiff.2, hnone⟩
  · intro hold
    refine ⟨fun chip hchip => refresh_match hg replies old hchip, ?_, fun i j hij hlt => ?_,
      fun blank hblank => ?_⟩
    · rw [refresh_mismatch hg, hsum, hpub, hold]
      rw [List.countP_replicate, if_neg (by decide)]
    · obtain ⟨h0, -⟩ := rowMajor_mem hg hij
      obtain ⟨m, hm⟩ := Int.eq_ofNat_of_zero_le h0
      rw [hm] at hlt ⊢
      rw [hpub, hold, hdist, fetch, if_pos (Int.natCast_nonneg m), Int.toNat_natCast,
        List.getElem?_replicate, if_pos (by exact_mod_cast hlt)]
    · rw [hpub, hpub, hold, hblank]

theorem selfConsistent_of_comparable (h : Comparable d replies old) :
    SelfConsistent d replies old := by
  unfold Comparable at h
  by_cases hnil : (readBPCfile d).2 = []
  · rw [if_pos hnil] at h
    exact (selfConsistent_iff_empty hg hnil).mpr h
  · rw [if_neg hnil] at h
    obtain ⟨hno, hrow⟩ := h
    refine (selfConsistent_iff_shown hg hnil).mpr ?_
    by_cases hsq : imageWidth d.geometry 256 = imageHeight d.geometry 256
    · exact (showsDue_square_iff hg hsq).mpr hno
    · exact showsDue_of_firstRow hg hsq hno (hrow.resolve_left hsq)

/-- The converse, except on a mosaic where a reply ends early: there an entry of one pixel can stand in for
another. -/
theorem comparable_of_selfConsistent (h : SelfConsistent d replies old)
    (hexact : imageWidth d.geometry 256 = imageHeight d.geometry 256 ∨ NoTail d replies) :
    Comparable d replies old := by
  unfold Comparable
  by_cases hnil : (readBPCfile d).2 = []
  · rw [if_pos hnil]
    exact (selfConsistent_iff_empty hg hnil).mp h
  · rw [if_neg hnil]
    have hdue : ShowsDue d replies := (selfConsistent_iff_shown hg hnil).mp h
    by_cases hsq : imageWidth d.geometry 256 = imageHeight d.geometry 256
    · exact ⟨(showsDue_square_iff hg hsq).mp hdue, .inl hsq⟩
    · have hno := hexact.resolve_left hsq
      exact ⟨hno, .inr (firstRow_of_showsDue hg hsq hno hdue)⟩

end Shown

/-- The comparison is self-consistent exactly for what is `Comparable`; on a mosaic that is not square the
converse asks for replies that do not end early. -/
theorem selfConsistent_iff (d : Driver) (hg : Supported 256 d.geometry) (replies : ℕ → Reply)
    (old : PixelConfig) :
    (Comparable d replies old → SelfConsistent d replies old) ∧
      (imageWidth d.geometry 256 = imageHeight d.geometry 256 ∨ NoTail d replies →
        (SelfConsistent d replies old ↔ Comparable d replies old)) :=
  ⟨selfConsistent_of_comparable hg, fun hexact =>
    ⟨fun h => comparable_of_selfConsistent hg h hexact, selfConsistent_of_comparable hg⟩⟩

/-- A waveform that was never filled. -/
def blankConfig : PixelConfig where
  chips _ := ⟨0, 0, 0, ""⟩
  pixelConfigDiff := ⟨List.replicate diffSize 0, List.length_replicate⟩
  published := []

/-- One chip whose reply `"AQ=="` is the one byte of the BPC file. -/
theorem selfConsistent_iff_byte :
    SelfConsistent (blankDriver ⟨0, 1, 1, 256⟩ [1]) (fun _ => ⟨200, .string [65, 81, 61, 61]⟩)
      blankConfig := by
  refine (selfConsistent_iff (blankDriver ⟨0, 1, 1, 256⟩ [1]) (.single 0 (by decide) (by decide))
    (fun _ => ⟨200, .string [65, 81, 61, 61]⟩) blankConfig).1 ?_
  have hbpc : (readBPCfile (blankDriver ⟨0, 1, 1, 256⟩ [1])).2 = [1] := by decide
  have hdec : Reply.decoded ⟨200, .string [65, 81, 61, 61]⟩ = some [1] := by decide
  unfold Comparable
  rw [hbpc, if_neg (by decide)]
  refine ⟨fun chip hchip decoded hsome b hb => ?_, .inl (by decide)⟩
  obtain rfl := Option.some.inj (hdec.symm.trans hsome)
  obtain rfl : chip = 0 := by
    simp only [blankDriver] at hchip
    omega
  rw [hbpc, chipSlice] at hb
  simp [kPixelConfigBytes] at hb

/-- An empty reply to a file of one byte: nothing is counted as apart, but the waveform shows the byte. -/
theorem not_selfConsistent_short :
    ¬ ∀ (d : Driver) (replies : ℕ → Reply) (old : PixelConfig), Supported 256 d.geometry →
      SelfConsistent d replies old := by
  intro h
  have hg : Supported 256 (blankDriver ⟨0, 1, 1, 256⟩ [1]).geometry :=
    .single 0 (by decide) (by decide)
  have hbpc : (readBPCfile (blankDriver ⟨0, 1, 1, 256⟩ [1])).2 = [1] := by decide
  have hcmp := comparable_of_selfConsistent hg
    (h (blankDriver ⟨0, 1, 1, 256⟩ [1]) (fun _ => ⟨200, .string []⟩) blankConfig hg)
    (.inl (by decide))
  unfold Comparable at hcmp
  rw [hbpc, if_neg (by decide)] at hcmp
  have htail := hcmp.1 0 (by decide) [] (by decide) 1 (by
    rw [hbpc, chipSlice]
    simp [kPixelConfigBytes])
  exact absurd htail (by decide)

end ADTimePix3.Serval
