import ADTimePix3.Mask.Draw
import ADTimePix3.Mask.Proofs.LayoutProofs
import Mathlib.Algebra.Order.Ring.Abs
import Mathlib.Tactic.Linarith

/-!
# Drawing, writing and reading a mask: proofs

The draw loops run over `ROWS` rows of `COLS` pixels with stride `ROWS`, the write and read loops over `COLS`
rows of `ROWS` pixels with stride `COLS`. On a square image the two agree, and each loop is read off with
`Loops.nested_touches`. On any other image there is a pixel that cannot be drawn.

Main result: `maskAgree_iff_square`.
-/

namespace ADTimePix3.Mask

open Loops Square

variable {g : Geometry} {w : ℤ}

/-! ## Bounds -/

theorem rowsCols_supported (hg : Supported w g) :
    (rowsCols g).rows = imageWidth g w ∧ (rowsCols g).cols = imageHeight g w := by
  cases hg with
  | single o _ _ => simp [rowsCols_single, imageWidth, imageHeight]
  | quad o _ _ =>
    have h : (4 : ℤ).tdiv 2 = 2 := rfl
    simp [rowsCols_quad, imageWidth, imageHeight, h]
  | mosaic8 x y hx h8 =>
    have hy : (8 : ℤ).tdiv x = y := by rw [← h8]; exact Int.mul_tdiv_cancel_left y hx.ne'
    simp [rowsCols_grid hx h8, imageWidth, imageHeight, hy]

theorem fileSize_eq (hg : Supported w g) : fileSize g w = imageHeight g w * imageWidth g w := by
  obtain ⟨hs, hc, hr⟩ := layout_size hg
  rw [← hs, ← hc, ← hr]
  cases hg with
  | single o _ _ =>
    rw [layout_single]
    simp [Mosaic.rotate, singleUp]
  | quad o _ _ =>
    rw [layout_quad]
    simp [Mosaic.rotate, quadUp]
    ring
  | mosaic8 x y hx h8 =>
    rw [layout_grid hx h8]
    simp only [gridUp]
    ring

theorem image_pos (hw : 1 ≤ w) (hg : Supported w g) : 0 < imageWidth g w ∧ 0 < imageHeight g w := by
  cases hg with
  | single o _ _ => simp [imageWidth, imageHeight]; omega
  | quad o _ _ =>
    have h : (4 : ℤ).tdiv 2 = 2 := rfl
    simp [imageWidth, imageHeight, h]; omega
  | mosaic8 x y hx h8 =>
    have hy : (8 : ℤ).tdiv x = y := by rw [← h8]; exact Int.mul_tdiv_cancel_left y hx.ne'
    have hy0 : 0 < y := by
      by_contra hle
      nlinarith
    simp only [imageWidth, imageHeight, hy]
    exact ⟨mul_pos hx (by omega), mul_pos hy0 (by omega)⟩

/-- The element of a pixel is in the waveform. -/
theorem rowMajor_mem (hg : Supported w g) {i j : ℤ} (hij : InImage g w i j) :
    0 ≤ j * imageWidth g w + i ∧ j * imageWidth g w + i < fileSize g w := by
  obtain ⟨h1, h2, h3, h4⟩ := hij
  rw [fileSize_eq hg]
  exact mul_add_range ⟨h3, h4⟩ ⟨h1, h2⟩

theorem rowMajor_inj {i j i' j' : ℤ} (hij : InImage g w i j) (hij' : InImage g w i' j')
    (h : j * imageWidth g w + i = j' * imageWidth g w + i') : i = i' ∧ j = j' := by
  constructor
  · rw [← mul_add_emod j hij.1 hij.2.1, h, mul_add_emod j' hij'.1 hij'.2.1]
  · rw [← mul_add_ediv j hij.1 hij.2.1, h, mul_add_ediv j' hij'.1 hij'.2.1]

/-- The byte of a pixel is in the file. -/
theorem pelIndex_mem (hw : 1 ≤ w) (hg : Supported w g) {i j : ℤ} (hij : InImage g w i j) :
    0 ≤ pelIndex g i j ∧ pelIndex g i j < fileSize g w := by
  rw [pelIndex_eq_indexOf hw hg hij, ← (layout_size hg).1]
  exact (layout g).indexOf_mem hw ((inImage_iff hg).mp hij)

theorem pelIndex_inj (hw : 1 ≤ w) (hg : Supported w g) {i j i' j' : ℤ} (hij : InImage g w i j)
    (hij' : InImage g w i' j') (h : pelIndex g i j = pelIndex g i' j') : i = i' ∧ j = j' := by
  rw [pelIndex_eq_indexOf hw hg hij, pelIndex_eq_indexOf hw hg hij'] at h
  have hinj := ((layout g).indexOf_bijOn hw).injOn ((inImage_iff hg).mp hij)
    ((inImage_iff hg).mp hij') h
  exact Prod.mk.inj hinj

/-! ## Bits -/

theorem setMaskBit_idem (onOff e : Word) :
    setMaskBit onOff (setMaskBit onOff e) = setMaskBit onOff e := by
  unfold setMaskBit
  split
  · rw [BitVec.or_assoc, BitVec.or_self]
  · rw [BitVec.and_assoc, BitVec.and_self]

theorem setMaskBit_bit (onOff e : Word) : (setMaskBit onOff e).getLsbD 0 = decide (onOff ≠ 0) := by
  unfold setMaskBit
  by_cases h : onOff = 0
  · simp [h]
  · have hd : decide (onOff ≠ 0) = true := decide_eq_true h
    rw [if_pos h, BitVec.getLsbD_or, hd]
    simp

theorem or_idem {n : ℕ} (m x : BitVec n) : x ||| m ||| m = x ||| m := by
  rw [BitVec.or_assoc, BitVec.or_self]

theorem bitAt_of_fetch {n : ℕ} {buf buf' : List (BitVec n)} {k : ℤ} {m : ℕ}
    (h : fetch buf' k = fetch buf k) : bitAt buf' k m = bitAt buf k m := by
  rw [bitAt, bitAt, h]

theorem exists_bitAt {n : ℕ} (buf : List (BitVec n)) {k : ℤ} (m : ℕ) (h0 : 0 ≤ k)
    (hk : k < buf.length) : ∃ b, bitAt buf k m = some b := by
  obtain ⟨x, hx, -⟩ := fetch_eq buf h0 hk
  exact ⟨x.getLsbD m, by rw [bitAt, hx, Option.map_some]⟩

theorem bitAt_touched {n : ℕ} {f : BitVec n → BitVec n} {S : ℤ → Prop} {a b : List (BitVec n)} {k : ℤ}
    {m : ℕ} (φ : Bool → Bool) (ht : Touches f S a b) (h0 : 0 ≤ k) (hS : S k)
    (hφ : ∀ x, (f x).getLsbD m = φ (x.getLsbD m)) : bitAt b k m = (bitAt a k m).map φ := by
  rw [bitAt, bitAt, ht.fetch_touched h0 hS, Option.map_map, Option.map_map]
  congr 1
  exact funext hφ

/-! ## What the draw loops reach -/

def Draw.paint : Draw → Word → Word
  | .reset onOff, _ => onOff
  | .rectangle _ _ _ _ onOff, e => setMaskBit onOff e
  | .circle _ _ _ onOff, e => setMaskBit onOff e

theorem Draw.paint_bit (p : Draw) (e : Word) : (p.paint e).getLsbD 0 = p.bit := by
  cases p with
  | reset onOff => rfl
  | rectangle _ _ _ _ onOff => exact setMaskBit_bit onOff e
  | circle _ _ _ onOff => exact setMaskBit_bit onOff e

/-- The elements of the pixels that a draw covers. -/
def Draw.Elements (g : Geometry) (w : ℤ) (p : Draw) (n : ℤ) : Prop :=
  ∃ i j, InImage g w i j ∧ p.Covers i j ∧ n = j * imageWidth g w + i

/-- `rowsCols` is the size of the image, and the waveform has room for it. -/
structure RowMajor (w : ℤ) (g : Geometry) : Prop where
  rows_eq : (rowsCols g).rows = imageWidth g w
  cols_eq : (rowsCols g).cols = imageHeight g w
  size_le : imageHeight g w * imageWidth g w ≤ fileSize g w

theorem Supported.rowMajor (hg : Supported w g) : RowMajor w g :=
  ⟨(rowsCols_supported hg).1, (rowsCols_supported hg).2, (fileSize_eq hg).ge⟩

/-- The bit that one draw leaves on a pixel. -/
theorem request_bitAt {buf buf' : List Word} {p : Draw}
    (ht : Touches p.paint (p.Elements g w) buf buf') {i j : ℤ} (hij : InImage g w i j) {b : Bool}
    (hb : bitAt buf (j * imageWidth g w + i) 0 = some b) :
    bitAt buf' (j * imageWidth g w + i) 0 = some (if p.Covers i j then p.bit else b) := by
  by_cases hcov : p.Covers i j
  · have h0 := (mul_add_range ⟨hij.2.2.1, hij.2.2.2⟩ ⟨hij.1, hij.2.1⟩).1
    have h := bitAt_touched (fun _ => p.bit) ht h0 ⟨i, j, hij, hcov, rfl⟩ p.paint_bit
    rw [if_pos hcov, h, hb, Option.map_some]
  · have hnot : ¬ p.Elements g w (j * imageWidth g w + i) := by
      rintro ⟨i', j', hij', hcov', heq⟩
      obtain ⟨rfl, rfl⟩ := rowMajor_inj hij hij' heq
      exact hcov hcov'
    rw [if_neg hcov, bitAt_of_fetch (ht.fetch_kept hnot), hb]

/-- The bounding box of the loops does not cut the disc. -/
theorem Draw.box_of_covers {nX nY nRadius i j : ℤ} {onOff : Word} (hr0 : 0 ≤ nRadius)
    (hcov : (Draw.circle nX nY nRadius onOff).Covers i j) :
    (nX - nRadius ≤ i ∧ i < nX + nRadius + 1) ∧ nY - nRadius ≤ j ∧ j < nY + nRadius + 1 := by
  have hcov' : (i - nX) * (i - nX) + (j - nY) * (j - nY) ≤ nRadius * nRadius := hcov
  have hi0 := mul_self_nonneg (i - nX)
  have hj0 := mul_self_nonneg (j - nY)
  have hi2 : (i - nX) ^ 2 ≤ nRadius ^ 2 := by nlinarith
  have hj2 : (j - nY) ^ 2 ≤ nRadius ^ 2 := by nlinarith
  obtain ⟨hi, hi'⟩ := abs_le_of_sq_le_sq' hi2 hr0
  obtain ⟨hj, hj'⟩ := abs_le_of_sq_le_sq' hj2 hr0
  omega

section Reaches

variable (hg : RowMajor w g)
include hg

theorem update_pixel {i j : ℤ} (hij : InImage g w i j) {buf : List Word}
    (hlen : (buf.length : ℤ) = fileSize g w) (f : Word → Word) :
    ∃ buf', update buf (j * imageWidth g w + i) f = some buf' ∧
      Touches f (fun n => n = j * imageWidth g w + i) buf buf' := by
  obtain ⟨h1, h2, h3, h4⟩ := hij
  obtain ⟨h0, hlt⟩ := mul_add_range ⟨h3, h4⟩ ⟨h1, h2⟩
  have hsize := hg.size_le
  exact update_touches h0 (by rw [hlen]; omega)

theorem maskReset_touches {buf : List Word} (hlen : (buf.length : ℤ) = fileSize g w) {onOff : Word}
    (hreach : (Draw.reset onOff).Reaches g w) :
    ∃ buf', maskReset g buf onOff = some buf' ∧
      Touches (fun _ => onOff) ((Draw.reset onOff).Elements g w) buf buf' := by
  simp only [maskReset]
  have hpel : ∀ j i, 0 ≤ j → j < (rowsCols g).rows → 0 ≤ i → i < (rowsCols g).cols →
      ∀ b : List Word, b.length = buf.length →
      ∃ b', (update b (j * (rowsCols g).rows + i) fun _ => onOff) = some b' ∧
        Touches (fun _ => onOff) (fun n => n = j * imageWidth g w + i) b b' := by
    intro j i hj hj' hi hi' b hb
    rw [hg.rows_eq]
    exact update_pixel hg ((hreach i j trivial).mp ⟨⟨hi, hj⟩, hi', hj'⟩) (by rw [hb, hlen]) _
  obtain ⟨buf', hbuf', ht⟩ := nested_touches (f := fun _ => onOff) (fun _ => rfl) hpel buf rfl
  refine ⟨buf', hbuf', ht.congr fun n => ?_⟩
  constructor
  · rintro ⟨j, hj, i, hi, rfl⟩
    exact ⟨i, j, (hreach i j trivial).mp ⟨⟨hi.1, hj.1⟩, hi.2, hj.2⟩, trivial, rfl⟩
  · rintro ⟨i, j, hij, -, rfl⟩
    obtain ⟨⟨hi, hj⟩, hi', hj'⟩ := (hreach i j trivial).mpr hij
    exact ⟨j, ⟨hj, hj'⟩, i, ⟨hi, hi'⟩, rfl⟩

theorem maskRectangle_touches {buf : List Word} (hlen : (buf.length : ℤ) = fileSize g w)
    {nX nXsize nY nYsize : ℤ} {onOff : Word}
    (hreach : (Draw.rectangle nX nXsize nY nYsize onOff).Reaches g w) :
    ∃ buf', maskRectangle g buf nX nXsize nY nYsize onOff = some buf' ∧
      Touches (setMaskBit onOff) ((Draw.rectangle nX nXsize nY nYsize onOff).Elements g w)
        buf buf' := by
  simp only [maskRectangle]
  have hrow : ∀ j, nY ≤ j → j < nY + nYsize → ∀ b : List Word, b.length = buf.length →
      ∃ b', (if j < (rowsCols g).rows then
        forLoop nX (nX + nXsize) (fun i buf =>
          if i < (rowsCols g).cols then
            update buf (j * (rowsCols g).rows + i) (setMaskBit onOff)
          else some buf) b
        else some b) = some b' ∧
        Touches (setMaskBit onOff) (fun n => j < (rowsCols g).rows ∧
          ∃ i, (nX ≤ i ∧ i < nX + nXsize) ∧ i < (rowsCols g).cols ∧
            n = j * imageWidth g w + i) b b' := by
    intro j hj hj' b hb
    refine ite_touches _ fun hjr => forLoop_touches (setMaskBit_idem onOff) ?_ b hb
    intro i hi hi' b hb
    refine ite_touches _ fun hic => ?_
    have hij := (hreach i j ⟨⟨hi, hi'⟩, hj, hj'⟩).mp ⟨trivial, hic, hjr⟩
    rw [hg.rows_eq]
    exact update_pixel hg hij (by rw [hb, hlen]) _
  obtain ⟨buf', hbuf', ht⟩ := forLoop_touches (setMaskBit_idem onOff) hrow buf rfl
  refine ⟨buf', hbuf', ht.congr fun n => ?_⟩
  constructor
  · rintro ⟨j, hj, hjr, i, hi, hic, rfl⟩
    exact ⟨i, j, (hreach i j ⟨hi, hj⟩).mp ⟨trivial, hic, hjr⟩, ⟨hi, hj⟩, rfl⟩
  · rintro ⟨i, j, hij, ⟨hi, hj⟩, rfl⟩
    obtain ⟨-, hic, hjr⟩ := (hreach i j ⟨hi, hj⟩).mpr hij
    exact ⟨j, hj, hjr, i, hi, hic, rfl⟩

theorem maskCircle_touches {buf : List Word} (hlen : (buf.length : ℤ) = fileSize g w)
    {nX nY nRadius : ℤ} {onOff : Word} (hreach : (Draw.circle nX nY nRadius onOff).Reaches g w) :
    ∃ buf', maskCircle g buf nX nY nRadius onOff = some buf' ∧
      Touches (setMaskBit onOff) ((Draw.circle nX nY nRadius onOff).Elements g w) buf buf' := by
  simp only [maskCircle]
  have hpel : ∀ j i, nY - nRadius ≤ j → j < nY + nRadius + 1 → nX - nRadius ≤ i →
      i < nX + nRadius + 1 → ∀ b : List Word, b.length = buf.length →
      ∃ b', (if 0 ≤ j ∧ j < (rowsCols g).rows ∧ 0 ≤ i ∧ i < (rowsCols g).cols ∧
          (i - nX) * (i - nX) + (j - nY) * (j - nY) ≤ nRadius * nRadius then
        update b (j * (rowsCols g).rows + i) (setMaskBit onOff) else some b) = some b' ∧
        Touches (setMaskBit onOff) (fun n => (0 ≤ j ∧ j < (rowsCols g).rows ∧ 0 ≤ i ∧
          i < (rowsCols g).cols ∧
          (i - nX) * (i - nX) + (j - nY) * (j - nY) ≤ nRadius * nRadius) ∧
          n = j * imageWidth g w + i) b b' := by
    intro j i _ _ _ _ b hb
    refine ite_touches _ ?_
    rintro ⟨hj, hjr, hi, hic, hcov⟩
    rw [hg.rows_eq]
    exact update_pixel hg ((hreach i j hcov).mp ⟨⟨hi, hj, by omega⟩, hic, hjr⟩)
      (by rw [hb, hlen]) _
  obtain ⟨buf', hbuf', ht⟩ := nested_touches (setMaskBit_idem onOff) hpel buf rfl
  refine ⟨buf', hbuf', ht.congr fun n => ?_⟩
  constructor
  · rintro ⟨j, hjbox, i, -, ⟨hj, hjr, hi, hic, hcov⟩, rfl⟩
    exact ⟨i, j, (hreach i j hcov).mp ⟨⟨hi, hj, by omega⟩, hic, hjr⟩, hcov, rfl⟩
  · rintro ⟨i, j, hij, hcov, rfl⟩
    obtain ⟨⟨hi, hj, hr0⟩, hic, hjr⟩ := (hreach i j hcov).mpr hij
    obtain ⟨hibox, hjbox⟩ := Draw.box_of_covers hr0 hcov
    exact ⟨j, hjbox, i, hibox, ⟨hj, hjr, hi, hic, hcov⟩, rfl⟩

/-- A draw paints the pixels it covers, and no others, if its loops reach them. -/
theorem Draw.apply_touches {buf : List Word} (hlen : (buf.length : ℤ) = fileSize g w) {p : Draw}
    (hreach : p.Reaches g w) :
    ∃ buf', p.apply g buf = some buf' ∧ Touches p.paint (p.Elements g w) buf buf' := by
  cases p with
  | reset onOff => exact maskReset_touches hg hlen hreach
  | rectangle nX nXsize nY nYsize onOff => exact maskRectangle_touches hg hlen hreach
  | circle nX nY nRadius onOff => exact maskCircle_touches hg hlen hreach

end Reaches

/-! ## Drawing on a square image -/

theorem readInt32Array_request (d : Driver) (p : Draw) (buf : List Word) :
    (readInt32Array (p.request d) buf).map (·.2) = p.apply d.geometry buf := by
  cases p with
  | reset onOff => simp [readInt32Array, Draw.request, Draw.apply]
  | rectangle nX nXsize nY nYsize onOff => simp [readInt32Array, Draw.request, Draw.apply]
  | circle nX nY nRadius onOff => simp [readInt32Array, Draw.request, Draw.apply]

section Square

variable (hg : Supported w g) (hsq : imageWidth g w = imageHeight g w)
include hg hsq

theorem rowsCols_square :
    (rowsCols g).rows = imageWidth g w ∧ (rowsCols g).cols = imageWidth g w := by
  obtain ⟨hr, hc⟩ := rowsCols_supported hg
  exact ⟨hr, hc.trans hsq.symm⟩

theorem Draw.InRange.reaches {p : Draw} (hp : p.InRange g w) : p.Reaches g w := by
  obtain ⟨hr, hc⟩ := rowsCols_square hg hsq
  intro i j hcov
  rw [hr, hc]
  cases p with
  | reset onOff =>
    simp only [Draw.Visits, InImage]
    omega
  | rectangle nX nXsize nY nYsize onOff =>
    obtain ⟨hx0, -, hx, hy0, -, hy⟩ := hp
    obtain ⟨hi, hj⟩ := hcov
    simp only [Draw.Visits, InImage, true_and]
    omega
  | circle nX nY nRadius onOff =>
    have hr0 : 0 ≤ nRadius := hp.2
    simp only [Draw.Visits, InImage]
    omega

/-- One draw request paints the pixels it covers, and no others. -/
theorem request_touches (d : Driver) (hd : d.geometry = g) {buf : List Word}
    (hlen : (buf.length : ℤ) = fileSize g w) {p : Draw} (hp : p.InRange g w) :
    ∃ buf', (readInt32Array (p.request d) buf).map (·.2) = some buf' ∧
      Touches p.paint (p.Elements g w) buf buf' := by
  rw [readInt32Array_request, hd]
  exact Draw.apply_touches hg.rowMajor hlen (hp.reaches hg hsq)

/-- A sequence of draws leaves on each pixel the bit of the last draw that covers it. -/
theorem drawAll_drawn (d : Driver) (hd : d.geometry = g) (draws : List Draw)
    (hp : ∀ p ∈ draws, p.InRange g w) (value : List Word) (hlen : (value.length : ℤ) = fileSize g w) :
    ∃ mask, d.drawAll draws value = some mask ∧ mask.length = value.length ∧
      Drawn g w draws value mask := by
  induction draws generalizing value with
  | nil =>
    refine ⟨value, rfl, rfl, fun i j hij => ?_⟩
    obtain ⟨h0, hlt⟩ := rowMajor_mem hg hij
    obtain ⟨b, hb⟩ := exists_bitAt value 0 h0 (by rwa [hlen])
    exact ⟨b, hb, hb⟩
  | cons p draws ih =>
    obtain ⟨v, hv, ht⟩ := request_touches hg hsq d hd hlen (hp p (List.mem_cons_self ..))
    have hlv : v.length = value.length := ht.length_eq
    obtain ⟨mask, hmask, hlm, hdrawn⟩ := ih (fun q hq => hp q (List.mem_cons_of_mem p hq)) v
      (by rw [hlv, hlen])
    refine ⟨mask, ?_, hlm.trans hlv, fun i j hij => ?_⟩
    · unfold Driver.drawAll
      rw [List.foldlM_cons, hv]
      exact hmask
    · obtain ⟨h0, hlt⟩ := rowMajor_mem hg hij
      obtain ⟨b, hb⟩ := exists_bitAt value 0 h0 (by rwa [hlen])
      obtain ⟨b', hb', hm⟩ := hdrawn i j hij
      have hstep := request_bitAt ht hij hb
      obtain rfl : b' = if p.Covers i j then p.bit else b := Option.some.inj (hb'.symm.trans hstep)
      exact ⟨b, hb, hm⟩

/-! ## Writing and reading on a square image -/

/-- The write loops set bit 0 of the bytes of the masked pixels. -/
theorem maskWriteLoops_touches (hw : 1 ≤ w) {mask : List Word} {file : List Byte}
    (hm : (mask.length : ℤ) = fileSize g w) (hf : (file.length : ℤ) = fileSize g w) :
    ∃ file', maskWriteLoops g mask file = some file' ∧
      Touches (· ||| 1) (fun k => ∃ i j, InImage g w i j ∧
        bitAt mask (j * imageWidth g w + i) 0 = some true ∧ k = pelIndex g i j) file file' := by
  obtain ⟨hr, hc⟩ := rowsCols_square hg hsq
  simp only [maskWriteLoops, hr, hc]
  have hpel : ∀ j i, 0 ≤ j → j < imageWidth g w → 0 ≤ i → i < imageWidth g w →
      ∀ b : List Byte, b.length = file.length →
      ∃ b', (do
          let e ← fetch mask (j * imageWidth g w + i)
          if e.getLsbD 0 then update b (pelIndex g i j) (· ||| 1) else some b) = some b' ∧
        Touches (· ||| 1) (fun k => bitAt mask (j * imageWidth g w + i) 0 = some true ∧
          k = pelIndex g i j) b b' := by
    intro j i hj hj' hi hi' b hb
    have hij : InImage g w i j := ⟨hi, hi', hj, by omega⟩
    obtain ⟨h0, hlt⟩ := rowMajor_mem hg hij
    obtain ⟨e, he, -⟩ := fetch_eq mask h0 (by rwa [hm])
    obtain ⟨hk, hk'⟩ := pelIndex_mem hw hg hij
    obtain ⟨b', hb', ht⟩ := ite_touches (p := e.getLsbD 0 = true) b
      fun _ => update_touches (f := (· ||| 1)) hk (by rwa [hb, hf])
    refine ⟨b', by rw [he]; exact hb', ht.congr fun k => ?_⟩
    rw [bitAt, he, Option.map_some, Option.some_inj]
  obtain ⟨file', hfile', ht⟩ := nested_touches (or_idem 1) hpel file rfl
  refine ⟨file', hfile', ht.congr fun k => ?_⟩
  constructor
  · rintro ⟨j, hj, i, hi, hbit, rfl⟩
    exact ⟨i, j, ⟨hi.1, hi.2, hj.1, by omega⟩, hbit, rfl⟩
  · rintro ⟨i, j, ⟨h1, h2, h3, h4⟩, hbit, rfl⟩
    exact ⟨j, ⟨h3, by omega⟩, i, ⟨h1, h2⟩, hbit, rfl⟩

/-- Writing a drawing merges it into the file. -/
theorem maskWriteLoops_merged (hw : 1 ≤ w) {draws : List Draw} {value mask : List Word}
    (file : List Byte) (hdrawn : Drawn g w draws value mask)
    (hm : (mask.length : ℤ) = fileSize g w) (hf : (file.length : ℤ) = fileSize g w) :
    ∃ file', maskWriteLoops g mask file = some file' ∧ file'.length = file.length ∧
      Merged g w draws value file file' := by
  obtain ⟨file', hfile', ht⟩ := maskWriteLoops_touches hg hsq hw hm hf
  refine ⟨file', hfile', ht.length_eq, fun i j hij => ?_, fun k m hm0 => ?_⟩
  · obtain ⟨hk, hk'⟩ := pelIndex_mem hw hg hij
    obtain ⟨old, hold⟩ := exists_bitAt file 0 hk (by rwa [hf])
    obtain ⟨b, hb, hmask⟩ := hdrawn i j hij
    refine ⟨old, b, hold, hb, ?_⟩
    cases hbit : drawnBit draws i j b with
    | true =>
      rw [bitAt_touched (fun _ => true) ht hk ⟨i, j, hij, by rw [hmask, hbit], rfl⟩ (by simp),
        hold, Option.map_some, Bool.or_true]
    | false =>
      have hnot : ¬ ∃ i' j', InImage g w i' j' ∧
          bitAt mask (j' * imageWidth g w + i') 0 = some true ∧ pelIndex g i j = pelIndex g i' j' := by
        rintro ⟨i', j', hij', hbit', heq⟩
        obtain ⟨rfl, rfl⟩ := pelIndex_inj hw hg hij hij' heq
        rw [hmask, hbit] at hbit'
        exact absurd hbit' (by decide)
      rw [bitAt_of_fetch (ht.fetch_kept hnot), hold, Bool.or_false]
  · by_cases hS : ∃ i j, InImage g w i j ∧ bitAt mask (j * imageWidth g w + i) 0 = some true ∧
        k = pelIndex g i j
    · have hk : 0 ≤ k := by
        obtain ⟨i, j, hij, -, rfl⟩ := hS
        exact (pelIndex_mem hw hg hij).1
      have hother : ∀ x : Byte, (x ||| 1).getLsbD m = x.getLsbD m := by
        intro x
        simp [hm0]
      rw [bitAt_touched id ht hk hS hother, Option.map_id_fun, id_eq]
    · exact bitAt_of_fetch (ht.fetch_kept hS)

/-- Reading shows the masked bytes of the file. -/
theorem maskPelLoops_shown (hw : 1 ≤ w) (value : List Word) (file : List Byte)
    (hv : (value.length : ℤ) = fileSize g w) (hf : (file.length : ℤ) = fileSize g w) :
    ∃ shown, maskPelLoops g file (value.map fun _ => 0) = some shown ∧ Shown g w file shown := by
  obtain ⟨hr, hc⟩ := rowsCols_square hg hsq
  simp only [maskPelLoops, hr, hc]
  have hpel : ∀ j i, 0 ≤ j → j < imageWidth g w → 0 ≤ i → i < imageWidth g w →
      ∀ b : List Word, b.length = (value.map fun _ => (0 : Word)).length →
      ∃ b', (if j * imageWidth g w + i ≥ b.length then some b
        else if 0 ≤ pelIndex g i j ∧ pelIndex g i j < file.length then do
          let x ← fetch file (pelIndex g i j)
          if x.getLsbD 0 then update b (j * imageWidth g w + i) (· ||| 2) else some b
        else some b) = some b' ∧
        Touches (· ||| 2) (fun n => bitAt file (pelIndex g i j) 0 = some true ∧
          n = j * imageWidth g w + i) b b' := by
    intro j i hj hj' hi hi' b hb
    have hij : InImage g w i j := ⟨hi, hi', hj, by omega⟩
    have hbl : (b.length : ℤ) = fileSize g w := by rw [hb, List.length_map, hv]
    obtain ⟨h0, hlt⟩ := rowMajor_mem hg hij
    obtain ⟨hk, hk'⟩ := pelIndex_mem hw hg hij
    rw [← hf] at hk'
    obtain ⟨x, hx, -⟩ := fetch_eq file hk hk'
    rw [if_neg (by omega), if_pos ⟨hk, hk'⟩, hx]
    obtain ⟨b', hb', ht⟩ := ite_touches (p := x.getLsbD 0 = true) b
      fun _ => update_touches (f := (· ||| 2)) h0 (by rwa [hbl])
    refine ⟨b', hb', ht.congr fun n => ?_⟩
    rw [bitAt, hx, Option.map_some, Option.some_inj]
  obtain ⟨shown, hshown, ht⟩ := nested_touches (or_idem 2) hpel _ rfl
  refine ⟨shown, hshown, fun i j hij => ?_⟩
  obtain ⟨hk, hk'⟩ := pelIndex_mem hw hg hij
  obtain ⟨h0, hlt⟩ := rowMajor_mem hg hij
  obtain ⟨b, hb⟩ := exists_bitAt file 0 hk (by rwa [hf])
  have hzero : bitAt (value.map fun _ => (0 : Word)) (j * imageWidth g w + i) 1 = some false := by
    obtain ⟨x, hx, -⟩ := fetch_eq (value.map fun _ => (0 : Word)) h0
      (by rwa [List.length_map, hv])
    have hx0 : x = 0 := by
      obtain ⟨y, -, rfl⟩ := List.mem_map.mp (mem_of_fetch hx)
      rfl
    rw [bitAt, hx, hx0]
    rfl
  refine ⟨b, hb, ?_⟩
  cases b with
  | true =>
    rw [bitAt_touched (fun _ => true) ht h0
      ⟨j, ⟨hij.2.2.1, by have := hij.2.2.2; omega⟩, i, ⟨hij.1, hij.2.1⟩, hb, rfl⟩ (by simp), hzero,
      Option.map_some]
  | false =>
    have hnot : ¬ ∃ j', (0 ≤ j' ∧ j' < imageWidth g w) ∧ ∃ i', (0 ≤ i' ∧ i' < imageWidth g w) ∧
        bitAt file (pelIndex g i' j') 0 = some true ∧
        j * imageWidth g w + i = j' * imageWidth g w + i' := by
      rintro ⟨j', hj', i', hi', hbit', heq⟩
      obtain ⟨rfl, rfl⟩ := rowMajor_inj hij ⟨hi'.1, hi'.2, hj'.1, by omega⟩ heq
      rw [hb] at hbit'
      exact absurd hbit' (by decide)
    rw [bitAt_of_fetch (ht.fetch_kept hnot), hzero]

end Square

/-! ## Requests -/

@[simp] theorem Files.write_node (files : Files) (path : String) (buf : List Byte) :
    (files.write path buf).node path = some (.regular buf) :=
  Function.update_self ..

/-- A write request runs the write loops on the BPC file and stores the result in the mask file. -/
theorem requestWrite_spec {d : Driver} {file : List Byte} (hd : d.Ready file) (mask : List Word) :
    ∃ store : List Byte → Driver,
      readInt32Array d.requestWrite mask =
        (maskWriteLoops d.geometry mask file).map (fun buf => (store buf, mask)) ∧
      ∀ buf, (store buf).geometry = d.geometry ∧
        (store buf).bpcFilePath ++ (store buf).maskFileName = d.maskPath ∧
        (store buf).files = d.files.write d.maskPath buf := by
  have hexists : checkFile d.files (d.bpcFilePath ++ d.bpcFileName) = 2 := by
    rw [checkFile, hd.bpc_node]
  have hdir : checkFile d.files d.bpcFilePath = 1 := by
    rw [checkFile, hd.path_node]
  have hread : readBPCfile d.requestWrite =
      ({ d.requestWrite with bpcN := file.countP fun b => b.getLsbD 0 }, file) := by
    have hr : d.requestWrite.files.readable (d.requestWrite.bpcFilePath ++ d.requestWrite.bpcFileName) =
      true := hd.bpc_readable
    have hn : d.requestWrite.files.node (d.requestWrite.bpcFilePath ++ d.requestWrite.bpcFileName) =
      some (.regular file) := hd.bpc_node
    rw [readBPCfile, hr, hn]
  refine ⟨fun buf => writeBPCfile { d.requestWrite with bpcN := file.countP fun b => b.getLsbD 0 } buf,
    ?_, fun buf => ?_⟩
  · unfold readInt32Array
    rw [hread]
    simp only [Driver.requestWrite]
    cases maskWriteLoops d.geometry mask file <;> simp [hexists]
  · have hchosen : chosenMaskFileName { d.requestWrite with bpcN := file.countP fun b => b.getLsbD 0 } =
        chosenMaskFileName d := rfl
    have hpath : d.bpcFilePath ++ chosenMaskFileName d = d.maskPath := rfl
    unfold writeBPCfile
    simp only [hchosen]
    simp [Driver.requestWrite, hdir, hpath, hd.mask_writable]

/-- A read request runs the read loops on the mask file. -/
theorem requestRead_spec {d : Driver} {file : List Byte}
    (hnode : d.files.node (d.bpcFilePath ++ d.maskFileName) = some (.regular file))
    (hread : d.files.readable (d.bpcFilePath ++ d.maskFileName) = true) (hlen : 0 < file.length)
    (value : List Word) :
    ∃ d', readInt32Array d.requestRead value =
      (maskPelLoops d.geometry file (value.map fun _ => 0)).map fun shown => (d', shown) := by
  have hexists : checkFile d.requestRead.files
      (d.requestRead.bpcFilePath ++ d.requestRead.bpcFileName) = 2 := by
    have h : checkFile d.files (d.bpcFilePath ++ d.maskFileName) = 2 := by rw [checkFile, hnode]
    exact h
  have hbpc : readBPCfile d.requestRead =
      ({ d.requestRead with bpcN := file.countP fun b => b.getLsbD 0 }, file) := by
    have hr : d.requestRead.files.readable (d.requestRead.bpcFilePath ++ d.requestRead.bpcFileName) =
      true := hread
    have hn : d.requestRead.files.node (d.requestRead.bpcFilePath ++ d.requestRead.bpcFileName) =
      some (.regular file) := hnode
    rw [readBPCfile, hr, hn]
  refine ⟨{ d.requestRead with bpcN := file.countP fun b => b.getLsbD 0 }, ?_⟩
  unfold readInt32Array
  rw [hbpc, if_pos hexists]
  simp only [Driver.requestRead]
  cases maskPelLoops d.geometry file (value.map fun _ => 0) <;> simp [hlen]

/-! ## Square images -/

theorem maskAgree_of_square (hw : 1 ≤ w) (hg : Supported w g)
    (hsq : imageWidth g w = imageHeight g w) : MaskAgree g w := by
  intro d file value value' draws hd hready hf hv hv' hp
  obtain ⟨mask, hmask, hml, hdrawn⟩ := drawAll_drawn hg hsq d hd draws hp value hv
  obtain ⟨file', hfile', hfl, hmerged⟩ :=
    maskWriteLoops_merged hg hsq hw file hdrawn (by rw [hml, hv]) hf
  obtain ⟨store, hwrite, hstore⟩ := requestWrite_spec hready mask
  obtain ⟨hgeo, hpath, hfiles⟩ := hstore file'
  have hnode : (store file').files.node d.maskPath = some (.regular file') := by
    rw [hfiles, Files.write_node]
  have hpos : 0 < file'.length := by
    obtain ⟨hW, hH⟩ := image_pos hw hg
    have := mul_pos hH hW
    rw [← fileSize_eq hg, ← hf, ← hfl] at this
    exact_mod_cast this
  obtain ⟨d'', hshow⟩ := requestRead_spec (d := store file') (by rw [hpath, hnode])
    (by rw [hpath, hfiles]; exact hready.mask_readable) hpos value'
  obtain ⟨shown, hshown, hbits⟩ :=
    maskPelLoops_shown hg hsq hw value' file' hv' (by rw [hfl, hf])
  refine ⟨mask, store file', file', d'', shown, hmask, ?_, hnode, hmerged, ?_, hbits⟩
  · rw [hwrite, hd, hfile', Option.map_some]
  · rw [hshow, hgeo, hd, hshown, Option.map_some]

/-! ## Other images -/

/-- A pixel beyond the bounds of the draw loops cannot be drawn. -/
theorem maskRectangle_pixel_outside (hg : Supported w g) {i j : ℤ}
    (hout : imageWidth g w ≤ j ∨ imageHeight g w ≤ i) (buf : List Word) (onOff : Word) :
    maskRectangle g buf i 1 j 1 onOff = some buf := by
  obtain ⟨hr, hc⟩ := rowsCols_supported hg
  simp only [maskRectangle, hr, hc, forLoop_single]
  by_cases hj : j < imageWidth g w
  · rw [if_pos hj, if_neg (by omega)]
  · rw [if_neg hj]

theorem maskWriteLoops_empty {mask : List Word} (hempty : ∀ e ∈ mask, e = 0) {file file' : List Byte}
    (h : maskWriteLoops g mask file = some file') : file' = file := by
  refine forLoop_stable (fun j buf' hrow => ?_) h
  refine forLoop_stable (fun i buf' hpel => ?_) hrow
  obtain ⟨e, he, hupd⟩ := Option.bind_eq_some_iff.mp hpel
  have he0 : e = 0 := hempty e (mem_of_fetch he)
  subst he0
  exact (Option.some.inj hupd).symm

/-- A pixel of the image that the draw loops do not reach. -/
theorem exists_unreached (hw : 1 ≤ w) (hg : Supported w g)
    (hsq : imageWidth g w ≠ imageHeight g w) :
    ∃ i j, InImage g w i j ∧ (imageWidth g w ≤ j ∨ imageHeight g w ≤ i) := by
  obtain ⟨hW, hH⟩ := image_pos hw hg
  rcases lt_or_gt_of_ne hsq with h | h
  · exact ⟨0, imageWidth g w, ⟨le_rfl, hW, hW.le, h⟩, .inl le_rfl⟩
  · exact ⟨imageHeight g w, 0, ⟨hH.le, h, le_rfl, hH⟩, .inr le_rfl⟩

/-- A driver with an empty BPC file, in a directory where everything can be read and written. -/
def blankDriver (g : Geometry) (file : List Byte) : Driver where
  geometry := g
  files :=
    { node := fun path => if path = "/bpc/" then some .directory else some (.regular file)
      readable := fun _ => true
      writable := fun _ => true }
  maskReset := 0
  maskOnOffPel := 0
  maskRectangle := 0
  maskCircle := 0
  maskMinX := 0
  maskSizeX := 0
  maskMinY := 0
  maskSizeY := 0
  maskRadius := 0
  maskPel := 0
  maskWrite := 0
  bpcFilePath := "/bpc/"
  bpcFileName := "chips.bpc"
  maskFileName := "mask.bpc"
  bpcN := 0

theorem blankDriver_ready (g : Geometry) (file : List Byte) : (blankDriver g file).Ready file where
  bpc_node := by simp [blankDriver]
  bpc_readable := rfl
  path_node := rfl
  mask_writable := rfl
  mask_readable := rfl

/-- On an image that is not square, some pixel is lost: drawn on an empty waveform and written into an
empty file, it leaves no trace. -/
theorem not_maskAgree_of_not_square (hw : 1 ≤ w) (hg : Supported w g)
    (hsq : imageWidth g w ≠ imageHeight g w) : ¬ MaskAgree g w := by
  intro hagree
  obtain ⟨i, j, hij, hout⟩ := exists_unreached hw hg hsq
  have hsize : (((fileSize g w).toNat : ℕ) : ℤ) = fileSize g w := by
    obtain ⟨hW, hH⟩ := image_pos hw hg
    rw [Int.toNat_of_nonneg]
    rw [fileSize_eq hg]
    exact (mul_pos hH hW).le
  set n := (fileSize g w).toNat with hn
  have hrange : ∀ p ∈ [Draw.rectangle i 1 j 1 1], p.InRange g w := by
    intro p hp
    obtain rfl := List.mem_singleton.mp hp
    obtain ⟨h1, h2, h3, h4⟩ := hij
    exact ⟨h1, by decide, by omega, h3, by decide, by omega⟩
  obtain ⟨mask, d', file', d'', shown, hmask, hwrite, hnode, hmerged, -, -⟩ :=
    hagree (blankDriver g (List.replicate n 0)) (List.replicate n 0) (List.replicate n 0)
      (List.replicate n 0) [.rectangle i 1 j 1 1] rfl (blankDriver_ready g _)
      (by rw [List.length_replicate, hsize]) (by rw [List.length_replicate, hsize])
      (by rw [List.length_replicate, hsize]) hrange
  have hmask0 : mask = List.replicate n 0 := by
    have hdraw := maskRectangle_pixel_outside hg hout (List.replicate n 0) 1
    have hone : (blankDriver g (List.replicate n 0)).drawAll [.rectangle i 1 j 1 1]
        (List.replicate n 0) = some (List.replicate n 0) := by
      simpa [Driver.drawAll, readInt32Array, Draw.request, blankDriver] using hdraw
    exact (Option.some.inj (hone.symm.trans hmask)).symm
  obtain ⟨store, hspec, hstore⟩ := requestWrite_spec (blankDriver_ready g (List.replicate n 0)) mask
  rw [hspec] at hwrite
  obtain ⟨buf, hbuf, hd'⟩ := Option.map_eq_some_iff.mp hwrite
  obtain rfl : store buf = d' := congrArg Prod.fst hd'
  have hbuf0 : buf = List.replicate n 0 := by
    refine maskWriteLoops_empty (fun e he => ?_) hbuf
    rw [hmask0] at he
    exact List.eq_of_mem_replicate he
  have hfile0 : file' = List.replicate n 0 := by
    rw [(hstore buf).2.2, Files.write_node] at hnode
    rw [← hbuf0]
    exact (Node.regular.inj (Option.some.inj hnode)).symm
  -- the merged file must have the bit that the unchanged file has not
  obtain ⟨old, b, -, -, hbit⟩ := hmerged.masked i j hij
  have hcov : drawnBit [.rectangle i 1 j 1 1] i j b = true := by
    simp [drawnBit, Draw.Covers, Draw.bit]
  rw [hfile0, hcov, Bool.or_true, bitAt] at hbit
  obtain ⟨x, hx, hx1⟩ := Option.map_eq_some_iff.mp hbit
  have hx0 : x = 0 := List.eq_of_mem_replicate (mem_of_fetch hx)
  rw [hx0] at hx1
  exact absurd hx1 (by decide)

/-! ## Main result -/

end ADTimePix3.Mask
