import ADTimePix3.Mask.BpcBounds
import ADTimePix3.Mask.Proofs.MaskIOProofs

/-!
# Proofs: the buffer of a BPC file

Whether an iteration of the loops makes an access outside the buffer or the waveform is up to its loop variables
alone, for the loops change neither length; so a call runs if and only if every iteration of its loops does.
-/

namespace ADTimePix3.Mask.Bpc

open Loops MachineInt
open Img (toInt32)

variable {r : Reader} {reason : Reason} {d : Driver} {g : Geometry} {rc : RowsCols} {value value' : List Word}
  {buffer buffer' file : List Byte} {b b' : Byte} {i j : ℤ}

/-! ## The file -/

theorem nMaskedPel_loop (buffer : List Byte) (n : ℕ) (hn : n ≤ buffer.length) :
    forLoop 0 n (fun i n => do
      let b ← fetch buffer i
      some (if b.getLsbD 0 then n + 1 else n)) 0 = some ((buffer.take n).countP fun b => b.getLsbD 0) := by
  induction n with
  | zero => rfl
  | succ n ih =>
    obtain ⟨b, hb, hget⟩ := fetch_eq buffer (Int.natCast_nonneg n) (Int.ofNat_lt.mpr hn)
    rw [Int.toNat_natCast] at hget
    rw [forLoop_succ, ih (by omega), Option.bind_some, hb, List.take_add_one, hget, List.countP_append,
      Option.toList_some, List.countP_singleton]
    show some (if b.getLsbD 0 then _ else _) = _
    split <;> rfl

theorem nMaskedPel_of_lt (h : buffer.length < 2 ^ 31) :
    nMaskedPel buffer = some (buffer.countP fun b => b.getLsbD 0) := by
  have hfits : Fits buffer.length := ⟨by omega, by omega⟩
  unfold nMaskedPel
  rw [nMaskedPel_loop buffer buffer.length le_rfl, List.take_length, int_of_fits hfits]
  rfl

theorem nMaskedPel_of_le (h : 2 ^ 31 ≤ buffer.length) : nMaskedPel buffer = none := by
  have hfits : ¬Fits buffer.length := fun hfits => by
    have := hfits.2
    omega
  unfold nMaskedPel
  rw [nMaskedPel_loop buffer buffer.length le_rfl, int, if_neg hfits]
  rfl

theorem read_nil (r : Reader) : (r.read []).getD [] = [] := by
  cases hread : r.read [] with
  | none => rfl
  | some buffer => exact List.length_eq_zero_iff.mp (r.length_eq hread)

theorem readBPCfile_eq (r : Reader) (d : Driver) :
    (readBPCfile r d = some (d, []) ∧ bufBPC r d = []) ∨
      readBPCfile r d = (nMaskedPel (bufBPC r d)).map fun n => ({ d with bpcN := n }, bufBPC r d) := by
  unfold readBPCfile bufBPC fileBytes
  simp only
  cases d.files.readable (d.bpcFilePath ++ d.bpcFileName) with
  | false => exact .inl ⟨rfl, rfl⟩
  | true =>
    cases d.files.node (d.bpcFilePath ++ d.bpcFileName) with
    | none => exact .inl ⟨rfl, read_nil r⟩
    | some node =>
      cases node with
      | directory => exact .inl ⟨rfl, read_nil r⟩
      | other => exact .inl ⟨rfl, read_nil r⟩
      | regular bytes =>
        simp only [if_true]
        cases r.read bytes with
        | none => exact .inl ⟨rfl, rfl⟩
        | some buffer =>
          refine .inr ?_
          rw [Option.map_eq_bind]
          rfl

/-- What is read is the buffer, unless that has more bytes than an `int` can count. -/
theorem readBPCfile_of_lt (h : (bufBPC r d).length < 2 ^ 31) :
    ∃ n, readBPCfile r d = some ({ d with bpcN := n }, bufBPC r d) := by
  rcases readBPCfile_eq r d with ⟨hread, hempty⟩ | hread
  · exact ⟨d.bpcN, by rw [hread, hempty]⟩
  · rw [hread, nMaskedPel_of_lt h]
    exact ⟨_, rfl⟩

theorem readBPCfile_of_le (h : 2 ^ 31 ≤ (bufBPC r d).length) : readBPCfile r d = none := by
  rcases readBPCfile_eq r d with ⟨-, hempty⟩ | hread
  · rw [hempty] at h
    simp at h
  · rw [hread, nMaskedPel_of_le h]
    rfl

/-! ## The geometry -/

theorem divide_eq_some {a b : ℤ} (hb : b ≠ 0) (h : b = -1 → a ≠ -2 ^ 31) : divide a b = some (a.tdiv b) := by
  refine if_neg ?_
  rintro (h0 | ⟨ha, h1⟩)
  · exact hb h0
  · exact h h1 ha

theorem rowsCols_of_divides (h : Divides g) :
    rowsCols g = some { Mask.rowsCols g with cols := cols g } := by
  unfold rowsCols
  rw [divide_eq_some h.1 fun h1 => (h.2 h1).1, divide_eq_some h.1 fun h1 => (h.2 h1).2]
  rfl

theorem rowsCols_of_not_divides (h : ¬Divides g) : rowsCols g = none := by
  unfold rowsCols divide
  by_cases h0 : g.rowLen = 0
  · simp [h0]
  · by_cases h1 : g.rowLen = -1
    · have hmin : g.numChips = -2 ^ 31 ∨ g.numberOfRows = -2 ^ 31 := by
        by_contra hne
        exact h ⟨h0, fun _ => ⟨fun hc => hne (.inl hc), fun hr => hne (.inr hr)⟩⟩
      rcases hmin with hmin | hmin
      · simp [h1, hmin]
      · simp [h1, hmin]
    · exact absurd ⟨h0, fun hr => absurd hr h1⟩ h

theorem chipPelWidth_ne_zero (h : 0 < cols g) : (Mask.rowsCols g).chipPelWidth ≠ 0 := by
  intro h0
  have hcols : (Mask.rowsCols g).cols = 0 := by
    show (Mask.rowsCols g).yChips * (Mask.rowsCols g).chipPelWidth = 0
    rw [h0, Int.mul_zero]
  rw [cols, hcols] at h
  exact absurd h (by decide)

/-- In the loops the divisions of `findChip` are defined. -/
theorem pelIndex_eq (hg : Divides g) (hcols : 0 < cols g) (hi : 0 ≤ i) (hj : 0 ≤ j) :
    pelIndex g i j = some (toInt32 (Mask.pelIndex g i j)) := by
  have hwidth := chipPelWidth_ne_zero hcols
  unfold pelIndex findChip
  rw [rowsCols_of_divides hg]
  show ((divide i (Mask.rowsCols g).chipPelWidth).bind fun _ => _).bind _ = _
  rw [divide_eq_some hwidth (by omega)]
  show ((divide j (Mask.rowsCols g).chipPelWidth).bind fun _ => _).bind _ = _
  rw [divide_eq_some hwidth (by omega)]
  rfl

/-! ## Showing a file -/

/-- `MaskPel` tests every index that it uses. -/
theorem maskPelPel_isSome (hg : Divides g) (hrc : rc.cols = cols g) (hj : 0 ≤ j) (hjc : j < rc.cols) (hi : 0 ≤ i)
    (buffer : List Byte) (value : List Word) : (maskPelPel g rc buffer i j value).isSome := by
  have hidx : 0 ≤ j * rc.cols + i := Int.add_nonneg (Int.mul_nonneg hj (by omega)) hi
  unfold maskPelPel
  simp only
  split
  · rfl
  · rename_i hlt
    rw [pelIndex_eq hg (by omega) hi hj]
    show (if _ then _ else _ : Option (List Word)).isSome
    split
    · rename_i hk
      obtain ⟨b, hb, -⟩ := fetch_eq buffer hk.1 hk.2
      rw [hb]
      show (if b.getLsbD 0 then _ else _ : Option (List Word)).isSome
      split
      · exact isSome_update_iff.mpr ⟨hidx, by omega⟩
      · rfl
    · rfl

theorem maskPelLoops_isSome (hg : Divides g) (hrc : rc.cols = cols g) (buffer : List Byte) (value : List Word) :
    (maskPelLoops g rc buffer value).isSome :=
  forLoop_isSome (fun _ value hj hjc =>
    forLoop_isSome (fun _ value hi _ => maskPelPel_isSome hg hrc hj hjc hi buffer value) value) value

/-! ## Writing a file -/

/-- A pixel of `MaskWrite` makes no access outside. -/
def WriteOk (g : Geometry) (value : List Word) (size : ℕ) (i j : ℤ) : Prop :=
  ∃ e, fetch value (toInt32 (j * cols g + i)) = some e ∧
    (e.getLsbD 0 → 0 ≤ toInt32 (Mask.pelIndex g i j) ∧ toInt32 (Mask.pelIndex g i j) < size)

theorem maskWritePel_isSome_iff (hg : Divides g) (hrc : rc.cols = cols g) (hj : 0 ≤ j) (hjc : j < rc.cols)
    (hi : 0 ≤ i) (value : List Word) (buffer : List Byte) :
    (maskWritePel g rc value i j buffer).isSome ↔ WriteOk g value buffer.length i j := by
  unfold maskWritePel WriteOk
  rw [hrc, pelIndex_eq hg (by omega) hi hj]
  cases fetch value (toInt32 (j * cols g + i)) with
  | none => simp
  | some e =>
    show (if e.getLsbD 0 then update buffer (toInt32 (Mask.pelIndex g i j)) _ else some buffer).isSome ↔ _
    by_cases hbit : e.getLsbD 0
    · rw [if_pos hbit, isSome_update_iff]
      exact ⟨fun h => ⟨e, rfl, fun _ => h⟩, fun ⟨e', he, h⟩ => h (Option.some.inj he ▸ hbit)⟩
    · rw [if_neg hbit]
      exact iff_of_true rfl ⟨e, rfl, fun h => absurd h hbit⟩

theorem length_of_maskWritePel (h : maskWritePel g rc value i j buffer = some buffer') :
    buffer'.length = buffer.length := by
  obtain ⟨e, -, h⟩ := Option.bind_eq_some_iff.mp h
  split at h
  · obtain ⟨k, -, h⟩ := Option.bind_eq_some_iff.mp h
    exact length_of_update h
  · rw [Option.some.inj h]

theorem maskWriteLoops_isSome_iff (hg : Divides g) (hrc : rc.cols = cols g) (value : List Word)
    (buffer : List Byte) :
    (maskWriteLoops g rc value buffer).isSome ↔
      ∀ j, 0 ≤ j → j < rc.cols → ∀ i, 0 ≤ i → i < rc.rows → WriteOk g value buffer.length i j := by
  refine forLoop_isSome_iff (I := fun b => b.length = buffer.length) ?_ ?_ rfl
  · intro j b hj hjc hlength
    refine forLoop_isSome_iff (I := fun b => b.length = buffer.length) ?_ ?_ hlength
    · intro i b hi _ hlength
      rw [← hlength]
      exact maskWritePel_isSome_iff hg hrc hj hjc hi value b
    · intro i b b' _ _ hlength h
      rw [length_of_maskWritePel h, hlength]
  · intro j b b' _ _ hlength h
    refine forLoop_invariant (I := fun b => b.length = buffer.length) ?_ hlength h
    intro i b b' _ _ hlength h
    rw [length_of_maskWritePel h, hlength]

theorem toInt32_of_lt (h0 : 0 ≤ i) (h : i < 2 ^ 31) : toInt32 i = i := by
  unfold toInt32
  omega

/-- Past the largest `int`, an index is negative. -/
theorem toInt32_neg (h0 : 2 ^ 31 ≤ i) (h : i < 2 ^ 32) : toInt32 i < 0 := by
  unfold toInt32
  omega

theorem cols_lt (g : Geometry) : cols g < 2 ^ 31 := by
  unfold cols toInt32
  omega

/-- If the last index is not one of an `int`, there is one that is negative. -/
theorem exists_negative_index {rows columns : ℤ} (hrows : 0 < rows) (hcols : 0 < columns) (hlt : columns < 2 ^ 31)
    (hlast : 2 ^ 31 ≤ (columns - 1) * columns + (rows - 1)) :
    ∃ i j, (0 ≤ i ∧ i < rows) ∧ (0 ≤ j ∧ j < columns) ∧ toInt32 (j * columns + i) < 0 := by
  by_cases hrow : (columns - 1) * columns < 2 ^ 31
  · refine ⟨2 ^ 31 - (columns - 1) * columns, columns - 1, ⟨by omega, by omega⟩, ⟨by omega, by omega⟩, ?_⟩
    exact toInt32_neg (by omega) (by omega)
  · -- the first row whose index in front is too large
    have hdiv : (2 ^ 31 - 1) / columns * columns + (2 ^ 31 - 1) % columns = 2 ^ 31 - 1 :=
      Int.ediv_mul_add_emod (2 ^ 31 - 1) columns
    have hmod : (2 ^ 31 - 1) % columns < columns := Int.emod_lt_of_pos _ hcols
    have hmod0 : 0 ≤ (2 ^ 31 - 1) % columns := Int.emod_nonneg _ hcols.ne'
    have hnonneg : 0 ≤ (2 ^ 31 - 1) / columns := Int.ediv_nonneg (by omega) hcols.le
    have hfirst : ((2 ^ 31 - 1) / columns + 1) * columns = (2 ^ 31 - 1) / columns * columns + columns := by
      rw [Int.add_mul, Int.one_mul]
    have hle : (2 ^ 31 - 1) / columns + 1 ≤ columns - 1 := by
      by_contra hgt
      have hprod : (columns - 1) * columns ≤ (2 ^ 31 - 1) / columns * columns :=
        Int.mul_le_mul_of_nonneg_right (by omega) hcols.le
      omega
    exact ⟨0, (2 ^ 31 - 1) / columns + 1, ⟨le_rfl, hrows⟩, ⟨by omega, by omega⟩,
      toInt32_neg (by omega) (by omega)⟩

theorem index_le_last {rows columns : ℤ} (hi : 0 ≤ i ∧ i < rows) (hj : 0 ≤ j ∧ j < columns) :
    0 ≤ j * columns + i ∧ j * columns + i ≤ (columns - 1) * columns + (rows - 1) := by
  have hcols : 0 ≤ columns := by omega
  have hnonneg : 0 ≤ j * columns := Int.mul_nonneg hj.1 hcols
  have hprod : j * columns ≤ (columns - 1) * columns := Int.mul_le_mul_of_nonneg_right (by omega) hcols
  omega

/-- The loops of `MaskWrite` make no access outside if and only if they fit. -/
theorem writeFits_iff (hrows : 0 < g.numberOfRows) (hcols : 0 < cols g) :
    (∀ j, 0 ≤ j → j < cols g → ∀ i, 0 ≤ i → i < g.numberOfRows → WriteOk g value buffer.length i j) ↔
      WriteFits g value buffer := by
  constructor
  · intro h
    have hfetch : ∀ i j, (0 ≤ i ∧ i < g.numberOfRows) → (0 ≤ j ∧ j < cols g) →
        0 ≤ toInt32 (j * cols g + i) ∧ toInt32 (j * cols g + i) < value.length := by
      intro i j hi hj
      obtain ⟨e, he, -⟩ := h j hj.1 hj.2 i hi.1 hi.2
      exact isSome_fetch_iff.mp (he ▸ rfl)
    have hint : (cols g - 1) * cols g + (g.numberOfRows - 1) < 2 ^ 31 := by
      by_contra hlast
      obtain ⟨i, j, hi, hj, hneg⟩ := exists_negative_index hrows hcols (cols_lt g) (by omega)
      have := (hfetch i j hi hj).1
      omega
    have hwrap : ∀ i j, (0 ≤ i ∧ i < g.numberOfRows) → (0 ≤ j ∧ j < cols g) →
        toInt32 (j * cols g + i) = j * cols g + i := by
      intro i j hi hj
      have hle := index_le_last hi hj
      exact toInt32_of_lt hle.1 (by omega)
    refine ⟨?_, fun i j hi hj e he hbit => ?_⟩
    · have hlast := hfetch (g.numberOfRows - 1) (cols g - 1) ⟨by omega, by omega⟩ ⟨by omega, by omega⟩
      rw [hwrap _ _ ⟨by omega, by omega⟩ ⟨by omega, by omega⟩] at hlast
      exact lt_min hlast.2 hint
    · obtain ⟨e', he', hk⟩ := h j hj.1 hj.2 i hi.1 hi.2
      rw [hwrap i j hi hj, he] at he'
      exact hk (Option.some.inj he' ▸ hbit)
  · rintro ⟨hlast, hdrawn⟩ j hj hjc i hi hir
    have hle := index_le_last ⟨hi, hir⟩ ⟨hj, hjc⟩
    obtain ⟨hlength, hint⟩ := lt_min_iff.mp hlast
    obtain ⟨e, he, -⟩ := fetch_eq value hle.1 (by omega)
    refine ⟨e, ?_, hdrawn i j ⟨hi, hir⟩ ⟨hj, hjc⟩ e he⟩
    rw [toInt32_of_lt hle.1 (by omega), he]

/-! ## Reading a file -/

theorem bpcLoop_of_le (h : value.length ≤ buffer.length) :
    bpcLoop buffer value = some ((buffer.take value.length).map element) := by
  have hloop : ∀ n ≤ value.length, forLoop 0 n (fun i value => do
      let b ← fetch buffer i
      update value i fun _ => element b) value = some ((buffer.take n).map element ++ value.drop n) := by
    intro n hn
    induction n with
    | zero => rfl
    | succ n ih =>
      obtain ⟨b, hb, hget⟩ := fetch_eq buffer (Int.natCast_nonneg n) (Int.ofNat_lt.mpr (by omega))
      rw [Int.toNat_natCast] at hget
      have hlength : ((buffer.take n).map element).length = n := by
        rw [List.length_map, List.length_take]
        omega
      have hupdate := update_append ((buffer.take n).map element) value[n] (value.drop (n + 1)) fun _ => element b
      rw [hlength] at hupdate
      rw [forLoop_succ, ih (by omega), Option.bind_some, hb, List.drop_eq_getElem_cons (by omega)]
      show update _ _ _ = _
      rw [hupdate, List.take_add_one, hget, Option.toList_some, List.map_append, List.append_assoc]
      rfl
  rw [bpcLoop, hloop value.length le_rfl, List.drop_length, List.append_nil]

theorem bpcLoop_isSome_iff (buffer : List Byte) (value : List Word) :
    (bpcLoop buffer value).isSome ↔ value.length ≤ buffer.length := by
  have hiff : (bpcLoop buffer value).isSome ↔ ∀ i : ℤ, 0 ≤ i → i < value.length → i < buffer.length := by
    refine forLoop_isSome_iff (I := fun v => v.length = value.length) ?_ ?_ rfl
    · intro i v hi hlt hlength
      cases hfetch : fetch buffer i with
      | none =>
        have hnot := isSome_fetch_iff.not.mp (by rw [hfetch]; simp : ¬(fetch buffer i).isSome)
        exact iff_of_false (by simp) fun hb => hnot ⟨hi, hb⟩
      | some b =>
        have hb := isSome_fetch_iff.mp (by rw [hfetch]; rfl : (fetch buffer i).isSome)
        exact iff_of_true (isSome_update_iff.mpr ⟨hi, by omega⟩) hb.2
    · intro i v v' _ _ hlength h
      obtain ⟨b, -, h⟩ := Option.bind_eq_some_iff.mp h
      rw [length_of_update h, hlength]
  rw [hiff]
  constructor
  · intro h
    by_contra hlt
    have := h buffer.length (Int.natCast_nonneg _) (by omega)
    omega
  · intro h i _ hi
    omega

/-- What a byte becomes: one above 127 is taken for a negative number. -/
theorem toNat_element (b : Byte) :
    (element b).toNat = if b.toNat < 128 then expected b else 2 ^ 32 - 256 + b.toNat := by
  revert b
  decide +kernel

theorem expected_lt (b : Byte) : expected b < 512 := by
  have hb := b.isLt
  unfold expected
  split <;> omega

theorem expected_mod (b : Byte) : expected b % 256 = b.toNat := by
  have hb := b.isLt
  unfold expected
  split <;> omega

/-- An element is what is expected for a byte if it comes from that byte and this is not above 127. -/
theorem element_eq_iff (b b' : Byte) :
    element b' = BitVec.ofNat 32 (expected b) ↔ b' = b ∧ b.toNat < 128 := by
  have hlt := expected_lt b
  rw [← BitVec.toNat_inj, BitVec.toNat_ofNat, Nat.mod_eq_of_lt (hlt.trans (by decide)), toNat_element]
  constructor
  · intro h
    split at h
    · have hb : b' = b := by rw [← BitVec.toNat_inj, ← expected_mod b', h, expected_mod b]
      exact ⟨hb, hb ▸ by assumption⟩
    · omega
  · rintro ⟨rfl, hb⟩
    rw [if_pos hb]

theorem getElem?_bpc {value' : List Word} (h : bpcLoop buffer value = some value') {n : ℕ} (hn : n < value.length) :
    ∃ b, buffer[n]? = some b ∧ value'[n]? = some (element b) := by
  have hle := (bpcLoop_isSome_iff buffer value).mp (by rw [h]; rfl)
  rw [bpcLoop_of_le hle] at h
  obtain rfl := Option.some.inj h
  refine ⟨buffer[n], List.getElem?_eq_getElem (by omega), ?_⟩
  rw [List.getElem?_map, List.getElem?_take_of_lt hn, List.getElem?_eq_getElem (by omega), Option.map_some]

/-- The loop runs and gives what is expected if and only if it fits. -/
theorem bpcFits_iff :
    (∃ value', bpcLoop buffer value = some value' ∧ ∀ (n : ℕ) b, n < value.length → n < buffer.length →
        file[n]? = some b → value'[n]? = some (BitVec.ofNat 32 (expected b))) ↔
      BpcFits file buffer value := by
  constructor
  · rintro ⟨value', hloop, hright⟩
    have hle := (bpcLoop_isSome_iff buffer value).mp (by rw [hloop]; rfl)
    refine ⟨hle, fun n b hn hb => ?_⟩
    obtain ⟨b', hb', hvalue⟩ := getElem?_bpc hloop hn
    have helement := Option.some.inj (hvalue.symm.trans (hright n b hn (by omega) hb))
    obtain ⟨rfl, hlt⟩ := (element_eq_iff b b').mp helement
    exact ⟨hb', hlt⟩
  · rintro ⟨hle, hbytes⟩
    refine ⟨_, bpcLoop_of_le hle, fun n b hn _ hb => ?_⟩
    obtain ⟨hb', hlt⟩ := hbytes n b hn hb
    rw [List.getElem?_map, List.getElem?_take_of_lt hn, hb', Option.map_some, (element_eq_iff b b).mpr ⟨rfl, hlt⟩]

/-! ## The branches -/

theorem maskPel_isSome_iff (hfile : checkFile d.files (d.bpcFilePath ++ d.bpcFileName) = 2) (value : List Word) :
    (maskPel r d value).isSome ↔ (bufBPC r d).length < 2 ^ 31 ∧ Divides d.geometry := by
  unfold maskPel
  rw [if_pos hfile]
  by_cases hlt : (bufBPC r d).length < 2 ^ 31
  · obtain ⟨n, hread⟩ := readBPCfile_of_lt hlt
    rw [hread]
    show ((rowsCols d.geometry).bind fun rc => if (bufBPC r d).length > 0 then
      (maskPelLoops d.geometry rc (bufBPC r d) (value.map fun _ => 0)).bind fun v => some _ else some _).isSome ↔ _
    by_cases hg : Divides d.geometry
    · refine iff_of_true ?_ ⟨hlt, hg⟩
      have hloops : (maskPelLoops d.geometry { Mask.rowsCols d.geometry with cols := cols d.geometry } (bufBPC r d)
          (value.map fun _ => 0)).isSome := maskPelLoops_isSome hg rfl _ _
      obtain ⟨v, hv⟩ := Option.isSome_iff_exists.mp hloops
      rw [rowsCols_of_divides hg, Option.bind_some, hv]
      split <;> rfl
    · rw [rowsCols_of_not_divides hg]
      exact iff_of_false (by simp) fun h => hg h.2
  · rw [readBPCfile_of_le (by omega)]
    exact iff_of_false (by simp) fun h => hlt h.1

theorem writeOk_iff (value : List Word) (buffer : List Byte) :
    (∀ j, 0 ≤ j → j < cols g → ∀ i, 0 ≤ i → i < g.numberOfRows → WriteOk g value buffer.length i j) ↔
      (0 < g.numberOfRows → 0 < cols g → WriteFits g value buffer) := by
  by_cases hrows : 0 < g.numberOfRows
  · by_cases hcols : 0 < cols g
    · rw [writeFits_iff hrows hcols]
      exact ⟨fun h _ _ => h, fun h => h hrows hcols⟩
    · exact iff_of_true (fun j hj hjc => absurd (hj.trans_lt hjc) hcols) fun _ h => absurd h hcols
  · exact iff_of_true (fun j _ _ i hi hir => absurd (hi.trans_lt hir) hrows) fun h => absurd h hrows

theorem maskWrite_isSome_iff (hfile : checkFile d.files (d.bpcFilePath ++ d.bpcFileName) = 2) (value : List Word) :
    (maskWrite r d value).isSome ↔ (bufBPC r d).length < 2 ^ 31 ∧ Divides d.geometry ∧
      (0 < d.geometry.numberOfRows → 0 < cols d.geometry → WriteFits d.geometry value (bufBPC r d)) := by
  unfold maskWrite
  rw [if_pos hfile]
  by_cases hlt : (bufBPC r d).length < 2 ^ 31
  · obtain ⟨n, hread⟩ := readBPCfile_of_lt hlt
    rw [hread]
    show ((rowsCols d.geometry).bind fun rc =>
      (maskWriteLoops d.geometry rc value (bufBPC r d)).bind fun b => some _).isSome ↔ _
    by_cases hg : Divides d.geometry
    · have hloops : (maskWriteLoops d.geometry { Mask.rowsCols d.geometry with cols := cols d.geometry } value
          (bufBPC r d)).isSome ↔ _ := maskWriteLoops_isSome_iff hg rfl value (bufBPC r d)
      rw [← writeOk_iff, and_iff_right hlt, and_iff_right hg, rowsCols_of_divides hg, Option.bind_some]
      refine Iff.trans ?_ hloops
      cases maskWriteLoops d.geometry { Mask.rowsCols d.geometry with cols := cols d.geometry } value
        (bufBPC r d) with
      | none => simp
      | some b => simp
    · rw [rowsCols_of_not_divides hg]
      exact iff_of_false (by simp) fun h => hg h.2.1
  · rw [readBPCfile_of_le (by omega)]
    exact iff_of_false (by simp) fun h => hlt h.1

theorem bpc_right_iff (hfile : checkFile d.files (d.bpcFilePath ++ d.bpcFileName) = 2) (value : List Word) :
    (∃ d' value', bpc r d value = some (d', value') ∧ ∀ (n : ℕ) b, n < value.length → n < (bufBPC r d).length →
        (fileBytes d)[n]? = some b → value'[n]? = some (BitVec.ofNat 32 (expected b))) ↔
      (bufBPC r d).length < 2 ^ 31 ∧ (0 < (bufBPC r d).length → BpcFits (fileBytes d) (bufBPC r d) value) := by
  unfold bpc
  rw [if_pos hfile]
  by_cases hlt : (bufBPC r d).length < 2 ^ 31
  · obtain ⟨n, hread⟩ := readBPCfile_of_lt hlt
    rw [hread, and_iff_right hlt]
    show (∃ d' value', (if (bufBPC r d).length > 0 then
      (bpcLoop (bufBPC r d) value).bind fun v => some (_, v) else some (_, value)) = some (d', value') ∧ _) ↔ _
    by_cases hempty : 0 < (bufBPC r d).length
    · rw [if_pos hempty, ← bpcFits_iff]
      constructor
      · rintro ⟨d', value', hloop, hright⟩ -
        obtain ⟨v, hv, heq⟩ := Option.bind_eq_some_iff.mp hloop
        obtain ⟨-, rfl⟩ := Prod.mk.inj (Option.some.inj heq)
        exact ⟨v, hv, hright⟩
      · intro h
        obtain ⟨v, hv, hright⟩ := h hempty
        exact ⟨_, v, by rw [hv]; rfl, hright⟩
    · rw [if_neg hempty]
      refine iff_of_true ⟨_, value, rfl, fun n b _ hn => ?_⟩ fun h => absurd h hempty
      exact absurd (Nat.zero_lt_of_lt hn) hempty
  · rw [readBPCfile_of_le (by omega)]
    refine iff_of_false ?_ fun h => hlt h.1
    rintro ⟨d', value', h, -⟩
    cases h

/-- The branches keep to the buffer and the waveform, and the one of `ADTimePixBPC` gives what is expected, exactly
when they are harmless. -/
theorem right_iff (r : Reader) (reason : Reason) (d : Driver) (value : List Word) :
    Right r reason d value ↔ Harmless r reason d value := by
  unfold Right Harmless
  cases reason with
  | bpc =>
    refine or_congr_right ?_
    by_cases hfile : checkFile d.files (d.bpcFilePath ++ d.bpcFileName) = 2
    · simp only [hfile, forall_const]
      exact bpc_right_iff hfile value
    · refine iff_of_true ⟨d, value, if_neg hfile, fun _ h => absurd h hfile⟩ fun h => absurd h hfile
  | maskBPC =>
    by_cases hdraw : Drawing d
    · exact iff_of_true (.inl ⟨rfl, hdraw⟩) (.inl ⟨rfl, hdraw⟩)
    · refine or_congr_right ?_
      have hsome : (∃ d' value', readInt32Array r .maskBPC d value = some (d', value') ∧
          (Reason.maskBPC = .bpc → checkFile d.files (d.bpcFilePath ++ d.bpcFileName) = 2 → ∀ (i : ℕ) b,
            i < value.length → i < (bufBPC r d).length → (fileBytes d)[i]? = some b →
              value'[i]? = some (BitVec.ofNat 32 (expected b)))) ↔
          (readInt32Array r .maskBPC d value).isSome := by
        rw [Option.isSome_iff_exists]
        exact ⟨fun ⟨d', value', h, _⟩ => ⟨(d', value'), h⟩, fun ⟨out, h⟩ => ⟨out.1, out.2, h, nofun⟩⟩
      rw [hsome]
      unfold readInt32Array
      simp only [if_neg hdraw]
      by_cases hfile : checkFile d.files (d.bpcFilePath ++ d.bpcFileName) = 2
      · simp only [hfile, forall_const]
        split
        · exact maskPel_isSome_iff hfile value
        · split
          · exact maskWrite_isSome_iff hfile value
          · exact iff_of_true rfl trivial
      · refine iff_of_true ?_ fun h => absurd h hfile
        unfold maskPel maskWrite
        simp only [if_neg hfile]
        split_ifs <;> rfl

/-! ## Exact arithmetic -/

/-- Nothing overflows for any pixel. -/
structure Exact (g : Geometry) : Prop where
  divides : Divides g
  cols_fit : Fits (Mask.rowsCols g).cols
  pixel_fit : ∀ i j, (0 ≤ i ∧ i < g.numberOfRows) → (0 ≤ j ∧ j < (Mask.rowsCols g).cols) →
    Fits (j * (Mask.rowsCols g).cols + i) ∧ Fits (Mask.pelIndex g i j)

theorem toInt32_of_fits (h : Fits i) : toInt32 i = i := by
  obtain ⟨hlo, hhi⟩ := h
  unfold toInt32
  omega

theorem Exact.rowsCols_eq (hg : Exact g) : rowsCols g = some (Mask.rowsCols g) := by
  have hcols : cols g = (Mask.rowsCols g).cols := toInt32_of_fits hg.cols_fit
  rw [rowsCols_of_divides hg.divides, hcols]

theorem Exact.pelIndex_eq (hg : Exact g) (hi : 0 ≤ i ∧ i < g.numberOfRows)
    (hj : 0 ≤ j ∧ j < (Mask.rowsCols g).cols) : pelIndex g i j = some (Mask.pelIndex g i j) := by
  have hcols : cols g = (Mask.rowsCols g).cols := toInt32_of_fits hg.cols_fit
  rw [Bpc.pelIndex_eq hg.divides (by omega) hi.1 hj.1, toInt32_of_fits (hg.pixel_fit i j hi hj).2]

theorem maskPelLoops_eq (hg : Exact g) (buffer : List Byte) (value : List Word) :
    maskPelLoops g (Mask.rowsCols g) buffer value = Mask.maskPelLoops g buffer value := by
  refine forLoop_congr (fun j hj hjc value => forLoop_congr (fun i hi hir value => ?_) value) value
  unfold maskPelPel
  rw [hg.pelIndex_eq ⟨hi, hir⟩ ⟨hj, hjc⟩]
  rfl

theorem maskWriteLoops_eq (hg : Exact g) (value : List Word) (buffer : List Byte) :
    maskWriteLoops g (Mask.rowsCols g) value buffer = Mask.maskWriteLoops g value buffer := by
  refine forLoop_congr (fun j hj hjc buffer => forLoop_congr (fun i hi hir buffer => ?_) buffer) buffer
  unfold maskWritePel
  rw [hg.pelIndex_eq ⟨hi, hir⟩ ⟨hj, hjc⟩, toInt32_of_fits (hg.pixel_fit i j ⟨hi, hir⟩ ⟨hj, hjc⟩).1]
  rfl

theorem readBPCfile_exact (hr : r.read (fileBytes d) = some (fileBytes d)) (hlt : (fileBytes d).length < 2 ^ 31) :
    readBPCfile r d = some (Mask.readBPCfile d) := by
  unfold fileBytes at hr hlt
  unfold readBPCfile Mask.readBPCfile
  simp only
  cases d.files.readable (d.bpcFilePath ++ d.bpcFileName) with
  | false => rfl
  | true =>
    cases hnode : d.files.node (d.bpcFilePath ++ d.bpcFileName) with
    | none => rfl
    | some node =>
      cases node with
      | directory => rfl
      | other => rfl
      | regular bytes =>
        rw [hnode] at hr hlt
        change r.read bytes = some bytes at hr
        simp only [hr, nMaskedPel_of_lt hlt]
        rfl

/-- Where a file is read right and nothing overflows, the branches are those of the model with exact arithmetic. -/
theorem readInt32Array_eq (hr : r.read (fileBytes d) = some (fileBytes d)) (hlt : (fileBytes d).length < 2 ^ 31)
    (hg : Exact d.geometry) : readInt32Array r .maskBPC d value = Mask.readInt32Array d value := by
  have hgeometry : (Mask.readBPCfile d).1.geometry = d.geometry := by
    unfold Mask.readBPCfile
    simp only
    split <;> rfl
  unfold readInt32Array
  simp only
  split
  · rfl
  · rename_i hdraw
    obtain ⟨hreset, hrectangle, hcircle⟩ : d.maskReset ≠ 1 ∧ d.maskRectangle ≠ 1 ∧ d.maskCircle ≠ 1 :=
      ⟨fun h => hdraw (.inl h), fun h => hdraw (.inr (.inl h)), fun h => hdraw (.inr (.inr h))⟩
    unfold Mask.readInt32Array maskPel maskWrite
    have hg' : Exact (Mask.readBPCfile d).1.geometry := hgeometry.symm ▸ hg
    rw [if_neg hreset, if_neg hrectangle, if_neg hcircle, readBPCfile_exact hr hlt]
    simp only [Option.bind_eq_bind, Option.bind_some, hg'.rowsCols_eq, maskPelLoops_eq hg', maskWriteLoops_eq hg']

/-- A supported geometry whose last index and whose file an `int` can count is exact. -/
theorem exact_of_supported {w : ℤ} (hw : 1 ≤ w) (hg : Supported w g)
    (hindex : (imageHeight g w - 1) * imageHeight g w + imageWidth g w ≤ 2 ^ 31) (hsize : fileSize g w < 2 ^ 31) :
    Exact g := by
  obtain ⟨hrows, hcols⟩ := rowsCols_supported hg
  change g.numberOfRows = imageWidth g w at hrows
  obtain ⟨hwidth, hheight⟩ := image_pos hw hg
  have hle : imageHeight g w ≤ imageHeight g w * imageWidth g w := le_mul_of_one_le_right hheight.le hwidth
  rw [← fileSize_eq hg] at hle
  refine ⟨⟨?_, ?_⟩, ?_, fun i j hi hj => ⟨?_, ?_⟩⟩
  · cases hg <;> simp only [ne_eq] <;> omega
  · cases hg <;> intro h <;> simp only at h <;> omega
  · rw [hcols]
    exact ⟨by omega, by omega⟩
  · rw [hcols] at hj ⊢
    rw [hrows] at hi
    have hlast := index_le_last hi hj
    exact ⟨by omega, by omega⟩
  · rw [hcols] at hj
    rw [hrows] at hi
    obtain ⟨h0, hlt⟩ := pelIndex_mem hw hg ⟨hi.1, hi.2, hj.1, hj.2⟩
    exact ⟨by omega, by omega⟩

/-! ## Drawing, writing and reading back -/

theorem length_of_maskWriteLoops {mask : List Word} {file file' : List Byte}
    (h : Mask.maskWriteLoops g mask file = some file') : file'.length = file.length := by
  refine forLoop_invariant (I := fun b => b.length = file.length) ?_ rfl h
  intro j b b' _ _ hlength hrow
  refine forLoop_invariant (I := fun b => b.length = file.length) ?_ hlength hrow
  intro i b b' _ _ hlength hpel
  obtain ⟨e, -, hpel⟩ := Option.bind_eq_some_iff.mp hpel
  split at hpel
  · rw [length_of_update hpel, hlength]
  · rw [← Option.some.inj hpel, hlength]

theorem fileBytes_eq (h : d.files.node (d.bpcFilePath ++ d.bpcFileName) = some (.regular file)) :
    fileBytes d = file := by
  rw [fileBytes, h]

/-- The file that was written is the one that is shown, of the same size and for the same detector. -/
theorem written {d d' : Driver} {mask : List Word} (hd : d.Ready file) {file' : List Byte}
    (hwrite : Mask.readInt32Array d.requestWrite mask = some (d', mask))
    (hnode : d'.files.node d.maskPath = some (.regular file')) :
    d'.requestRead.geometry = d.geometry ∧ fileBytes d'.requestRead = file' ∧ file'.length = file.length := by
  obtain ⟨store, hspec, hstore⟩ := requestWrite_spec hd mask
  rw [hspec] at hwrite
  obtain ⟨buffer, hbuffer, hd'⟩ := Option.map_eq_some_iff.mp hwrite
  obtain rfl : store buffer = d' := congrArg Prod.fst hd'
  obtain ⟨hgeometry, hpath, hfiles⟩ := hstore buffer
  obtain rfl : buffer = file' := by
    rw [hfiles, Files.write_node] at hnode
    exact Node.regular.inj (Option.some.inj hnode)
  exact ⟨hgeometry, fileBytes_eq (by rw [← hnode, ← hpath]; rfl), length_of_maskWriteLoops hbuffer⟩

theorem checkedAgree_iff_maskAgree {w : ℤ} (hg : Exact g) (hsize : fileSize g w < 2 ^ 31) :
    CheckedAgree g w ↔ MaskAgree g w := by
  have hwrite : ∀ (d : Driver) (file : List Byte) (mask : List Word), d.geometry = g → d.Ready file →
      (file.length : ℤ) = fileSize g w →
      readInt32Array exactReader .maskBPC d.requestWrite mask = Mask.readInt32Array d.requestWrite mask := by
    intro d file mask hd hready hfile
    have hbytes : fileBytes d.requestWrite = file := fileBytes_eq hready.bpc_node
    refine readInt32Array_eq rfl (by rw [hbytes]; omega) ?_
    show Exact d.geometry
    rwa [hd]
  have hread : ∀ (d d' : Driver) (file file' : List Byte) (mask value' : List Word), d.geometry = g →
      d.Ready file → (file.length : ℤ) = fileSize g w →
      Mask.readInt32Array d.requestWrite mask = some (d', mask) →
      d'.files.node d.maskPath = some (.regular file') →
      readInt32Array exactReader .maskBPC d'.requestRead value' = Mask.readInt32Array d'.requestRead value' := by
    intro d d' file file' mask value' hd hready hfile hmask hnode
    obtain ⟨hgeometry, hbytes, hlength⟩ := written hready hmask hnode
    refine readInt32Array_eq rfl (by rw [hbytes]; omega) ?_
    rwa [hgeometry, hd]
  constructor
  · intro h d file value value' draws hd hready hfile hv hv' hdraws
    obtain ⟨mask, d', file', d'', shown, hmask, hput, hnode, hmerged, hshow, hshown⟩ :=
      h d file value value' draws hd hready hfile hv hv' hdraws
    rw [hwrite d file mask hd hready hfile] at hput
    rw [hread d d' file file' mask value' hd hready hfile hput hnode] at hshow
    exact ⟨mask, d', file', d'', shown, hmask, hput, hnode, hmerged, hshow, hshown⟩
  · intro h d file value value' draws hd hready hfile hv hv' hdraws
    obtain ⟨mask, d', file', d'', shown, hmask, hput, hnode, hmerged, hshow, hshown⟩ :=
      h d file value value' draws hd hready hfile hv hv' hdraws
    refine ⟨mask, d', file', d'', shown, hmask, ?_, hnode, hmerged, ?_, hshown⟩
    · rw [hwrite d file mask hd hready hfile, hput]
    · rw [hread d d' file file' mask value' hd hready hfile hput hnode, hshow]

/-- With checked accesses and the arithmetic of an `int`, drawing, writing and reading back agree on the same
detectors, as long as an `int` can count their pixels. -/
theorem checkedAgree_iff_square {w : ℤ} (hw : 1 ≤ w) (hg : Supported w g)
    (hindex : (imageHeight g w - 1) * imageHeight g w + imageWidth g w ≤ 2 ^ 31) (hsize : fileSize g w < 2 ^ 31) :
    CheckedAgree g w ↔ imageWidth g w = imageHeight g w := by
  rw [checkedAgree_iff_maskAgree (exact_of_supported hw hg hindex hsize) hsize]
  constructor
  · intro hagree
    by_contra hsq
    exact not_maskAgree_of_not_square hw hg hsq hagree
  · exact maskAgree_of_square hw hg

theorem checkedAgree_iff_square_quad :
    CheckedAgree ⟨3, 4, 2, 2 * 256⟩ 256 ↔
      imageWidth ⟨3, 4, 2, 2 * 256⟩ 256 = imageHeight ⟨3, 4, 2, 2 * 256⟩ 256 :=
  checkedAgree_iff_square (by decide) (.quad 3 (by decide) (by decide)) (by decide) (by decide)

/-! ## What goes wrong -/

theorem not_right_of_none (hdraw : ¬(reason = .maskBPC ∧ Drawing d)) (h : readInt32Array r reason d value = none) :
    ¬Right r reason d value := by
  rintro (hd | ⟨d', value', hsome, -⟩)
  · exact hdraw hd
  · cases h.symm.trans hsome

/-- A waveform of two elements is read from a file of one byte; a pixel is drawn into the buffer of an empty file;
and a byte of 128 becomes a negative number. -/
theorem not_right :
    ¬Right exactReader .bpc (blankDriver ⟨0, 1, 1, 1⟩ [0]) [0, 0] ∧
      ¬Right exactReader .maskBPC { blankDriver ⟨0, 1, 1, 1⟩ [] with maskWrite := 1 } [1] ∧
      ¬Right exactReader .bpc (blankDriver ⟨0, 1, 1, 1⟩ [128]) [0] := by
  refine ⟨not_right_of_none (by decide) (by decide +kernel), not_right_of_none (by decide) (by decide +kernel), ?_⟩
  rintro (⟨h, -⟩ | ⟨d', value', h, hright⟩)
  · cases h
  · have hread : (readInt32Array exactReader .bpc (blankDriver ⟨0, 1, 1, 1⟩ [128]) [0]).map (·.2) =
        some [BitVec.ofInt 32 (-128)] := by decide +kernel
    rw [h] at hread
    obtain rfl := Option.some.inj hread
    exact absurd (hright rfl (by decide) 0 128 (by decide) (by decide) (by decide)) (by decide)

end ADTimePix3.Mask.Bpc
