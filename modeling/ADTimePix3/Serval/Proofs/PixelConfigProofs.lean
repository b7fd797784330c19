import ADTimePix3.Lib.IndexCounts
import ADTimePix3.Mask.Proofs.MaskIOProofs
import ADTimePix3.Serval.PixelConfig
import Mathlib.Data.List.GetD

/-!
# Comparing PixelConfig with the BPC file: proofs
-/

namespace ADTimePix3.Serval

open Mask Loops Buffers Square IndexCounts

variable {bpcBuf : List Byte} {replies : ℕ → Reply} {chip nChips k n : ℕ} {s : Fetch}

/-! ## One chip -/

/-- Staging writes one slice of `serValLinear`. -/
theorem stage_getElem? (decoded : List Byte) (offset : ℕ) (v : List Byte) (n : ℕ) :
    (stage decoded offset v)[n]? =
      if n < v.length ∧ offset ≤ n ∧ n - offset < min decoded.length kPixelConfigBytes then
        some (decoded.getD (n - offset) 0)
      else v[n]? := by
  have hset : stage decoded offset v =
      (List.range (min decoded.length kPixelConfigBytes)).foldl
        (fun v i => v.set (offset + i) (decoded.getD (offset + i - offset) 0)) v := by
    unfold stage
    congr 1
    funext v i
    rw [Nat.add_sub_cancel_left]
    by_cases hi : offset + i < v.length
    · rw [if_pos hi]
    · rw [if_neg hi, List.set_eq_of_length_le (by omega)]
  rw [hset, getElem?_foldl_set (fun i => offset + i) (fun n => decoded.getD (n - offset) 0)]
  have hmem : n ∈ (List.range (min decoded.length kPixelConfigBytes)).map (fun i => offset + i) ↔
      offset ≤ n ∧ n - offset < min decoded.length kPixelConfigBytes := by
    simp only [List.mem_map, List.mem_range]
    constructor
    · rintro ⟨i, hi, rfl⟩
      omega
    · rintro ⟨h1, h2⟩
      exact ⟨n - offset, h2, by omega⟩
  simp only [hmem]

theorem length_stage (decoded : List Byte) (offset : ℕ) (v : List Byte) :
    (stage decoded offset v).length = v.length := by
  refine length_foldl _ _ (fun v i => ?_) v
  split
  · rw [List.length_set]
  · rfl

theorem length_chipSlice (bpcBuf : List Byte) (chip : ℕ) :
    (chipSlice bpcBuf chip).length = min kPixelConfigBytes (bpcBuf.length - chip * kPixelConfigBytes) := by
  simp [chipSlice]

theorem chipSlice_getElem? {i : ℕ} (hi : i < kPixelConfigBytes) :
    (chipSlice bpcBuf chip)[i]? = bpcBuf[chip * kPixelConfigBytes + i]? := by
  rw [chipSlice, List.getElem?_take_of_lt hi, List.getElem?_drop]

/-- What the turn of the loop does for a reply that was not decoded. -/
theorem refreshChip_none (h : (replies chip).decoded = none) (bpcBuf : List Byte) (s : Fetch) :
    ∃ status, refreshChip bpcBuf chip (replies chip) s = s.setChip chip ⟨0, -1, 0, status⟩ := by
  unfold Reply.decoded at h
  unfold refreshChip
  by_cases hcode : (replies chip).statusCode ≠ 200
  · rw [if_pos hcode]
    exact ⟨_, rfl⟩
  · rw [if_neg hcode] at h ⊢
    cases hbody : (replies chip).body with
    | invalid what => exact ⟨_, rfl⟩
    | notString => exact ⟨_, rfl⟩
    | string b64 =>
      rw [hbody] at h
      simp only at h
      simp only [h]
      exact ⟨_, rfl⟩

theorem refreshChip_some {decoded : List Byte} (h : (replies chip).decoded = some decoded)
    (bpcBuf : List Byte) (s : Fetch) :
    refreshChip bpcBuf chip (replies chip) s = compareChip bpcBuf chip decoded s := by
  unfold Reply.decoded at h
  unfold refreshChip
  by_cases hcode : (replies chip).statusCode ≠ 200
  · rw [if_pos hcode] at h
    cases h
  · rw [if_neg hcode] at h ⊢
    cases hbody : (replies chip).body with
    | invalid what => rw [hbody] at h; cases h
    | notString => rw [hbody] at h; cases h
    | string b64 =>
      rw [hbody] at h
      simp only at h
      simp only [h]

/-- The bytes that the turn of the loop finds different. -/
def mismatchCount (bpcBuf : List Byte) (chip : ℕ) (decoded : List Byte) : ℕ :=
  (List.range (min decoded.length (chipSlice bpcBuf chip).length)).countP fun i =>
    decoded.getD i 0 ≠ bpcBuf.getD (chip * kPixelConfigBytes + i) 0

theorem compareChip_outside (decoded : List Byte) (h : bpcBuf.length ≤ chip * kPixelConfigBytes)
    (s : Fetch) : ∃ p : ChipParams, compareChip bpcBuf chip decoded s = s.setChip chip p ∧
      p.matchBPC ≠ 1 ∧ p.mismatchBytes = 0 := by
  unfold compareChip
  by_cases hempty : bpcBuf.length = 0
  · rw [if_pos hempty]
    exact ⟨_, rfl, by simp, rfl⟩
  · rw [if_neg hempty, if_pos h]
    exact ⟨_, rfl, by simp, rfl⟩

theorem compareChip_inside (decoded : List Byte) (h : chip * kPixelConfigBytes < bpcBuf.length)
    (s : Fetch) : ∃ p : ChipParams, compareChip bpcBuf chip decoded s =
        { s with
          chipDecoded := s.chipDecoded.set chip true
          serValLinear :=
            stage decoded (chip * kPixelConfigBytes) s.serValLinear : Fetch }.setChip chip p ∧
      (p.matchBPC = 1 ↔ mismatchCount bpcBuf chip decoded = 0 ∧
        decoded.length = (chipSlice bpcBuf chip).length) ∧
      p.mismatchBytes = mismatchCount bpcBuf chip decoded := by
  have hlen := length_chipSlice bpcBuf chip
  have hncmp : (if decoded.length < (chipSlice bpcBuf chip).length then decoded.length
      else (chipSlice bpcBuf chip).length) = min decoded.length (chipSlice bpcBuf chip).length := by
    split <;> omega
  unfold compareChip
  rw [if_neg (by omega), if_neg (by omega)]
  simp only [← hlen, hncmp]
  rw [← mismatchCount]
  by_cases hmis : mismatchCount bpcBuf chip decoded > 0
  · rw [if_pos hmis]
    exact ⟨_, rfl, ⟨fun h1 => absurd h1 (by simp), fun h1 => absurd h1.1 (by omega)⟩, rfl⟩
  · rw [if_neg hmis]
    have hzero : mismatchCount bpcBuf chip decoded = 0 := by omega
    by_cases hne : decoded.length ≠ (chipSlice bpcBuf chip).length
    · rw [if_pos hne]
      exact ⟨_, rfl, ⟨fun h1 => absurd h1 (by simp), fun h1 => absurd h1.2 hne⟩, by simp [hzero]⟩
    · rw [if_neg hne]
      exact ⟨_, rfl, ⟨fun _ => ⟨hzero, not_not.mp hne⟩, fun _ => rfl⟩, by simp [hzero]⟩

theorem mismatchCount_eq_zero_iff {decoded : List Byte}
    (hlen : decoded.length = (chipSlice bpcBuf chip).length) :
    mismatchCount bpcBuf chip decoded = 0 ↔ decoded = chipSlice bpcBuf chip := by
  have hslice := length_chipSlice bpcBuf chip
  unfold mismatchCount
  rw [List.countP_eq_zero]
  constructor
  · intro h
    refine List.ext_getElem hlen fun i h1 h2 => ?_
    have hb : chip * kPixelConfigBytes + i < bpcBuf.length := by omega
    have hi := h i (List.mem_range.mpr (by omega))
    simp only [List.getD_eq_getElem _ _ h1, List.getD_eq_getElem _ _ hb, decide_not,
      Bool.not_eq_true', Bool.not_eq_false, decide_eq_true_eq] at hi
    have hget : (chipSlice bpcBuf chip)[i]? = bpcBuf[chip * kPixelConfigBytes + i]? :=
      chipSlice_getElem? (by omega)
    rw [List.getElem?_eq_getElem h2, List.getElem?_eq_getElem hb] at hget
    rw [hi, Option.some.inj hget]
  · rintro rfl i hi
    have hi' := List.mem_range.mp hi
    rw [List.getD_eq_getElem?_getD, List.getD_eq_getElem?_getD, chipSlice_getElem? (by omega)]
    simp

/-- The bytes of a chip are compared: its reply was decoded and the file reaches it. -/
def Compared (bpcBuf : List Byte) (replies : ℕ → Reply) (chip : ℕ) : Prop :=
  (∃ decoded, (replies chip).decoded = some decoded) ∧ chip * kPixelConfigBytes < bpcBuf.length

/-- What the turn of the loop does for one chip. -/
theorem refreshChip_cases (bpcBuf : List Byte) (chip : ℕ) (replies : ℕ → Reply) (s : Fetch) :
    (∃ decoded p, (replies chip).decoded = some decoded ∧ chip * kPixelConfigBytes < bpcBuf.length ∧
      refreshChip bpcBuf chip (replies chip) s =
        { s with
          chipDecoded := s.chipDecoded.set chip true
          serValLinear := stage decoded (chip * kPixelConfigBytes) s.serValLinear : Fetch }.setChip chip p ∧
      (p.matchBPC = 1 ↔ mismatchCount bpcBuf chip decoded = 0 ∧
        decoded.length = (chipSlice bpcBuf chip).length) ∧
      p.mismatchBytes = mismatchCount bpcBuf chip decoded) ∨
    (∃ p, ¬ Compared bpcBuf replies chip ∧ refreshChip bpcBuf chip (replies chip) s = s.setChip chip p ∧
      p.matchBPC ≠ 1 ∧ p.mismatchBytes = 0) := by
  cases hdec : (replies chip).decoded with
  | none =>
    obtain ⟨status, h⟩ := refreshChip_none hdec bpcBuf s
    refine .inr ⟨_, ?_, h, by simp, rfl⟩
    rintro ⟨⟨decoded, hsome⟩, -⟩
    rw [hdec] at hsome
    cases hsome
  | some decoded =>
    rw [refreshChip_some hdec]
    rcases Nat.lt_or_ge (chip * kPixelConfigBytes) bpcBuf.length with hin | hout
    · obtain ⟨p, hp, hmatch, hmismatch⟩ := compareChip_inside decoded hin s
      exact .inl ⟨decoded, p, rfl, hin, hp, hmatch, hmismatch⟩
    · obtain ⟨p, hp, hmatch, hmismatch⟩ := compareChip_outside decoded hout s
      exact .inr ⟨p, fun h => absurd h.2 (by omega), hp, hmatch, hmismatch⟩

/-- The turn of the loop for one chip reports a match exactly for a reply that is its slice of the file. -/
theorem refreshChip_match (bpcBuf : List Byte) (chip : ℕ) (replies : ℕ → Reply) (s : Fetch) :
    ((refreshChip bpcBuf chip (replies chip) s).chips chip).matchBPC = 1 ↔
      (replies chip).decoded = some (chipSlice bpcBuf chip) ∧ chipSlice bpcBuf chip ≠ [] := by
  have hlen := length_chipSlice bpcBuf chip
  have hne : chipSlice bpcBuf chip ≠ [] ↔ chip * kPixelConfigBytes < bpcBuf.length := by
    rw [← List.length_pos_iff, hlen]
    unfold kPixelConfigBytes
    omega
  rcases refreshChip_cases bpcBuf chip replies s with
    ⟨decoded, p, hdec, hin, hp, hmatch, -⟩ | ⟨p, hcmp, hp, hmatch, -⟩
  · rw [hp, hdec]
    simp only [Fetch.setChip, Function.update_self, hmatch, Option.some_inj]
    constructor
    · rintro ⟨h1, h2⟩
      exact ⟨(mismatchCount_eq_zero_iff h2).mp h1, hne.mpr hin⟩
    · rintro ⟨h1, -⟩
      have h2 : decoded.length = (chipSlice bpcBuf chip).length := by rw [h1]
      exact ⟨(mismatchCount_eq_zero_iff h2).mpr h1, h2⟩
  · rw [hp]
    simp only [Fetch.setChip, Function.update_self]
    exact iff_of_false hmatch fun h => hcmp ⟨⟨_, h.1⟩, hne.mp h.2⟩

theorem refreshChip_staged (bpcBuf : List Byte) (chip : ℕ) (replies : ℕ → Reply) (s : Fetch) :
    (∃ decoded, (replies chip).decoded = some decoded ∧ Compared bpcBuf replies chip ∧
      (refreshChip bpcBuf chip (replies chip) s).chipDecoded = s.chipDecoded.set chip true ∧
      (refreshChip bpcBuf chip (replies chip) s).serValLinear =
        stage decoded (chip * kPixelConfigBytes) s.serValLinear) ∨
    (¬ Compared bpcBuf replies chip ∧
      (refreshChip bpcBuf chip (replies chip) s).chipDecoded = s.chipDecoded ∧
      (refreshChip bpcBuf chip (replies chip) s).serValLinear = s.serValLinear) := by
  rcases refreshChip_cases bpcBuf chip replies s with
    ⟨decoded, p, hdec, hin, hp, -, -⟩ | ⟨p, hcmp, hp, -, -⟩
  · exact .inl ⟨decoded, hdec, ⟨⟨decoded, hdec⟩, hin⟩, by rw [hp]; rfl, by rw [hp]; rfl⟩
  · exact .inr ⟨hcmp, by rw [hp]; rfl, by rw [hp]; rfl⟩

theorem refreshChip_other {c : ℕ} (hc : c ≠ chip) (bpcBuf : List Byte) (replies : ℕ → Reply) (s : Fetch) :
    (refreshChip bpcBuf chip (replies chip) s).chips c = s.chips c := by
  rcases refreshChip_cases bpcBuf chip replies s with ⟨_, p, -, -, hp, -, -⟩ | ⟨p, -, hp, -, -⟩
  · rw [hp]
    exact Function.update_of_ne hc _ _
  · rw [hp]
    exact Function.update_of_ne hc _ _

/-! ## The distance of two bytes -/

theorem distance_ne_zero_iff (bpcBuf : List Byte) (replies : ℕ → Reply) (k : ℕ) :
    distance bpcBuf replies k ≠ 0 ↔ ∃ decoded a b,
      (replies (k / kPixelConfigBytes)).decoded = some decoded ∧
        decoded[k % kPixelConfigBytes]? = some a ∧ bpcBuf[k]? = some b ∧ a ≠ b := by
  unfold distance
  cases hdec : (replies (k / kPixelConfigBytes)).decoded with
  | none => simp
  | some decoded =>
    cases ha : decoded[k % kPixelConfigBytes]? with
    | none => simp [ha]
    | some a =>
      cases hb : bpcBuf[k]? with
      | none => simp [ha]
      | some b =>
        have hab : |(a.toNat : ℤ) - b.toNat| ≠ 0 ↔ a ≠ b := by
          rw [ne_eq, abs_eq_zero, sub_eq_zero, Nat.cast_inj, BitVec.toNat_inj]
        simpa [ha] using hab

/-- `MismatchBytes` counts the bytes of the chip that are apart. -/
theorem refreshChip_mismatch (bpcBuf : List Byte) (chip : ℕ) (replies : ℕ → Reply) (s : Fetch) :
    ((refreshChip bpcBuf chip (replies chip) s).chips chip).mismatchBytes =
      (Nat.count (fun i => distance bpcBuf replies (chip * kPixelConfigBytes + i) ≠ 0)
        kPixelConfigBytes : ℕ) := by
  have hlen := length_chipSlice bpcBuf chip
  have happart : ∀ i < kPixelConfigBytes,
      (distance bpcBuf replies (chip * kPixelConfigBytes + i) ≠ 0 ↔ ∃ decoded a b,
        (replies chip).decoded = some decoded ∧ decoded[i]? = some a ∧
          bpcBuf[chip * kPixelConfigBytes + i]? = some b ∧ a ≠ b) := by
    intro i hi
    have hdiv : (chip * kPixelConfigBytes + i) / kPixelConfigBytes = chip ∧
        (chip * kPixelConfigBytes + i) % kPixelConfigBytes = i := by
      unfold kPixelConfigBytes at *
      omega
    rw [distance_ne_zero_iff, hdiv.1, hdiv.2]
  rcases refreshChip_cases bpcBuf chip replies s with
    ⟨decoded, p, hdec, hin, hp, -, hmismatch⟩ | ⟨p, hcmp, hp, -, hmismatch⟩
  · have hcount : mismatchCount bpcBuf chip decoded =
        Nat.count (fun i => distance bpcBuf replies (chip * kPixelConfigBytes + i) ≠ 0)
          kPixelConfigBytes := by
      rw [count_eq_of_le (m := min decoded.length (chipSlice bpcBuf chip).length) (by omega)]
      · unfold mismatchCount
        rw [countP_range]
        refine count_congr fun i hi => ?_
        have hi1 : i < decoded.length := by omega
        have hi2 : chip * kPixelConfigBytes + i < bpcBuf.length := by omega
        rw [happart i (by omega), hdec, List.getElem?_eq_getElem hi2, List.getD_eq_getElem _ _ hi1,
          List.getD_eq_getElem _ _ hi2]
        simp [List.getElem?_eq_getElem hi1]
      · intro i hmin hi hne
        obtain ⟨decoded', a, b, hdec', ha, hb, -⟩ := (happart i hi).mp hne
        obtain rfl := Option.some.inj (hdec.symm.trans hdec')
        have hi1 := (List.getElem?_eq_some_iff.mp ha).1
        have hi2 := (List.getElem?_eq_some_iff.mp hb).1
        omega
    rw [hp, ← hcount]
    simp [Fetch.setChip, hmismatch]
  · have hnone : ∀ i < kPixelConfigBytes, ¬ distance bpcBuf replies (chip * kPixelConfigBytes + i) ≠ 0 := by
      intro i hi hne
      obtain ⟨decoded, a, b, hdec, -, hb, -⟩ := (happart i hi).mp hne
      have hi2 := (List.getElem?_eq_some_iff.mp hb).1
      exact hcmp ⟨⟨decoded, hdec⟩, by omega⟩
    rw [hp, count_eq_of_le (Nat.zero_le _) fun i _ hi => hnone i hi]
    simp [Fetch.setChip, hmismatch]

/-! ## The loop over the chips -/

/-- What is known after the turns for the chips below `m`. -/
structure Fetched (bpcBuf : List Byte) (replies : ℕ → Reply) (nChips m : ℕ) (s : Fetch) : Prop where
  match_iff : ∀ c < m, ((s.chips c).matchBPC = 1 ↔
    (replies c).decoded = some (chipSlice bpcBuf c) ∧ chipSlice bpcBuf c ≠ [])
  mismatch_eq : ∀ c < m, (s.chips c).mismatchBytes =
    (Nat.count (fun i => distance bpcBuf replies (c * kPixelConfigBytes + i) ≠ 0)
      kPixelConfigBytes : ℕ)
  decoded_length : s.chipDecoded.length = nChips
  decoded_iff : ∀ c < nChips, (s.chipDecoded.getD c false = true ↔ c < m ∧ Compared bpcBuf replies c)
  staged_length : s.serValLinear.length = diffSize
  staged_eq : ∀ n < diffSize, n / kPixelConfigBytes < m →
    (n / kPixelConfigBytes) * kPixelConfigBytes < bpcBuf.length → ∀ decoded,
    (replies (n / kPixelConfigBytes)).decoded = some decoded →
    s.serValLinear.getD n 0 = decoded.getD (n % kPixelConfigBytes) 0
  unstaged : ∀ n < diffSize, m ≤ n / kPixelConfigBytes → s.serValLinear.getD n 0 = 0

theorem Fetched.start (bpcBuf : List Byte) (replies : ℕ → Reply) (nChips : ℕ) (chips : ℕ → ChipParams) :
    Fetched bpcBuf replies nChips 0
      ⟨chips, List.replicate diffSize 0, List.replicate nChips false⟩ where
  match_iff c hc := absurd hc (by omega)
  mismatch_eq c hc := absurd hc (by omega)
  decoded_length := List.length_replicate
  decoded_iff c hc := by simp [hc]
  staged_length := List.length_replicate
  staged_eq n _ hm := absurd hm (Nat.not_lt_zero _)
  unstaged n hn _ := by simp [hn]

/-- A staged byte, by its place in the detector. -/
theorem stage_getD {ser : List Byte} {n : ℕ} (hlen : ser.length = diffSize) (hn : n < diffSize) (decoded : List Byte)
    (m : ℕ) : (stage decoded (m * kPixelConfigBytes) ser).getD n 0 =
      if n / kPixelConfigBytes = m ∧ n % kPixelConfigBytes < decoded.length then
        decoded.getD (n % kPixelConfigBytes) 0
      else ser.getD n 0 := by
  have hw : 0 < kPixelConfigBytes := by decide
  have hmod := Nat.mod_lt n hw
  have hsplit := Nat.div_add_mod' n kPixelConfigBytes
  have hiff : (n < ser.length ∧ m * kPixelConfigBytes ≤ n ∧
      n - m * kPixelConfigBytes < min decoded.length kPixelConfigBytes) ↔
      n / kPixelConfigBytes = m ∧ n % kPixelConfigBytes < decoded.length := by
    rw [hlen]
    unfold kPixelConfigBytes at *
    omega
  rw [List.getD_eq_getElem?_getD, stage_getElem?]
  simp only [hiff]
  by_cases hin : n / kPixelConfigBytes = m ∧ n % kPixelConfigBytes < decoded.length
  · have hsub : n - m * kPixelConfigBytes = n % kPixelConfigBytes := by
      rw [← hin.1]
      omega
    rw [if_pos hin, if_pos hin, hsub, Option.getD_some]
  · rw [if_neg hin, if_neg hin, List.getD_eq_getElem?_getD]

/-- The parameters of the chips below `m + 1` after the turn for chip `m`. -/
theorem Fetched.chips_step {m : ℕ} (h : Fetched bpcBuf replies nChips m s) :
    (∀ c < m + 1, (((refreshChip bpcBuf m (replies m) s).chips c).matchBPC = 1 ↔
        (replies c).decoded = some (chipSlice bpcBuf c) ∧ chipSlice bpcBuf c ≠ [])) ∧
      ∀ c < m + 1, ((refreshChip bpcBuf m (replies m) s).chips c).mismatchBytes =
        (Nat.count (fun i => distance bpcBuf replies (c * kPixelConfigBytes + i) ≠ 0)
          kPixelConfigBytes : ℕ) := by
  refine ⟨fun c hc => ?_, fun c hc => ?_⟩
  · rcases Nat.lt_or_ge c m with hlt | hge
    · rw [refreshChip_other (by omega)]
      exact h.match_iff c hlt
    · obtain rfl : c = m := by omega
      exact refreshChip_match bpcBuf c replies s
  · rcases Nat.lt_or_ge c m with hlt | hge
    · rw [refreshChip_other (by omega)]
      exact h.mismatch_eq c hlt
    · obtain rfl : c = m := by omega
      exact refreshChip_mismatch bpcBuf c replies s

theorem Fetched.step {m : ℕ} (h : Fetched bpcBuf replies nChips m s) :
    Fetched bpcBuf replies nChips (m + 1) (refreshChip bpcBuf m (replies m) s) := by
  obtain ⟨hmatch, hmismatch⟩ := h.chips_step
  rcases refreshChip_staged bpcBuf m replies s with
    ⟨decoded, hdec, hcmp, hflags, hser⟩ | ⟨hcmp, hflags, hser⟩
  · refine ⟨hmatch, hmismatch, ?_, fun c hc => ?_, ?_, fun n hn hm hL dec hd => ?_, fun n hn hm => ?_⟩
    · rw [hflags, List.length_set, h.decoded_length]
    · rw [hflags, List.getD_eq_getElem?_getD, List.getElem?_set, h.decoded_length]
      by_cases hcm : m = c
      · obtain rfl := hcm
        simp [hc, hcmp]
      · rw [if_neg hcm, ← List.getD_eq_getElem?_getD, h.decoded_iff c hc]
        have hlt : c < m ↔ c < m + 1 := by omega
        rw [hlt]
    · rw [hser, length_stage, h.staged_length]
    · rw [hser, stage_getD h.staged_length hn]
      by_cases hnm : n / kPixelConfigBytes = m
      · rw [hnm, hdec] at hd
        obtain rfl := Option.some.inj hd
        by_cases hshort : n % kPixelConfigBytes < decoded.length
        · rw [if_pos ⟨hnm, hshort⟩]
        · rw [if_neg fun hh => hshort hh.2, h.unstaged n hn (by omega),
            List.getD_eq_default _ _ (by omega)]
      · rw [if_neg fun hh => hnm hh.1]
        exact h.staged_eq n hn (by omega) hL dec hd
    · rw [hser, stage_getD h.staged_length hn, if_neg (by omega)]
      exact h.unstaged n hn (by omega)
  · refine ⟨hmatch, hmismatch, by rw [hflags, h.decoded_length], fun c hc => ?_,
      by rw [hser, h.staged_length], fun n hn hm hL dec hd => ?_, fun n hn hm => ?_⟩
    · rw [hflags, h.decoded_iff c hc]
      constructor
      · rintro ⟨h1, h2⟩
        exact ⟨by omega, h2⟩
      · rintro ⟨h1, h2⟩
        have hne : c ≠ m := fun heq => hcmp (heq ▸ h2)
        exact ⟨by omega, h2⟩
    · rw [hser]
      have hne : n / kPixelConfigBytes ≠ m := by
        intro heq
        rw [heq] at hL hd
        exact hcmp ⟨⟨dec, hd⟩, hL⟩
      exact h.staged_eq n hn (by omega) hL dec hd
    · rw [hser]
      exact h.unstaged n hn (by omega)

theorem fetchChips_fetched (bpcBuf : List Byte) (nChips : ℕ) (replies : ℕ → Reply)
    (chips : ℕ → ChipParams) : Fetched bpcBuf replies nChips nChips
      (fetchChips bpcBuf nChips replies
        ⟨chips, List.replicate diffSize 0, List.replicate nChips false⟩) := by
  have hrun : ∀ m, Fetched bpcBuf replies nChips m
      (fetchChips bpcBuf m replies
        ⟨chips, List.replicate diffSize 0, List.replicate nChips false⟩) := by
    intro m
    induction m with
    | zero => exact Fetched.start bpcBuf replies nChips chips
    | succ m ih =>
      rw [fetchChips, List.range_succ, List.foldl_append]
      exact ih.step
  exact hrun nChips

end ADTimePix3.Serval
