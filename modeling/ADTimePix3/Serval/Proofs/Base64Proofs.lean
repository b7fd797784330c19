import ADTimePix3.Serval.PixelConfig
import Mathlib.Data.Nat.ModEq
import Mathlib.Tactic.Ring

/-!
# Base64: proofs

The accumulator of `decodeBase64` is shifted for every character and never masked. What matters of it are its low
`valb + 8` bits: there it is congruent to the accumulator of `Base64.regroup`, which is not bounded by a word.
-/

namespace ADTimePix3.Serval

open Mask Base64

variable {b64 bs cs out : List Byte} {c : Byte} {val val' : BitVec 32} {acc k p v : ℕ}

/-! ## One character -/

theorem ne_of_isSpace (h : isSpace c = true) : c ≠ 61 := by
  rintro rfl
  exact absurd h (by decide)

theorem isSpace_digit : ∀ v < 64, isSpace (digit v) = false := by decide +kernel

theorem digit_ne : ∀ v < 64, digit v ≠ 61 := by decide +kernel

theorem digit_ne_zero : ∀ v < 64, digit v ≠ 0 := by decide +kernel

theorem kChars_digit : ∀ v < 64, kChars[v]? = some (digit v) := by decide +kernel

theorem strchr_digit : ∀ v < 64, strchr (digit v) = some v := by decide +kernel

theorem length_kChars : kChars.length = 64 := by decide +kernel

/-- What `strchr` finds: the alphabet at its six-bit values, and the NUL behind it. -/
theorem strchr_eq_some_iff : strchr c = some p ↔ (p < 64 ∧ c = digit p) ∨ (p = 64 ∧ c = 0) := by
  constructor
  · intro h
    unfold strchr at h
    split_ifs at h with hc
    · rw [length_kChars] at h
      exact Or.inr ⟨(Option.some.inj h).symm, hc⟩
    · obtain ⟨hp, hat, -⟩ := List.findIdx?_eq_some_iff_getElem.mp h
      have hp64 : p < 64 := length_kChars ▸ hp
      have hdigit := kChars_digit p hp64
      rw [List.getElem?_eq_getElem hp, Option.some.injEq] at hdigit
      exact Or.inl ⟨hp64, by rw [← hdigit]; exact (beq_iff_eq.mp hat).symm⟩
  · rintro (⟨hp, rfl⟩ | ⟨rfl, rfl⟩)
    · exact strchr_digit p hp
    · rw [strchr, if_pos rfl, length_kChars]

theorem mem_alphabet : c ∈ alphabet ↔ ∃ v < 64, c = digit v := by
  simp only [alphabet, List.mem_map, List.mem_range]
  exact exists_congr fun v => and_congr_right fun _ => eq_comm

/-- A character has a value unless it is neither in the alphabet nor the NUL. -/
theorem strchr_isSome_iff : (strchr c).isSome ↔ c ∈ alphabet ∨ c = 0 := by
  rw [Option.isSome_iff_exists, mem_alphabet]
  constructor
  · rintro ⟨v, hv⟩
    rcases strchr_eq_some_iff.mp hv with ⟨hlt, hc⟩ | ⟨-, hc⟩
    · exact Or.inl ⟨v, hlt, hc⟩
    · exact Or.inr hc
  · rintro (⟨v, hlt, hc⟩ | hc)
    · exact ⟨v, strchr_eq_some_iff.mpr (Or.inl ⟨hlt, hc⟩)⟩
    · exact ⟨64, strchr_eq_some_iff.mpr (Or.inr ⟨rfl, hc⟩)⟩

/-! ## The loop -/

/-- The shift of the accumulator is a multiplication as far as the pending bits are concerned. -/
theorem toNat_shift_add (hk : k + 6 ≤ 32) (h : val.toNat % 2 ^ k = acc % 2 ^ k) (p : ℕ) :
    ((val <<< 6) + BitVec.ofNat 32 p).toNat % 2 ^ (k + 6) = (acc * 64 + p) % 2 ^ (k + 6) := by
  have hdvd : 2 ^ (k + 6) ∣ 2 ^ 32 := Nat.pow_dvd_pow 2 hk
  have hmul : val.toNat * 64 ≡ acc * 64 [MOD 2 ^ (k + 6)] := by
    rw [Nat.pow_add]
    exact Nat.ModEq.mul_right' 64 h
  rw [BitVec.toNat_add, BitVec.toNat_shiftLeft, BitVec.toNat_ofNat, Nat.shiftLeft_eq, ← Nat.add_mod,
    Nat.mod_mod_of_dvd _ hdvd]
  exact Nat.ModEq.add_right p hmul

/-- The bits above the pending ones do not reach the byte that is taken. -/
theorem setWidth_sshiftRight {m n : ℕ} (hm : m = n + 8) (hm32 : m ≤ 32)
    (h : val.toNat % 2 ^ m = acc % 2 ^ m) :
    (val.sshiftRight n).setWidth 8 = BitVec.ofNat 8 (acc / 2 ^ n) := by
  apply BitVec.eq_of_getLsbD_eq
  intro i hi
  have hbit := congrArg (fun x => x.testBit (n + i)) h
  simp only [Nat.testBit_mod_two_pow, show n + i < m by omega, decide_true, Bool.true_and] at hbit
  rw [BitVec.getLsbD_setWidth, BitVec.getLsbD_sshiftRight, BitVec.getLsbD_ofNat, Nat.testBit_div_two_pow]
  simp [hi, show n + i < 32 by omega, show i < 32 by omega, ← hbit, BitVec.getLsbD, Nat.add_comm]

/-- The values of the characters before the first `=`. -/
def values (b64 : List Byte) : Option (List ℕ) :=
  ((beforePadding b64).filter fun c => !isSpace c).mapM strchr

theorem beforePadding_padding : beforePadding (61 :: cs) = [] := rfl

theorem beforePadding_cons (hne : c ≠ 61) : beforePadding (c :: cs) = c :: beforePadding cs := by
  have h : (c != 61) = true := bne_iff_ne.mpr hne
  simp only [beforePadding, List.takeWhile_cons, h, if_true]

theorem values_of_space (hsp : isSpace c = true) : values (c :: cs) = values cs := by
  rw [values, beforePadding_cons (ne_of_isSpace hsp), List.filter_cons_of_neg (by simp [hsp])]
  rfl

theorem values_of_padding : values (61 :: cs) = some [] := by
  rw [values, beforePadding_padding]
  rfl

theorem values_cons (hsp : isSpace c = false) (hne : c ≠ 61) :
    values (c :: cs) = (strchr c).bind fun p => (values cs).map (p :: ·) := by
  rw [values, beforePadding_cons hne, List.filter_cons_of_pos (by simp [hsp]), List.mapM_cons]
  cases strchr c with
  | none => rfl
  | some p => exact Option.map_eq_bind.symm

/-- The loop regroups the values of the characters; it depends on the pending bits of `val` only. -/
theorem decodeLoop_eq (hk : k < 8) (h : val.toNat % 2 ^ k = acc % 2 ^ k) (out : List Byte) :
    decodeLoop b64 val (k - 8) out = (values b64).map fun vs => out ++ regroup vs acc k := by
  induction b64 generalizing val acc k out with
  | nil => simp [decodeLoop, values, beforePadding, regroup]
  | cons c cs ih =>
    rw [decodeLoop]
    split_ifs with hsp heq
    · rw [values_of_space hsp]
      exact ih hk h out
    · rw [heq]
      have hv : values (61 :: cs) = some [] := values_of_padding
      rw [hv, Option.map_some, regroup, List.append_nil]
    · rw [values_cons (by simpa using hsp) heq]
      cases hp : strchr c with
      | none => rfl
      | some p =>
        have hval := toNat_shift_add (by omega) h p
        simp only [Option.bind_some, Option.map_map]
        by_cases hk2 : k < 2
        · have hneg : ¬ ((k : ℤ) - 8 + 6 ≥ 0) := by omega
          have hvalb : (k : ℤ) - 8 + 6 = ((k + 6 : ℕ) : ℤ) - 8 := by push_cast; ring
          rw [if_neg hneg, hvalb, ih (by omega) hval]
          congr 1
          funext vs
          simp only [Function.comp, regroup_cons_of_lt hk2]
        · have hpos : (k : ℤ) - 8 + 6 ≥ 0 := by omega
          have hvalb : (k : ℤ) - 8 + 6 - 8 = ((k - 2 : ℕ) : ℤ) - 8 := by omega
          have hnat : ((k : ℤ) - 8 + 6).toNat = k - 2 := by omega
          have hmod := congrArg (· % 2 ^ (k - 2)) hval
          simp only [Nat.mod_mod_of_dvd _ (Nat.pow_dvd_pow 2 (show k - 2 ≤ k + 6 by omega))] at hmod
          rw [if_pos hpos, hvalb, hnat, setWidth_sshiftRight (by omega) (by omega) hval,
            ih (by omega) (hmod.trans (Nat.mod_mod _ _).symm)]
          congr 1
          funext vs
          simp only [Function.comp, regroup_cons_of_le (show 2 ≤ k by omega), List.append_assoc,
            List.singleton_append]

theorem decodeBase64_eq (b64 : List Byte) :
    decodeBase64 b64 = (values b64).map fun vs => regroup vs 0 0 := by
  have hval : (0 : BitVec 32).toNat % 2 ^ 0 = 0 % 2 ^ 0 := rfl
  have h : decodeLoop b64 0 ((0 : ℕ) - 8) [] = _ := decodeLoop_eq (by omega) hval []
  simpa [decodeBase64] using h

/-- The bits that the shifts have dropped or pushed up never influence the output. -/
theorem decodeLoop_congr (hk : k < 8) (h : val.toNat % 2 ^ k = val'.toNat % 2 ^ k) (out : List Byte) :
    decodeLoop b64 val (k - 8) out = decodeLoop b64 val' (k - 8) out := by
  rw [decodeLoop_eq hk h out, decodeLoop_eq hk rfl out]

/-! ## The round trip -/

theorem filter_beforePadding (b64 : List Byte) :
    (beforePadding b64).filter (fun c => !isSpace c) = beforePadding (b64.filter fun c => !isSpace c) := by
  induction b64 with
  | nil => rfl
  | cons c cs ih =>
    by_cases hsp : isSpace c = true
    · rw [beforePadding_cons (ne_of_isSpace hsp), List.filter_cons_of_neg (by simp [hsp]),
        List.filter_cons_of_neg (by simp [hsp]), ih]
    · rw [List.filter_cons_of_pos (by simp [hsp])]
      by_cases heq : c = 61
      · rw [heq]
        rfl
      · rw [beforePadding_cons heq, beforePadding_cons heq, List.filter_cons_of_pos (by simp [hsp]), ih]

theorem beforePadding_eq_self (h : 61 ∉ cs) : beforePadding cs = cs := by
  induction cs with
  | nil => rfl
  | cons c cs ih =>
    rw [List.mem_cons, not_or] at h
    rw [beforePadding_cons (Ne.symm h.1), ih h.2]

theorem beforePadding_append_padding (h : 61 ∉ cs) (bs : List Byte) :
    beforePadding (cs ++ padding bs) = cs := by
  induction cs with
  | nil =>
    rw [List.nil_append, padding]
    cases (3 - bs.length % 3) % 3 with
    | zero => rfl
    | succ n => rfl
  | cons c cs ih =>
    rw [List.mem_cons, not_or] at h
    rw [List.cons_append, beforePadding_cons (Ne.symm h.1), ih h.2]

theorem padding_not_mem_encode (bs : List Byte) : 61 ∉ encode bs := by
  intro h
  obtain ⟨v, hv, heq⟩ := List.mem_map.mp h
  exact digit_ne v (sextets_lt bs v hv) heq

theorem mapM_strchr_digit {vs : List ℕ} (h : ∀ v ∈ vs, v < 64) : (vs.map digit).mapM strchr = some vs := by
  induction vs with
  | nil => rfl
  | cons v vs ih =>
    rw [List.map_cons, List.mapM_cons, strchr_digit v (h v List.mem_cons_self),
      ih fun w hw => h w (List.mem_cons_of_mem v hw)]
    rfl

/-- Whatever the padding and the whitespace, the text has the values of the bytes. -/
theorem values_of_encodes (h : Encodes bs b64) : values b64 = some (sextets bs) := by
  have henc : beforePadding (b64.filter fun c => !isSpace c) = encode bs := by
    rcases h with h | h
    · rw [h, beforePadding_eq_self (padding_not_mem_encode bs)]
    · rw [h, beforePadding_append_padding (padding_not_mem_encode bs)]
  rw [values, filter_beforePadding, henc, encode, mapM_strchr_digit (sextets_lt bs)]

/-- Every encoding of a byte string, padded or not and with whitespace anywhere in it, is decoded to the byte
string; of the accumulator the pending bits alone matter, at every point of the loop. -/
theorem decodeBase64_of_encodes (h : Encodes bs b64) :
    decodeBase64 b64 = some bs ∧
      ∀ (rest out : List Byte) (val val' : BitVec 32) (k : ℕ), k < 8 →
        val.toNat % 2 ^ k = val'.toNat % 2 ^ k →
          decodeLoop rest val (k - 8) out = decodeLoop rest val' (k - 8) out := by
  constructor
  · rw [decodeBase64_eq, values_of_encodes h, Option.map_some, regroup_sextets]
  · intro rest out val val' k hk hval
    exact decodeLoop_congr hk hval out

/-- Four bytes with padding, a blank and a line break in their encoding. -/
theorem decodeBase64_of_encodes_four :
    decodeBase64 [84, 87, 32, 70, 117, 13, 10, 47, 119, 61, 32, 61] = some [77, 97, 110, 255] :=
  (decodeBase64_of_encodes (show Encodes [77, 97, 110, 255]
    [84, 87, 32, 70, 117, 13, 10, 47, 119, 61, 32, 61] by decide +kernel)).1

/-! ## What is accepted -/

theorem mapM_strchr_isSome_iff : (cs.mapM strchr).isSome ↔ ∀ c ∈ cs, (strchr c).isSome := by
  induction cs with
  | nil => simp
  | cons c cs ih =>
    rw [List.mapM_cons, List.forall_mem_cons, ← ih]
    cases strchr c with
    | none => simp
    | some v => cases cs.mapM strchr <;> simp

theorem length_of_mapM {vs : List ℕ} (h : cs.mapM strchr = some vs) : vs.length = cs.length := by
  induction cs generalizing vs with
  | nil =>
    obtain rfl := Option.some.inj h
    rfl
  | cons c cs ih =>
    rw [List.mapM_cons] at h
    simp only [Option.bind_eq_bind, Option.bind_eq_some_iff] at h
    obtain ⟨v, -, ws, hws, hvs⟩ := h
    obtain rfl := Option.some.inj hvs
    rw [List.length_cons, List.length_cons, ih hws]

/-- A text is accepted when its characters before the first `=` are whitespace, of the alphabet or NUL. -/
theorem decodeBase64_isSome_iff :
    (decodeBase64 b64).isSome ↔ ∀ c ∈ beforePadding b64, isSpace c ∨ c ∈ alphabet ∨ c = 0 := by
  rw [decodeBase64_eq, Option.isSome_map, values, mapM_strchr_isSome_iff]
  constructor
  · intro h c hc
    by_cases hsp : isSpace c = true
    · exact Or.inl hsp
    · exact Or.inr (strchr_isSome_iff.mp (h c (List.mem_filter.mpr ⟨hc, by simp [hsp]⟩)))
  · intro h c hc
    obtain ⟨hmem, hsp⟩ := List.mem_filter.mp hc
    rcases h c hmem with hsp' | hstr
    · rw [hsp'] at hsp
      exact absurd hsp (by decide)
    · exact strchr_isSome_iff.mpr hstr

/-- The output has a byte for every eight bits of the characters that are not whitespace. -/
theorem length_decodeBase64 (h : decodeBase64 b64 = some out) :
    out.length = 3 * (beforePadding b64).countP (fun c => !isSpace c) / 4 := by
  rw [decodeBase64_eq, Option.map_eq_some_iff] at h
  obtain ⟨vs, hvs, rfl⟩ := h
  rw [length_regroup (by omega), length_of_mapM hvs, ← List.countP_eq_length_filter]
  omega

theorem isSpace_of_mem_alphabet (h : c ∈ alphabet) : isSpace c = false := by
  obtain ⟨v, hv, rfl⟩ := mem_alphabet.mp h
  exact isSpace_digit v hv

theorem zero_not_mem_alphabet : (0 : Byte) ∉ alphabet := by
  intro h
  obtain ⟨v, hv, heq⟩ := mem_alphabet.mp h
  exact digit_ne_zero v hv heq.symm

/-- Where no NUL precedes the first `=`, what `strchr` accepts is the alphabet. -/
theorem strict_of_not_mem (h : 0 ∉ beforePadding b64) : Strict b64 := by
  have hiff : (decodeBase64 b64).isSome ↔ ∀ c ∈ beforePadding b64, isSpace c ∨ c ∈ alphabet := by
    rw [decodeBase64_isSome_iff]
    refine forall₂_congr fun c hc => or_congr_right ?_
    have hne : c ≠ 0 := fun h0 => h (h0 ▸ hc)
    rw [or_iff_left hne]
  refine ⟨hiff, fun out hout => ?_⟩
  have hacc := hiff.mp (Option.isSome_of_eq_some hout)
  constructor
  · rw [length_decodeBase64 hout]
    congr 2
    refine List.countP_congr fun c hc => ?_
    rcases hacc c hc with hsp | hmem
    · have hnot : c ∉ alphabet := fun hmem => by
        rw [isSpace_of_mem_alphabet hmem] at hsp
        exact absurd hsp (by decide)
      simp [hsp, hnot]
    · simp [isSpace_of_mem_alphabet hmem, hmem]
  · intro c hc
    refine (hacc c hc).imp_right fun hmem => ?_
    obtain ⟨v, hv, rfl⟩ := mem_alphabet.mp hmem
    exact ⟨v, hv, strchr_digit v hv⟩

/-- Acceptance is that of the alphabet exactly for the texts in which no NUL precedes the first `=`, or in which
something else before it is refused. -/
theorem strict_iff : Strict b64 ↔ NulRejected b64 := by
  constructor
  · rintro ⟨hiff, -⟩
    by_contra hnul
    rw [NulRejected, not_or, not_not, not_exists] at hnul
    obtain ⟨h0, hother⟩ := hnul
    have hacc : (decodeBase64 b64).isSome := by
      refine decodeBase64_isSome_iff.mpr fun c hc => ?_
      by_contra hc'
      rw [not_or, not_or] at hc'
      exact hother c ⟨hc, by simpa using hc'.1, hc'.2.1, hc'.2.2⟩
    rcases hiff.mp hacc 0 h0 with hsp | hmem
    · exact absurd hsp (by decide)
    · exact zero_not_mem_alphabet hmem
  · rintro (h0 | ⟨c, hc, hsp, hmem, hne⟩)
    · exact strict_of_not_mem h0
    · have hnone : ¬ (decodeBase64 b64).isSome := by
        intro hacc
        rcases decodeBase64_isSome_iff.mp hacc c hc with h | h | h
        · rw [h] at hsp
          exact absurd hsp (by decide)
        · exact hmem h
        · exact hne h
      refine ⟨iff_of_false hnone fun hall => ?_, fun out hout => ?_⟩
      · rcases hall c hc with h | h
        · rw [h] at hsp
          exact absurd hsp (by decide)
        · exact hmem h
      · exact absurd (Option.isSome_of_eq_some hout) hnone

/-- A NUL behind three characters of the alphabet is decoded as a fourth character, of value 64. -/
theorem not_strict_nul : ¬ Strict [65, 65, 65, 0] ∧ decodeBase64 [65, 65, 65, 0] = some [0, 0, 64] := by
  constructor
  · rintro ⟨hiff, -⟩
    have hacc : (decodeBase64 [65, 65, 65, 0]).isSome := by decide +kernel
    rcases hiff.mp hacc 0 (by decide) with hsp | hmem
    · exact absurd hsp (by decide)
    · exact absurd hmem (by decide +kernel)
  · decide +kernel

end ADTimePix3.Serval
