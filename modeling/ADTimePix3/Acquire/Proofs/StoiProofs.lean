import ADTimePix3.Acquire.Numerals
import ADTimePix3.Lib.MachineInt
import Mathlib.Data.List.TakeWhile

/-!
# Decimal numbers: proofs

`stoi_eq_some_iff` says of every string what `std::stoi` makes of it.
-/

namespace ADTimePix3.Acquire

open MachineInt (Fits)

variable {s pre post digits rest blanks : List Char} {sign : Sign} {c : Char} {n : ℕ} {z : ℤ}

/-! ## Cutting a string -/

/-- Where a string whose characters all satisfy `f` ends, if the next character does not. -/
theorem takeWhile_append_of_head {f : Char → Bool} (hpre : ∀ x ∈ pre, f x = true)
    (hpost : ∀ x ∈ post.head?, f x = false) :
    (pre ++ post).takeWhile f = pre ∧ (pre ++ post).dropWhile f = post := by
  rw [List.takeWhile_append_of_pos hpre, List.dropWhile_append_of_pos hpre]
  cases post with
  | nil => simp
  | cons c post =>
    have hc : ¬ f c = true := by
      rw [hpost c rfl]
      decide
    rw [List.takeWhile_cons_of_neg hc, List.dropWhile_cons_of_neg hc, List.append_nil]
    exact ⟨rfl, rfl⟩

theorem head?_dropWhile {f : Char → Bool} (s : List Char) : ∀ x ∈ (s.dropWhile f).head?, f x = false := by
  intro x hx
  have h := List.head?_dropWhile_not f s
  rw [Option.mem_def] at hx
  rw [hx] at h
  simpa using h

/-! ## Signs and digits -/

theorem isSpace_of_isDigit (h : c.isDigit = true) : isSpace c = false := by
  simp only [Char.isDigit, Bool.and_eq_true, decide_eq_true_eq, UInt32.le_iff_toNat_le] at h
  have h48 : 48 ≤ c.toNat := h.1
  simp only [isSpace, Bool.or_eq_false_iff, Bool.and_eq_false_iff, decide_eq_false_iff_not]
  omega

theorem splitSign_of_isDigit (h : c.isDigit = true) (s : List Char) :
    splitSign (c :: s) = (false, c :: s) := by
  unfold splitSign
  split
  · rename_i heq
    rw [(List.cons.inj heq).1] at h
    exact absurd h (by decide)
  · rename_i heq
    rw [(List.cons.inj heq).1] at h
    exact absurd h (by decide)
  · rfl

/-- The sign in front of a number, if any. -/
theorem exists_splitSign (s : List Char) :
    ∃ (sign : Sign) (t : List Char), s = sign.text ++ t ∧ splitSign s = (sign.negative, t) := by
  unfold splitSign
  split
  · exact ⟨.minus, _, rfl, rfl⟩
  · exact ⟨.plus, _, rfl, rfl⟩
  · exact ⟨.none, s, rfl, rfl⟩

theorem splitSign_text (sign : Sign) (hne : digits ≠ []) (hdigit : ∀ x ∈ digits, x.isDigit = true)
    (rest : List Char) : splitSign (sign.text ++ (digits ++ rest)) = (sign.negative, digits ++ rest) := by
  cases sign with
  | plus => rfl
  | minus => rfl
  | none =>
    obtain ⟨d, ds, rfl⟩ := List.exists_cons_of_ne_nil hne
    exact splitSign_of_isDigit (hdigit d List.mem_cons_self) (ds ++ rest)

/-- A number does not start with a blank. -/
theorem isSpace_head? (sign : Sign) (hne : digits ≠ []) (hdigit : ∀ x ∈ digits, x.isDigit = true)
    (rest : List Char) : ∀ x ∈ (sign.text ++ (digits ++ rest)).head?, isSpace x = false := by
  obtain ⟨d, ds, rfl⟩ := List.exists_cons_of_ne_nil hne
  intro x hx
  cases sign with
  | plus =>
    obtain rfl := Option.some.inj hx
    decide
  | minus =>
    obtain rfl := Option.some.inj hx
    decide
  | none =>
    obtain rfl := Option.some.inj hx
    exact isSpace_of_isDigit (hdigit d List.mem_cons_self)

/-- There is one way to find a number at the beginning of a string. -/
theorem Numeral.cut {spaces numeral : List Char} (h : Numeral z numeral) (hspaces : ∀ c ∈ spaces, isSpace c = true)
    (hrest : ∀ c ∈ rest.head?, c.isDigit = false) (hs : s = spaces ++ (numeral ++ rest)) :
    spaces = s.takeWhile isSpace ∧ rest = (splitSign (s.dropWhile isSpace)).2.dropWhile Char.isDigit := by
  obtain ⟨sign, digits, n, rfl, ⟨hne, hdigit, -⟩, -⟩ := h
  rw [List.append_assoc] at hs
  obtain ⟨htake, hdrop⟩ := takeWhile_append_of_head hspaces (isSpace_head? sign hne hdigit rest)
  rw [hs, htake, hdrop, splitSign_text sign hne hdigit]
  exact ⟨rfl, (takeWhile_append_of_head hdigit hrest).2.symm⟩

/-! ## `std::stoi` -/

/-- A number is read where a string begins with one, up to the last of its digits, if it is an `int`. -/
theorem stoi_eq_some_iff : stoi s = some z ↔ Fits z ∧ Begins z s := by
  constructor
  · intro h
    obtain ⟨sign, t, hs, hsign⟩ := exists_splitSign (s.dropWhile isSpace)
    unfold stoi at h
    simp only [hsign] at h
    obtain ⟨⟨hne, hfits⟩, hz⟩ := Option.ite_none_right_eq_some.mp h
    have hdec : Decimal (t.takeWhile Char.isDigit) (Nat.ofDigitChars 10 (t.takeWhile Char.isDigit) 0) :=
      ⟨hne, fun c hc => List.mem_takeWhile_imp hc, rfl⟩
    refine ⟨Option.some.inj hz ▸ hfits, s.takeWhile isSpace, sign.text ++ t.takeWhile Char.isDigit,
      t.dropWhile Char.isDigit, ?_, fun c hc => List.mem_takeWhile_imp hc,
      ⟨sign, _, _, rfl, hdec, Option.some.inj hz⟩, head?_dropWhile t⟩
    rw [List.append_assoc, List.takeWhile_append_dropWhile, ← hs, List.takeWhile_append_dropWhile]
  · rintro ⟨hfits, spaces, numeral, rest, rfl, hspaces, ⟨sign, digits, n, rfl, ⟨hne, hdigit, hvalue⟩, rfl⟩, hrest⟩
    rw [List.append_assoc]
    have hspace := (takeWhile_append_of_head hspaces (isSpace_head? sign hne hdigit rest)).2
    have hdigits := (takeWhile_append_of_head hdigit hrest).1
    unfold stoi
    simp only [hspace, splitSign_text sign hne hdigit rest, hdigits, hvalue]
    exact if_pos ⟨hne, hfits⟩

/-- A positive number has no minus sign. -/
theorem stoi_eq_some_iff_of_pos (hpos : 1 ≤ n) :
    stoi s = some (n : ℤ) ↔
      n < 2 ^ 31 ∧ ∃ (blanks : List Char) (plus : Bool) (digits rest : List Char),
        s = blanks ++ ((if plus then ['+'] else []) ++ (digits ++ rest)) ∧ (∀ c ∈ blanks, isSpace c = true) ∧
          Decimal digits n ∧ ∀ c ∈ rest.head?, c.isDigit = false := by
  rw [stoi_eq_some_iff]
  constructor
  · rintro ⟨⟨-, hlt⟩, spaces, numeral, rest, rfl, hspaces, ⟨sign, digits, m, rfl, hdec, hvalue⟩, hrest⟩
    cases sign with
    | minus =>
      have hneg : -(m : ℤ) = n := hvalue
      omega
    | plus =>
      obtain rfl : m = n := Int.ofNat.inj hvalue
      exact ⟨by omega, spaces, true, digits, rest, rfl, hspaces, hdec, hrest⟩
    | none =>
      obtain rfl : m = n := Int.ofNat.inj hvalue
      exact ⟨by omega, spaces, false, digits, rest, rfl, hspaces, hdec, hrest⟩
  · rintro ⟨hlt, blanks, plus, digits, rest, rfl, hblank, hdec, hrest⟩
    refine ⟨⟨by omega, by omega⟩, blanks, (if plus then ['+'] else []) ++ digits, rest, by rw [List.append_assoc],
      hblank, ?_, hrest⟩
    cases plus with
    | true => exact ⟨.plus, digits, n, rfl, hdec, rfl⟩
    | false => exact ⟨.none, digits, n, rfl, hdec, rfl⟩

/-! ## `std::to_string` -/

theorem decimal_toString (n : ℕ) : Decimal (toString n) n where
  ne_nil := Nat.toDigits_ne_nil
  isDigit := fun _ hc => Nat.isDigit_of_mem_toDigits (by decide) (by decide) hc
  value := Nat.ofDigitChars_ten_toDigits

theorem numeral_printInt (z : ℤ) : Numeral z (printInt z) := by
  cases z with
  | ofNat n => exact ⟨.none, toString n, n, rfl, decimal_toString n, rfl⟩
  | negSucc n => exact ⟨.minus, toString (n + 1), n + 1, rfl, decimal_toString (n + 1), rfl⟩

theorem begins_of_numeral (h : Numeral z s) : Begins z s :=
  ⟨[], s, [], by simp, by simp, h, by simp⟩

theorem stoi_printInt (h : Fits z) : stoi (printInt z) = some z :=
  stoi_eq_some_iff.mpr ⟨h, begins_of_numeral (numeral_printInt z)⟩

theorem stoi_toString {n : ℕ} (h : n < 2 ^ 31) : stoi (toString n) = some (n : ℤ) :=
  stoi_printInt (z := n) ⟨by omega, by omega⟩

end ADTimePix3.Acquire
