import ADTimePix3.Stream.LineBuffer

/-!
# Searching and reading the line buffer

What each search finds and which bytes it reads. The searches for the newline and for the header stay below
the newline; only the copy of buffered payload can go further, and it does so exactly when the line does not
start the buffer and more payload is wanted than is there (`within_copyBuffered`).
-/

namespace ADTimePix3.Stream

open Memory Traced

variable {buffer : ℕ → UInt8} {n nl p q : ℕ}

/-! ## The newline -/

theorem memchr_eq_some {c : Char} :
    (memchr buffer c n).val = some p ↔
      p < n ∧ buffer p = c.toUInt8 ∧ ∀ r < p, buffer r ≠ c.toUInt8 := by
  unfold memchr
  rw [val_find_eq_some]
  simp only [val_map, val_read, beq_iff_eq, beq_eq_false_iff_ne, Nat.zero_add, Nat.zero_le, true_and,
    forall_true_left, ne_eq]

theorem memchr_eq_none {c : Char} (h : ∀ r < n, buffer r ≠ c.toUInt8) : (memchr buffer c n).val = none := by
  refine val_find_eq_none fun r _ hr => ?_
  rw [val_map, val_read]
  exact beq_eq_false_iff_ne.mpr (h r (by omega))

theorem within_memchr (buffer : ℕ → UInt8) (c : Char) (n : ℕ) : Within n (memchr buffer c n) := by
  refine within_find fun r _ hr => ?_
  rw [within_map, within_read]
  omega

/-! ## The start of the header -/

theorem val_isObjectStart :
    (isObjectStart buffer p).val = (buffer p == '{'.toUInt8 && buffer (p + 1) == '"'.toUInt8) := by
  unfold isObjectStart
  rw [val_bind, val_read]
  cases buffer p == '{'.toUInt8 <;> rfl

theorem within_isObjectStart (h : p + 1 < n) : Within n (isObjectStart buffer p) := by
  unfold isObjectStart
  rw [within_bind, within_read, val_read]
  refine ⟨by omega, ?_⟩
  cases buffer p == '{'.toUInt8
  · exact within_pure _
  · show Within n (read buffer (p + 1) >>= fun c => pure (c == '"'.toUInt8))
    rw [within_bind, within_read]
    exact ⟨h, within_pure _⟩

theorem within_looksLikeJson (countChars : Bool) {i k json_chars : ℕ} (h : p + i + k ≤ n) :
    Within n (looksLikeJson countChars buffer p i k json_chars) := by
  induction k generalizing i json_chars with
  | zero => exact within_pure _
  | succ k ih =>
    rw [looksLikeJson, within_bind, within_read]
    refine ⟨by omega, ?_⟩
    rw [val_read]
    by_cases hpunct : isJsonPunctuation (buffer (p + i)) = true
    · rw [if_pos hpunct]
      exact within_pure _
    rw [if_neg hpunct]
    by_cases hchar : (countChars && isJsonChar (buffer (p + i))) = true
    · rw [if_pos hchar]
      exact ih (by omega)
    rw [if_neg hchar]
    by_cases hbinary : isBinary (buffer (p + i)) = true
    · rw [if_pos hbinary]
      exact within_pure _
    · rw [if_neg hbinary]
      exact ih (by omega)

theorem val_isJsonStart {countChars : Bool} (h : (isJsonStart countChars buffer nl p).val = true) :
    buffer p = '{'.toUInt8 := by
  unfold isJsonStart at h
  rw [val_bind, val_read] at h
  by_cases hc : buffer p == '{'.toUInt8
  · exact beq_iff_eq.mp hc
  · rw [if_neg hc] at h
    cases h

theorem within_isJsonStart (countChars : Bool) (h : p + 2 < nl) :
    Within nl (isJsonStart countChars buffer nl p) := by
  unfold isJsonStart
  rw [within_bind, within_read, val_read]
  refine ⟨by omega, ?_⟩
  by_cases hc : (buffer p == '{'.toUInt8) = true
  · rw [if_pos hc]
    exact within_looksLikeJson countChars (by omega)
  · rw [if_neg hc]
    exact within_pure _

/-- A header starts with a brace, before the newline. -/
theorem findJsonStart_spec {countChars : Bool} (h : (findJsonStart countChars buffer nl).val = some p) :
    p + 1 < nl ∧ buffer p = '{'.toUInt8 := by
  unfold findJsonStart at h
  rw [val_bind] at h
  cases hobj : (find (isObjectStart buffer) 0 (nl - 1)).val with
  | some q =>
    rw [hobj] at h
    obtain rfl : q = p := Option.some.inj h
    obtain ⟨-, hlt, htest, -⟩ := val_find_eq_some.mp hobj
    rw [val_isObjectStart, Bool.and_eq_true] at htest
    exact ⟨by omega, beq_iff_eq.mp htest.1⟩
  | none =>
    rw [hobj] at h
    obtain ⟨-, hlt, htest, -⟩ := val_find_eq_some.mp h
    exact ⟨by omega, val_isJsonStart htest⟩

theorem findJsonStart_zero (countChars : Bool) (h₀ : buffer 0 = '{'.toUInt8) (h₁ : buffer 1 = '"'.toUInt8)
    (hnl : 2 ≤ nl) : (findJsonStart countChars buffer nl).val = some 0 := by
  have hobj : (find (isObjectStart buffer) 0 (nl - 1)).val = some 0 := by
    rw [val_find_eq_some]
    refine ⟨Nat.le_refl 0, by omega, ?_, fun r _ hr => by omega⟩
    rw [val_isObjectStart, h₀, h₁]
    rfl
  unfold findJsonStart
  rw [val_bind, hobj]
  rfl

/-- The search for the header stays below the newline. -/
theorem within_findJsonStart (countChars : Bool) (buffer : ℕ → UInt8) (nl : ℕ) :
    Within nl (findJsonStart countChars buffer nl) := by
  unfold findJsonStart
  rw [within_bind]
  constructor
  · exact within_find fun r _ hr => within_isObjectStart (by omega)
  · cases (find (isObjectStart buffer) 0 (nl - 1)).val with
    | some q => exact within_pure _
    | none => exact within_find fun r _ hr => within_isJsonStart countChars (by omega)

/-! ## Reading a line -/

/-- Nothing is skipped in front of a brace. -/
theorem skipBinary_find {atNul : Bool} {stop : ℕ} (hp : p < stop) (h : buffer p = '{'.toUInt8) :
    (find (fun q => endsSkip atNul <$> read buffer q) p (stop - p)).val = some p := by
  rw [val_find_eq_some]
  refine ⟨Nat.le_refl p, by omega, ?_, fun r _ hr => by omega⟩
  rw [val_map, val_read, h]
  cases atNul <;> rfl

theorem val_skipBinary {atNul : Bool} {stop : ℕ} (hp : p < stop) (h : buffer p = '{'.toUInt8) :
    (skipBinary atNul buffer p stop).val = p := by
  unfold skipBinary
  rw [val_bind, skipBinary_find hp h]
  rfl

theorem within_skipBinary {atNul : Bool} {stop : ℕ} (hp : p < stop) (h : buffer p = '{'.toUInt8)
    (hn : p < n) : Within n (skipBinary atNul buffer p stop) := by
  unfold skipBinary
  rw [within_bind]
  refine ⟨within_find_of_some (skipBinary_find hp h) fun q hq hqp => ?_, within_pure _⟩
  rw [within_map, within_read]
  omega

/-- A C string ends at a NUL, at the latest at the one that is known. -/
theorem readCString_find (hpq : p ≤ q) (hq : q < MAX_BUFFER_SIZE) (h : buffer q = 0) :
    ∃ r, p ≤ r ∧ r ≤ q ∧
      (find (fun i => (· == 0) <$> read buffer i) p (MAX_BUFFER_SIZE - p)).val = some r := by
  refine exists_val_find hpq (by omega) ?_
  rw [val_map, val_read, h]
  rfl

/-- It is the text up to that NUL when there is none before. -/
theorem val_readCString (hpq : p ≤ q) (hq : q < MAX_BUFFER_SIZE) (h : buffer q = 0)
    (hfirst : ∀ r, p ≤ r → r < q → buffer r ≠ 0) :
    (readCString buffer p).val = slice buffer p (q - p) := by
  obtain ⟨r, hpr, hrq, hfind⟩ := readCString_find hpq hq h
  have hr : buffer r = 0 := by
    have htest := (val_find_eq_some.mp hfind).2.2.1
    rw [val_map, val_read] at htest
    exact beq_iff_eq.mp htest
  have heq : r = q := Nat.le_antisymm hrq (Nat.not_lt.mp fun hlt => hfirst r hpr hlt hr)
  unfold readCString
  rw [val_bind, hfind, heq]
  rfl

theorem within_readCString (hpq : p ≤ q) (hq : q < MAX_BUFFER_SIZE) (h : buffer q = 0) (hn : q < n) :
    Within n (readCString buffer p) := by
  obtain ⟨r, hpr, hrq, hfind⟩ := readCString_find hpq hq h
  unfold readCString
  rw [within_bind]
  refine ⟨within_find_of_some hfind fun i hi hir => ?_, within_pure _⟩
  rw [within_map, within_read]
  omega

/-- The copy of buffered payload stays among the received bytes exactly when the line starts the buffer, or
when all the payload is there. -/
theorem within_copyBuffered {line : Line} {needed : ℕ} (hstart : line.line_buffer ≤ line.newline_pos)
    (hnl : line.newline_pos < line.total_read) :
    Within line.total_read (copyBuffered line needed) ↔
      line.line_buffer = 0 ∨ needed ≤ line.total_read - (line.newline_pos + 1) := by
  unfold copyBuffered
  rw [within_readRange]
  omega

/-- What is copied when the line starts the buffer. -/
theorem val_copyBuffered (buffer : ℕ → UInt8) (nl n needed : ℕ) :
    (copyBuffered ⟨buffer, 0, nl, n⟩ needed).val = slice buffer (nl + 1) (min (n - (nl + 1)) needed) := rfl

end ADTimePix3.Stream
