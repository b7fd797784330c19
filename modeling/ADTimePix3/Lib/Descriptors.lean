import Mathlib.Data.List.Basic

/-!
# Tables of descriptors

A kernel hands out small numbers, the lowest free one first, and remembers who holds each. A number that is given
back is handed out again, so that whoever gives it back twice gives back what may belong to somebody else by then:
`closeBy` goes through for the holder only.
-/

/-- Who holds each number; the numbers past the end are free. -/
structure Descriptors (ω : Type) where
  holders : List (Option ω)

namespace Descriptors

variable {ω : Type}

def empty : Descriptors ω := ⟨[]⟩

def holder (t : Descriptors ω) (fd : ℕ) : Option ω := (t.holders[fd]?).join

/-- The lowest free number. -/
def lowest (t : Descriptors ω) : ℕ := t.holders.findIdx (·.isNone)

def openBy (t : Descriptors ω) (o : ω) : Descriptors ω :=
  ⟨if t.lowest < t.holders.length then t.holders.set t.lowest (some o) else t.holders ++ [some o]⟩

def close (t : Descriptors ω) (fd : ℕ) : Descriptors ω := ⟨t.holders.set fd none⟩

/-- Give a number back, which only its holder may. -/
def closeBy [DecidableEq ω] (t : Descriptors ω) (o : ω) (fd : ℕ) : Option (Descriptors ω) :=
  if t.holder fd = some o then some (t.close fd) else none

/-- The holder of a number passes it on. -/
def passBy [DecidableEq ω] (t : Descriptors ω) (o o' : ω) (fd : ℕ) : Option (Descriptors ω) :=
  if t.holder fd = some o then some ⟨t.holders.set fd (some o')⟩ else none

variable {t : Descriptors ω} {o : ω} {fd : ℕ}

@[simp]
theorem holder_empty (fd : ℕ) : (empty : Descriptors ω).holder fd = none := rfl

theorem lowest_le_length (t : Descriptors ω) : t.lowest ≤ t.holders.length := List.findIdx_le_length

@[simp]
theorem holder_lowest (t : Descriptors ω) : t.holder t.lowest = none := by
  unfold holder
  rcases Nat.lt_or_ge t.lowest t.holders.length with hlt | hge
  · have hnone := List.findIdx_getElem (w := hlt)
    rw [List.getElem?_eq_getElem hlt]
    exact Option.isNone_iff_eq_none.mp hnone
  · rw [List.getElem?_eq_none hge]
    rfl

theorem holder_openBy (t : Descriptors ω) (o : ω) (fd : ℕ) :
    (t.openBy o).holder fd = if fd = t.lowest then some o else t.holder fd := by
  unfold openBy holder
  split
  case isTrue hlt =>
    simp only [List.getElem?_set]
    by_cases hfd : t.lowest = fd
    · subst hfd
      simp [hlt]
    · simp [hfd, Ne.symm hfd]
  case isFalse hge =>
    have hlow : t.lowest = t.holders.length := Nat.le_antisymm t.lowest_le_length (Nat.le_of_not_lt hge)
    simp only [List.getElem?_append, hlow]
    rcases Nat.lt_trichotomy fd t.holders.length with hlt | rfl | hgt
    · rw [if_pos hlt, if_neg (by omega)]
    · simp
    · rw [if_neg (by omega), if_neg (by omega), List.getElem?_eq_none (by simp; omega),
        List.getElem?_eq_none (by omega)]

theorem holder_close (t : Descriptors ω) (fd fd' : ℕ) :
    (t.close fd).holder fd' = if fd' = fd then none else t.holder fd' := by
  unfold close holder
  simp only [List.getElem?_set]
  by_cases hfd : fd = fd'
  · subst hfd
    by_cases hlt : fd < t.holders.length
    · simp [hlt]
    · simp [hlt]
  · simp [hfd, Ne.symm hfd]

/-- Everybody else holds what they held. -/
theorem holder_openBy_of_ne {o' : ω} (hne : o' ≠ o) (fd : ℕ) :
    (t.openBy o).holder fd = some o' ↔ t.holder fd = some o' := by
  rw [holder_openBy]
  split
  case isTrue hfd =>
    rw [hfd, holder_lowest]
    simp [hne.symm]
  case isFalse => rfl

/-- After a close, everybody else holds what they held. -/
theorem closeBy_of_ne (h : t.holder fd = some o) {t' : Descriptors ω}
    (ht' : ∀ fd' o', t'.holder fd' = some o' ↔ fd' ≠ fd ∧ t.holder fd' = some o') {o' : ω} (hne : o' ≠ o)
    (fd' : ℕ) : t'.holder fd' = some o' ↔ t.holder fd' = some o' := by
  rw [ht', and_iff_right_iff_imp]
  rintro hholder rfl
  rw [h, Option.some.injEq] at hholder
  exact hne hholder.symm

variable [DecidableEq ω]

theorem closeBy_of_holder (h : t.holder fd = some o) :
    ∃ t', t.closeBy o fd = some t' ∧ ∀ fd' o', t'.holder fd' = some o' ↔ fd' ≠ fd ∧ t.holder fd' = some o' := by
  refine ⟨t.close fd, if_pos h, fun fd' o' => ?_⟩
  rw [holder_close]
  split
  case isTrue hfd => simp [hfd]
  case isFalse hfd => simp [hfd]

theorem passBy_of_holder (h : t.holder fd = some o) (o' : ω) :
    ∃ t', t.passBy o o' fd = some t' ∧ ∀ fd', t'.holder fd' = if fd' = fd then some o' else t.holder fd' := by
  refine ⟨_, if_pos h, fun fd' => ?_⟩
  have hlt : fd < t.holders.length := by
    by_contra hge
    unfold holder at h
    rw [List.getElem?_eq_none (Nat.le_of_not_lt hge)] at h
    cases h
  unfold holder
  simp only [List.getElem?_set]
  by_cases hfd : fd = fd'
  · subst hfd
    simp [hlt]
  · simp [hfd, Ne.symm hfd]

end Descriptors
