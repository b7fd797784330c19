import ADTimePix3.Lib.Loops

/-!
# Machine integers

Signed arithmetic of 32 bits in which an overflow has no result. A computation is written over `ℤ` and `int`
stands at every value that the machine has to hold.
-/

namespace MachineInt

open Loops

variable {σ : Type} {x lo hi : ℤ}

/-- `x` is a value of the type `int`. -/
def Fits (x : ℤ) : Prop := -2 ^ 31 ≤ x ∧ x < 2 ^ 31

instance (x : ℤ) : Decidable (Fits x) := inferInstanceAs (Decidable (_ ∧ _))

/-- The value of an operation; there is no result when it overflows. -/
def int (x : ℤ) : Option ℤ := if Fits x then some x else none

theorem int_of_fits (h : Fits x) : int x = some x := if_pos h

theorem Fits.of_le {y : ℤ} (h : Fits y) (h0 : 0 ≤ x) (hxy : x ≤ y) : Fits x := by
  unfold Fits at *
  omega

/-- `for (x = lo; x <= hi; ++x)`: the loop variable has to hold `hi + 1`, if the loop is entered. -/
def forLoopLe (lo hi : ℤ) (body : ℤ → σ → Option σ) (s : σ) : Option σ := do
  let s ← forLoop lo (hi + 1) body s
  if lo ≤ hi then
    let _ ← int (hi + 1)
    some s
  else some s

theorem forLoopLe_of_fits (h : lo ≤ hi → Fits (hi + 1)) (body : ℤ → σ → Option σ) (s : σ) :
    forLoopLe lo hi body s = forLoop lo (hi + 1) body s := by
  unfold forLoopLe
  cases hrun : forLoop lo (hi + 1) body s with
  | none => rfl
  | some t =>
    by_cases hle : lo ≤ hi
    · simp [hle, int_of_fits (h hle)]
    · simp [hle]

end MachineInt
