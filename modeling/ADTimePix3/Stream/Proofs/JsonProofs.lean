import ADTimePix3.Stream.Json

/-!
# Members of a header

What the accessors give for a member that is there, and the conversions of values that are in range.
-/

namespace ADTimePix3.Stream

open Img (toInt32 toUInt64)

theorem toInt32_of_range {x : ℤ} (h : -2 ^ 31 ≤ x ∧ x < 2 ^ 31) : toInt32 x = x := by
  unfold toInt32
  omega

theorem toUInt64_natCast {n : ℕ} (h : n < 2 ^ 64) : toUInt64 n = n := by
  unfold toUInt64
  omega

namespace Json

theorem intAt_of_member {j : Json} {key : String} {z : ℤ} (h : j.member key = some (.number_integer z)) :
    j.intAt key = some (toInt32 z) := by
  rw [intAt, h]
  rfl

theorem value_of_member {α : Type} {get : Json → Option α} {j v : Json} {key : String}
    (h : j.member key = some v) (default : α) : j.value get key default = get v := by
  cases j with
  | object members =>
    have hlookup : members.lookup key = some v := h
    rw [value, hlookup]
  | _ => cases h

end Json

end ADTimePix3.Stream
