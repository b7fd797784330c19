import ADTimePix3.Serval.ChipTemperatures
import Mathlib.Data.List.GetD

/-!
# Chip temperatures: proofs

The walk over the blocks looks for an element of the merged list without building it: behind the blocks that it
has passed, `offset` elements are over.
-/

namespace ADTimePix3.Serval.Health

open Replies (isObject elements)
open ADTimePix3.Stream (Json)

variable {block H0 detector : Json} {blocks ct merged : List Json} {chip offset : ℕ}

/-! ## The merged list -/

theorem foldl_push (ct merged : List Json) : ct.foldl (fun merged te => merged ++ [te]) merged = merged ++ ct := by
  induction ct generalizing merged with
  | nil => rw [List.foldl_nil, List.append_nil]
  | cons te ct ih => rw [List.foldl_cons, ih, List.append_assoc, List.singleton_append]

/-- A loop that appends something for each block. -/
theorem foldl_blocks {merge : List Json → Json → List Json} {temperatures : Json → List Json}
    (hmerge : ∀ merged hb, merge merged hb = merged ++ temperatures hb) (merged : List Json) :
    blocks.foldl merge merged = merged ++ blocks.flatMap temperatures := by
  induction blocks generalizing merged with
  | nil => rw [List.foldl_nil, List.flatMap_nil, List.append_nil]
  | cons hb blocks ih => rw [List.foldl_cons, List.flatMap_cons, ih, hmerge, List.append_assoc]

/-- A block that has no temperatures adds nothing. -/
theorem chipTempsMerged_eq (blocks : List Json) :
    chipTempsMerged blocks = blocks.flatMap fun hb => (chipTemperatures hb).getD [] := by
  refine foldl_blocks (fun merged hb => ?_) []
  cases chipTemperatures hb with
  | none => exact (List.append_nil merged).symm
  | some ct => exact foldl_push ct merged

theorem chipTemperatures_getD (block : Json) :
    (chipTemperatures block).getD [] = elements ((block.member "ChipTemperatures").getD .null) := by
  unfold chipTemperatures
  cases block.member "ChipTemperatures" with
  | none => rfl
  | some j => cases j <;> rfl

theorem chipTempsMerged_cons_none (h : chipTemperatures block = none) :
    chipTempsMerged (block :: blocks) = chipTempsMerged blocks := by
  rw [chipTempsMerged_eq, chipTempsMerged_eq, List.flatMap_cons, h]
  rfl

theorem chipTempsMerged_cons_some (h : chipTemperatures block = some ct) :
    chipTempsMerged (block :: blocks) = ct ++ chipTempsMerged blocks := by
  rw [chipTempsMerged_eq, chipTempsMerged_eq, List.flatMap_cons, h]
  rfl

/-- The merged list of the replies model, which keeps the exceptions of the same loop. -/
theorem chipTempsMerged_eq_replies (blocks : List Json) :
    chipTempsMerged blocks = Replies.chipTempsMerged (.array blocks) := by
  rw [chipTempsMerged_eq, Replies.chipTempsMerged, elements]
  congr 1
  funext hb
  exact chipTemperatures_getD hb

/-! ## The walk -/

/-- With `offset` elements behind it, the walk finds the element that the merged list of the blocks ahead has at
the rest of the index. -/
theorem temperatureFrom_eq (h : offset ≤ chip) :
    temperatureFrom chip blocks offset = temperatureAt (chipTempsMerged blocks) (chip - offset) := by
  induction blocks generalizing offset with
  | nil => rfl
  | cons block blocks ih =>
    unfold temperatureFrom
    cases hct : chipTemperatures block with
    | none =>
      rw [chipTempsMerged_cons_none hct]
      exact ih h
    | some ct =>
      rw [chipTempsMerged_cons_some hct]
      unfold temperatureAt
      by_cases hlt : chip < offset + ct.length
      · have hin : chip - offset < ct.length := by omega
        simp only [if_pos hlt]
        rw [List.getD_append _ _ _ _ hin]
      · have hout : ct.length ≤ chip - offset := by omega
        simp only [if_neg hlt]
        rw [List.getD_append_right _ _ _ _ hout, ih (by omega), temperatureAt, Nat.sub_sub]

/-! ## What is published -/

/-- Where nothing is merged, the value of the first block is published, which then has no elements. -/
theorem elements_published (hhealth : detector.member "Health" = some (.array (H0 :: blocks)))
    (hobject : isObject H0 = true) :
    elements ((publishedTemperatures detector).getD .null) = chipTempsMerged (H0 :: blocks) := by
  unfold publishedTemperatures
  simp only [hhealth, hobject, if_true]
  by_cases hnil : chipTempsMerged (H0 :: blocks) = []
  · have hfirst : (chipTemperatures H0).getD [] = [] := by
      rw [chipTempsMerged_eq, List.flatMap_cons] at hnil
      exact (List.append_eq_nil_iff.mp hnil).1
    rw [if_neg (not_not.mpr hnil), hnil, ← chipTemperatures_getD, hfirst]
  · rw [if_pos hnil]
    rfl

/-- For every chip the walk over the blocks gives the element of the merged list; and the merged list is what is
published. -/
theorem chipTemperatureFromHealthV4_eq {c : ℤ} (hhealth : detector.member "Health" = some (.array (H0 :: blocks)))
    (hobject : isObject H0 = true) (hc : 0 ≤ c) :
    chipTemperatureFromHealthV4 detector c = temperatureAt (chipTempsMerged (H0 :: blocks)) c.toNat ∧
      elements ((publishedTemperatures detector).getD .null) = chipTempsMerged (H0 :: blocks) := by
  refine ⟨?_, elements_published hhealth hobject⟩
  unfold chipTemperatureFromHealthV4
  simp only [hhealth, if_neg (not_lt.mpr hc)]
  rw [temperatureFrom_eq (Nat.zero_le _), Nat.sub_zero]

/-- Two boards with a block between them that is skipped: chip 3 is the second one of the second board. -/
theorem chipTemperatureFromHealthV4_eq_two :
    chipTemperatureFromHealthV4 (.object [("Health", .array [.object [("ChipTemperatures", .array
      [.number_integer 30, .string "n/a"])], .null, .object [("ChipTemperatures", .array [.number_integer 40,
        .number_float (83 / 2)])]])]) 3 = 41 :=
  (chipTemperatureFromHealthV4_eq (c := 3) rfl rfl (by decide)).1.trans (by decide +kernel)

end ADTimePix3.Serval.Health
