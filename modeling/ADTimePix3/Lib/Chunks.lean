import Mathlib.Data.List.Basic

/-!
# A list delivered in pieces

A sender's data reaches a reader in non-empty pieces, cut anywhere; a reader that asks for at most `max`
cells gets the next piece or its first `max` cells. `Delivers` relates the pieces to the data, `Ends` says
that one of the cuts is at a given position. Reading keeps both.
-/

namespace Chunks

variable {α : Type}

/-- What a reader that asks for at most `max` cells gets, and what is left. -/
def next (max : ℕ) : List (List α) → List α × List (List α)
  | [] => ([], [])
  | c :: cs => (c.take max, if c.length ≤ max then cs else c.drop max :: cs)

/-- The pieces are non-empty, and together they are the data. -/
structure Delivers (chunks : List (List α)) (xs : List α) : Prop where
  flatten_eq : chunks.flatten = xs
  ne_nil : ∀ c ∈ chunks, c ≠ []

/-- One of the pieces ends after `n` cells. -/
def Ends (n : ℕ) (chunks : List (List α)) : Prop := ∃ cs ds, chunks = cs ++ ds ∧ cs.flatten.length = n

variable {max n : ℕ} {chunks : List (List α)} {xs ys : List α}

theorem next_of_le {c : List α} {cs : List (List α)} (h : c.length ≤ max) :
    next max (c :: cs) = (c, cs) := by
  simp only [next, if_pos h, List.take_of_length_le h]

theorem next_of_lt {c : List α} {cs : List (List α)} (h : max < c.length) :
    next max (c :: cs) = (c.take max, c.drop max :: cs) := by
  simp only [next, if_neg (Nat.not_le.mpr h)]

theorem length_next_le (max : ℕ) (chunks : List (List α)) : (next max chunks).1.length ≤ max := by
  cases chunks with
  | nil => exact Nat.zero_le max
  | cons c cs => exact List.length_take_le max c

theorem Delivers.eq_nil (h : Delivers chunks []) : chunks = [] := by
  cases chunks with
  | nil => rfl
  | cons c cs =>
    have hc : c = [] := (List.append_eq_nil_iff.mp h.flatten_eq).1
    exact absurd hc (h.ne_nil c List.mem_cons_self)

/-- A read gives a non-empty beginning of the data, no longer than asked, and leaves the rest. -/
theorem Delivers.next (h : Delivers chunks xs) (hxs : xs ≠ []) (hmax : 0 < max) :
    (next max chunks).1 ≠ [] ∧ (next max chunks).1.length ≤ max ∧
      ∃ zs, xs = (next max chunks).1 ++ zs ∧ Delivers (next max chunks).2 zs := by
  cases chunks with
  | nil => exact absurd h.flatten_eq.symm hxs
  | cons c cs =>
    have hc : c ≠ [] := h.ne_nil c List.mem_cons_self
    have hcs : ∀ d ∈ cs, d ≠ [] := fun d hd => h.ne_nil d (List.mem_cons_of_mem c hd)
    have hlen : 0 < c.length := List.length_pos_iff.mpr hc
    have hxs' : c ++ cs.flatten = xs := h.flatten_eq
    by_cases hle : c.length ≤ max
    · rw [next_of_le hle]
      exact ⟨hc, hle, cs.flatten, hxs'.symm, ⟨rfl, hcs⟩⟩
    · rw [next_of_lt (Nat.lt_of_not_le hle)]
      refine ⟨?_, List.length_take_le _ _, c.drop max ++ cs.flatten, ?_, ⟨rfl, ?_⟩⟩
      · intro hnil
        have htake := congrArg List.length hnil
        rw [List.length_take, List.length_nil] at htake
        omega
      · rw [← hxs', ← List.append_assoc, List.take_append_drop]
      · intro d hd
        rcases List.mem_cons.mp hd with rfl | hd
        · intro hnil
          have hdrop := congrArg List.length hnil
          rw [List.length_drop, List.length_nil] at hdrop
          omega
        · exact hcs d hd

/-- A read does not cross a cut, and the cut stays where it is in the data. -/
theorem Ends.next (h : Ends n chunks) (hn : 0 < n) :
    (next max chunks).1.length ≤ n ∧ Ends (n - (next max chunks).1.length) (next max chunks).2 := by
  obtain ⟨cs, ds, rfl, hlen⟩ := h
  cases cs with
  | nil => rw [← hlen] at hn; exact absurd hn (Nat.lt_irrefl 0)
  | cons c cs =>
    rw [List.flatten_cons, List.length_append] at hlen
    rw [List.cons_append]
    by_cases hle : c.length ≤ max
    · rw [next_of_le hle]
      refine ⟨?_, cs, ds, rfl, ?_⟩
      · show c.length ≤ n
        omega
      · show cs.flatten.length = n - c.length
        omega
    · rw [next_of_lt (Nat.lt_of_not_le hle)]
      simp only [List.length_take]
      refine ⟨by omega, c.drop max :: cs, ds, rfl, ?_⟩
      rw [List.flatten_cons, List.length_append, List.length_drop]
      omega

/-- Data that is received within the rest of a list extends what was there before. -/
theorem take_append_of_drop {tail zs : List α} {k : ℕ} (h : xs.drop k ++ tail = ys ++ zs)
    (hlen : k + ys.length ≤ xs.length) :
    xs.take k ++ ys = xs.take (k + ys.length) ∧ zs = xs.drop (k + ys.length) ++ tail := by
  have hle : ys.length ≤ (xs.drop k).length := by rw [List.length_drop]; omega
  have hys : (xs.drop k).take ys.length = ys := by
    have htake := congrArg (List.take ys.length) h
    rwa [List.take_append_of_le_length hle, List.take_left] at htake
  have hzs : (xs.drop k).drop ys.length ++ tail = zs := by
    have hdrop := congrArg (List.drop ys.length) h
    rwa [List.drop_append_of_le_length hle, List.drop_left] at hdrop
  constructor
  · rw [List.take_add, hys]
  · rw [← hzs, List.drop_drop]

end Chunks
