import Mathlib.Data.List.Basic
import Mathlib.Data.List.DropRight
import Mathlib.Order.Lattice

/-!
# Buffers that only grow, and windows

A vector that is grown on demand and whose first elements are written, added to or read by a loop. The
loops are checked: there is no result when one of them runs past the end of the vector. `tabulate` gives the
first elements by index, so that a loop acts on the function of the index.

A window is the last `n` entries of a queue that is pushed at one end and trimmed at the other.
-/

namespace Buffers

variable {α β γ : Type}

/-! ## Vectors -/

/-- `v.resize(n)`. -/
def resize (x : α) (v : List α) (n : ℕ) : List α := v.take n ++ List.replicate (n - v.length) x

/-- `for (i = 0; i < src.size(); ++i) v[i] = src[i]`. -/
def overwrite (v src : List α) : Option (List α) :=
  if src.length ≤ v.length then some (src ++ v.drop src.length) else none

/-- `for (i = 0; i < src.size(); ++i) v[i] = f(v[i], src[i])`. -/
def combine (f : α → β → α) (v : List α) (src : List β) : Option (List α) :=
  if src.length ≤ v.length then some (List.zipWith f v src ++ v.drop src.length) else none

/-- The first `n` elements, read one by one. -/
def readFirst (v : List α) (n : ℕ) : Option (List α) := if n ≤ v.length then some (v.take n) else none

/-- The list of the values of `g` below `n`. -/
def tabulate (n : ℕ) (g : ℕ → α) : List α := (List.range n).map g

@[simp] theorem length_resize (x : α) (v : List α) (n : ℕ) : (resize x v n).length = n := by
  simp [resize]
  omega

@[simp] theorem length_tabulate (n : ℕ) (g : ℕ → α) : (tabulate n g).length = n := by
  simp [tabulate]

theorem eq_tabulate (l : List α) (x : α) : l = tabulate l.length fun i => l.getD i x := by
  refine List.ext_getElem (by simp) fun i h1 h2 => ?_
  simp [tabulate, h1]

theorem getD_tabulate {n i : ℕ} (h : i < n) (g : ℕ → α) (x : α) : (tabulate n g).getD i x = g i := by
  simp [tabulate, h]

theorem tabulate_congr {n : ℕ} {g h : ℕ → α} (heq : ∀ i < n, g i = h i) :
    tabulate n g = tabulate n h :=
  List.map_congr_left fun i hi => heq i (List.mem_range.mp hi)

theorem map_tabulate (f : α → β) (n : ℕ) (g : ℕ → α) :
    (tabulate n g).map f = tabulate n fun i => f (g i) := by
  simp [tabulate]

theorem replicate_eq_tabulate (n : ℕ) (x : α) : List.replicate n x = tabulate n fun _ => x := by
  simp [tabulate]

theorem zipWith_tabulate (f : α → β → γ) (n : ℕ) (g : ℕ → α) (h : ℕ → β) :
    List.zipWith f (tabulate n g) (tabulate n h) = tabulate n fun i => f (g i) (h i) := by
  refine List.ext_getElem (by simp) fun i h1 h2 => ?_
  simp [tabulate]

theorem overwrite_eq_some {v src : List α} (h : src.length ≤ v.length) :
    overwrite v src = some (src ++ v.drop src.length) := if_pos h

theorem overwrite_eq_none {v src : List α} (h : v.length < src.length) : overwrite v src = none :=
  if_neg (by omega)

theorem length_of_overwrite {v src v' : List α} (h : overwrite v src = some v') :
    v'.length = v.length ∧ src.length ≤ v.length := by
  unfold overwrite at h
  split at h
  · obtain rfl := Option.some.inj h
    simp only [List.length_append, List.length_drop]
    omega
  · exact absurd h (by simp)

theorem readFirst_of_le {v : List α} {n : ℕ} (h : n ≤ v.length) : readFirst v n = some (v.take n) :=
  if_pos h

theorem readFirst_append (src rest : List α) :
    readFirst (src ++ rest) src.length = some src := by
  simp [readFirst]

/-- A combining loop over a vector that starts with `tabulate n g`. -/
theorem combine_tabulate (f : α → β → α) (n : ℕ) (g : ℕ → α) (h : ℕ → β) (rest : List α) :
    combine f (tabulate n g ++ rest) (tabulate n h) =
      some (tabulate n (fun i => f (g i) (h i)) ++ rest) := by
  have hzip : List.zipWith f (tabulate n g ++ rest) (tabulate n h) =
      tabulate n fun i => f (g i) (h i) := by
    rw [← List.append_nil (tabulate n h), List.zipWith_append (by simp), zipWith_tabulate]
    simp
  unfold combine
  rw [if_pos (by simp), hzip]
  simp

/-! ## Windows -/

/-- `while (q.size() > n) q.pop_front()`. -/
def trim (n : ℕ) (q : List α) : List α := q.rtake n

@[simp] theorem trim_nil (n : ℕ) : trim n ([] : List α) = [] := by
  simp [trim, List.rtake]

theorem map_trim (f : α → β) (n : ℕ) (q : List α) : (trim n q).map f = trim n (q.map f) := by
  simp [trim, List.rtake]

theorem length_trim (n : ℕ) (q : List α) : (trim n q).length = min n q.length := by
  simp [trim, List.rtake]
  omega

/-- Trimming cuts into a queue from its old end. -/
theorem trim_append (n : ℕ) (p q : List α) :
    trim n (p ++ q) = trim (n - q.length) p ++ trim n q := by
  simp only [trim, List.rtake, List.length_append, List.drop_append]
  by_cases h : q.length ≤ n
  · have h1 : p.length + q.length - n = p.length - (n - q.length) := by omega
    have h2 : p.length + q.length - n - p.length = q.length - n := by omega
    rw [h2, h1]
  · have h1 : p.drop (p.length + q.length - n) = [] := List.drop_eq_nil_of_le (by omega)
    have h2 : p.drop (p.length - (n - q.length)) = [] := List.drop_eq_nil_of_le (by omega)
    have h3 : p.length + q.length - n - p.length = q.length - n := by omega
    rw [h1, h2, h3]

theorem mem_of_mem_trim {n : ℕ} {q : List α} {x : α} (h : x ∈ trim n q) : x ∈ q :=
  List.mem_of_mem_drop h

end Buffers
