import Mathlib.Algebra.Order.Ring.Int
import Mathlib.Data.List.Basic

/-!
# Counting loops over an array

C loops `for (x = lo; x < hi; ++x)` over an array whose accesses are checked: a run that indexes outside
the array has no result (`none`). The relation `Touches f S` says what such a loop does to the array when
its body only ever applies `f` to elements: the elements with index in `S` are changed by `f`, the others
are not. For an idempotent `f` it composes, so the effect of nested loops is read off their bounds.
-/

namespace Loops

variable {α σ : Type}

/-- The values of the loop variable of `for (x = lo; x < hi; ++x)`. -/
def forRange (lo hi : ℤ) : List ℤ := (List.range (hi - lo).toNat).map fun n : ℕ => lo + n

theorem mem_forRange {lo hi x : ℤ} : x ∈ forRange lo hi ↔ lo ≤ x ∧ x < hi := by
  simp only [forRange, List.mem_map, List.mem_range]
  constructor
  · rintro ⟨n, hn, rfl⟩
    omega
  · rintro ⟨h1, h2⟩
    exact ⟨(x - lo).toNat, by omega, by omega⟩

/-- `for (x = lo; x < hi; ++x)` with a body that may fail. -/
def forLoop (lo hi : ℤ) (body : ℤ → σ → Option σ) (s : σ) : Option σ :=
  (forRange lo hi).foldlM (fun s x => body x s) s

/-- `buf[idx] = f(buf[idx])`; there is no result when `idx` is outside the array. -/
def update (buf : List α) (idx : ℤ) (f : α → α) : Option (List α) :=
  if 0 ≤ idx ∧ idx < buf.length then some (buf.modify idx.toNat f) else none

/-- `buf[idx]`; there is no result when `idx` is outside the array. -/
def fetch (buf : List α) (idx : ℤ) : Option α :=
  if 0 ≤ idx then buf[idx.toNat]? else none

theorem isSome_update_iff {buf : List α} {idx : ℤ} {f : α → α} :
    (update buf idx f).isSome ↔ 0 ≤ idx ∧ idx < buf.length := by
  unfold update
  split <;> simp_all

theorem length_of_update {buf buf' : List α} {idx : ℤ} {f : α → α} (h : update buf idx f = some buf') :
    buf'.length = buf.length := by
  unfold update at h
  split at h
  · rw [← Option.some.inj h, List.length_modify]
  · cases h

theorem update_append (l : List α) (a : α) (rest : List α) (f : α → α) :
    update (l ++ a :: rest) l.length f = some (l ++ f a :: rest) := by
  rw [update, if_pos ⟨Int.natCast_nonneg _, by simp⟩, Int.toNat_natCast, List.modify_eq_take_drop]
  simp

theorem isSome_fetch_iff {buf : List α} {idx : ℤ} : (fetch buf idx).isSome ↔ 0 ≤ idx ∧ idx < buf.length := by
  unfold fetch
  split
  · rw [isSome_getElem?]
    omega
  · simp_all

/-- The elements with index in `S` are changed by `f`, the others are kept. -/
structure Touches (f : α → α) (S : ℤ → Prop) (buf buf' : List α) : Prop where
  touched : ∀ n : ℕ, S n → buf'[n]? = buf[n]?.map f
  kept : ∀ n : ℕ, ¬ S n → buf'[n]? = buf[n]?

namespace Touches

variable {f : α → α} {S T : ℤ → Prop} {a b c : List α}

theorem refl (h : ∀ n, ¬ S n) : Touches f S a a :=
  ⟨fun n hn => absurd hn (h n), fun _ _ => rfl⟩

theorem length_eq (h : Touches f S a b) : b.length = a.length := by
  have hiff : ∀ n, b.length ≤ n ↔ a.length ≤ n := by
    intro n
    rw [← List.getElem?_eq_none_iff, ← List.getElem?_eq_none_iff]
    by_cases hS : S n
    · rw [h.touched n hS, Option.map_eq_none_iff]
    · rw [h.kept n hS]
  exact le_antisymm ((hiff _).mpr le_rfl) ((hiff _).mp le_rfl)

theorem congr (h : Touches f S a b) (hST : ∀ n, S n ↔ T n) : Touches f T a b :=
  ⟨fun n hn => h.touched n ((hST n).mpr hn), fun n hn => h.kept n (mt (hST n).mp hn)⟩

/-- One effect after the other, for an `f` that may be applied twice. -/
theorem trans (hf : ∀ x, f (f x) = f x) (h1 : Touches f S a b) (h2 : Touches f T b c) :
    Touches f (fun n => S n ∨ T n) a c := by
  refine ⟨fun n hn => ?_, fun n hn => ?_⟩
  · by_cases hS : S n <;> by_cases hT : T n
    · rw [h2.touched n hT, h1.touched n hS, Option.map_map]
      congr 1
      exact funext hf
    · rw [h2.kept n hT, h1.touched n hS]
    · rw [h2.touched n hT, h1.kept n hS]
    · exact absurd hn (by tauto)
  · rw [h2.kept n (fun h => hn (.inr h)), h1.kept n (fun h => hn (.inl h))]

end Touches

theorem update_touches {buf : List α} {idx : ℤ} {f : α → α} (h0 : 0 ≤ idx)
    (hlt : idx < buf.length) :
    ∃ buf', update buf idx f = some buf' ∧ Touches f (fun n => n = idx) buf buf' := by
  refine ⟨buf.modify idx.toNat f, by rw [update, if_pos ⟨h0, hlt⟩], fun n hn => ?_, fun n hn => ?_⟩
  · have : idx.toNat = n := by omega
    simp [this]
  · have : idx.toNat ≠ n := by omega
    simp [this]

/-- A loop touches what its iterations touch. -/
theorem foldlM_touches {f : α → α} (hf : ∀ x, f (f x) = f x) {S : ℤ → ℤ → Prop} {len : ℕ}
    {body : ℤ → List α → Option (List α)} (l : List ℤ)
    (hbody : ∀ x ∈ l, ∀ b, b.length = len → ∃ b', body x b = some b' ∧ Touches f (S x) b b')
    (buf : List α) (hlen : buf.length = len) :
    ∃ buf', l.foldlM (fun s x => body x s) buf = some buf' ∧
      Touches f (fun n => ∃ x ∈ l, S x n) buf buf' := by
  induction l generalizing buf with
  | nil => exact ⟨buf, rfl, Touches.refl (by simp)⟩
  | cons x l ih =>
    obtain ⟨b, hb, htb⟩ := hbody x (List.mem_cons_self ..) buf hlen
    obtain ⟨c, hc, htc⟩ := ih (fun y hy => hbody y (List.mem_cons_of_mem x hy)) b
      (htb.length_eq.trans hlen)
    refine ⟨c, ?_, (htb.trans hf htc).congr fun n => by simp⟩
    rw [List.foldlM_cons, hb]
    exact hc

/-- The loop rule: a counting loop touches what its iterations touch. -/
theorem forLoop_touches {f : α → α} (hf : ∀ x, f (f x) = f x) {S : ℤ → ℤ → Prop} {len : ℕ}
    {lo hi : ℤ} {body : ℤ → List α → Option (List α)}
    (hbody : ∀ x, lo ≤ x → x < hi → ∀ b, b.length = len →
      ∃ b', body x b = some b' ∧ Touches f (S x) b b')
    (buf : List α) (hlen : buf.length = len) :
    ∃ buf', forLoop lo hi body buf = some buf' ∧
      Touches f (fun n => ∃ x, (lo ≤ x ∧ x < hi) ∧ S x n) buf buf' := by
  obtain ⟨b, hb, ht⟩ := foldlM_touches hf (forRange lo hi)
    (fun x hx => hbody x (mem_forRange.mp hx).1 (mem_forRange.mp hx).2) buf hlen
  exact ⟨b, hb, ht.congr fun n => by simp only [mem_forRange]⟩

/-- The loop rule for two nested loops with fixed bounds. -/
theorem nested_touches {f : α → α} (hf : ∀ x, f (f x) = f x) {S : ℤ → ℤ → ℤ → Prop} {len : ℕ}
    {jlo jhi ilo ihi : ℤ} {body : ℤ → ℤ → List α → Option (List α)}
    (hbody : ∀ j i, jlo ≤ j → j < jhi → ilo ≤ i → i < ihi → ∀ b, b.length = len →
      ∃ b', body j i b = some b' ∧ Touches f (S j i) b b')
    (buf : List α) (hlen : buf.length = len) :
    ∃ buf', forLoop jlo jhi (fun j => forLoop ilo ihi (body j)) buf = some buf' ∧
      Touches f (fun n => ∃ j, (jlo ≤ j ∧ j < jhi) ∧ ∃ i, (ilo ≤ i ∧ i < ihi) ∧ S j i n) buf buf' := by
  apply forLoop_touches hf _ buf hlen
  intro j hj hj' b hb
  exact forLoop_touches hf (fun i hi hi' => hbody j i hj hj' hi hi') b hb

/-- Two loops with bodies that agree between the bounds are the same. -/
theorem forLoop_congr {lo hi : ℤ} {body body' : ℤ → σ → Option σ}
    (h : ∀ x, lo ≤ x → x < hi → ∀ s, body x s = body' x s) (s : σ) :
    forLoop lo hi body s = forLoop lo hi body' s := by
  unfold forLoop
  have hmem : ∀ x ∈ forRange lo hi, ∀ s, body x s = body' x s := by
    intro x hx
    obtain ⟨h1, h2⟩ := mem_forRange.mp hx
    exact h x h1 h2
  generalize forRange lo hi = l at hmem
  induction l generalizing s with
  | nil => rfl
  | cons x l ih =>
    rw [List.foldlM_cons, List.foldlM_cons, hmem x (List.mem_cons_self ..) s]
    congr 1
    funext t
    exact ih t fun y hy => hmem y (List.mem_cons_of_mem x hy)

theorem forLoop_single (lo : ℤ) (body : ℤ → σ → Option σ) (s : σ) :
    forLoop lo (lo + 1) body s = body lo s := by
  have hrange : forRange lo (lo + 1) = [lo] := by simp [forRange]
  rw [forLoop, hrange, List.foldlM_cons]
  simp

/-- A loop whose iterations change nothing changes nothing. -/
theorem forLoop_stable {lo hi : ℤ} {body : ℤ → σ → Option σ} {s s' : σ}
    (hbody : ∀ x s', body x s = some s' → s' = s) (h : forLoop lo hi body s = some s') : s' = s := by
  unfold forLoop at h
  generalize forRange lo hi = l at h
  induction l with
  | nil => exact (Option.some.inj h).symm
  | cons x l ih =>
    rw [List.foldlM_cons] at h
    obtain ⟨t, ht, hrest⟩ := Option.bind_eq_some_iff.mp h
    rw [hbody x t ht] at hrest
    exact ih hrest

/-- A loop runs to its end when every iteration does, if whether one does is up to the loop variable alone. -/
theorem forLoop_isSome_iff {lo hi : ℤ} {body : ℤ → σ → Option σ} {I : σ → Prop} {P : ℤ → Prop}
    (hbody : ∀ x s, lo ≤ x → x < hi → I s → ((body x s).isSome ↔ P x))
    (hinv : ∀ x s s', lo ≤ x → x < hi → I s → body x s = some s' → I s') {s : σ} (hs : I s) :
    (forLoop lo hi body s).isSome ↔ ∀ x, lo ≤ x → x < hi → P x := by
  have hrange : (∀ x, lo ≤ x → x < hi → P x) ↔ ∀ x ∈ forRange lo hi, P x :=
    forall_congr' fun x => by rw [mem_forRange, and_imp]
  have hmem : ∀ x ∈ forRange lo hi, lo ≤ x ∧ x < hi := fun x => mem_forRange.mp
  rw [hrange, forLoop]
  generalize forRange lo hi = l at hmem
  induction l generalizing s with
  | nil => simp
  | cons x l ih =>
    obtain ⟨hlo, hhi⟩ := hmem x List.mem_cons_self
    rw [List.foldlM_cons, List.forall_mem_cons, ← hbody x s hlo hhi hs]
    cases hx : body x s with
    | none => simp
    | some s' =>
      have hrest := ih (hinv x s s' hlo hhi hs hx) fun y hy => hmem y (List.mem_cons_of_mem _ hy)
      show (l.foldlM (fun s x => body x s) s').isSome ↔ _
      simpa using hrest

theorem forLoop_isSome {lo hi : ℤ} {body : ℤ → σ → Option σ}
    (hbody : ∀ x s, lo ≤ x → x < hi → (body x s).isSome) (s : σ) : (forLoop lo hi body s).isSome := by
  have hiff : (forLoop lo hi body s).isSome ↔ ∀ x, lo ≤ x → x < hi → (fun _ => True) x :=
    forLoop_isSome_iff (fun x s hlo hhi _ => iff_of_true (hbody x s hlo hhi) trivial)
      (fun _ _ _ _ _ _ _ => trivial) (trivial : (fun _ => True) s)
  exact hiff.mpr fun _ _ _ => trivial

/-- What every iteration keeps is there at the end. -/
theorem forLoop_invariant {lo hi : ℤ} {body : ℤ → σ → Option σ} {I : σ → Prop}
    (hinv : ∀ x s s', lo ≤ x → x < hi → I s → body x s = some s' → I s') {s s' : σ} (hs : I s)
    (h : forLoop lo hi body s = some s') : I s' := by
  have hmem : ∀ x ∈ forRange lo hi, lo ≤ x ∧ x < hi := fun x => mem_forRange.mp
  rw [forLoop] at h
  generalize forRange lo hi = l at hmem h
  induction l generalizing s with
  | nil => exact Option.some.inj h ▸ hs
  | cons x l ih =>
    obtain ⟨hlo, hhi⟩ := hmem x List.mem_cons_self
    rw [List.foldlM_cons] at h
    obtain ⟨t, ht, hrest⟩ := Option.bind_eq_some_iff.mp h
    exact ih (hinv x s t hlo hhi hs ht) (fun y hy => hmem y (List.mem_cons_of_mem _ hy)) hrest

/-- The last iteration of a loop from zero. -/
theorem forLoop_succ (n : ℕ) (body : ℤ → σ → Option σ) (s : σ) :
    forLoop 0 ((n + 1 : ℕ) : ℤ) body s = (forLoop 0 n body s).bind (body n) := by
  have hrange : ∀ n : ℕ, forRange 0 (n : ℤ) = (List.range n).map fun k : ℕ => (k : ℤ) := by
    intro n
    simp [forRange]
  unfold forLoop
  rw [hrange, hrange, List.range_succ, List.map_append, List.foldlM_append]
  refine Option.bind_congr fun t _ => ?_
  simp

theorem ite_touches {f : α → α} {S : ℤ → Prop} {p : Prop} [Decidable p] (buf : List α)
    {r : Option (List α)} (h : p → ∃ buf', r = some buf' ∧ Touches f S buf buf') :
    ∃ buf', (if p then r else some buf) = some buf' ∧ Touches f (fun n => p ∧ S n) buf buf' := by
  by_cases hp : p
  · obtain ⟨b, hb, ht⟩ := h hp
    exact ⟨b, by rw [if_pos hp, hb], ht.congr fun n => by simp [hp]⟩
  · exact ⟨buf, by rw [if_neg hp], Touches.refl fun n hn => hp hn.1⟩

theorem fetch_eq (buf : List α) {idx : ℤ} (h0 : 0 ≤ idx) (hlt : idx < buf.length) :
    ∃ x, fetch buf idx = some x ∧ buf[idx.toNat]? = some x := by
  have hn : idx.toNat < buf.length := by omega
  refine ⟨buf[idx.toNat], ?_, List.getElem?_eq_getElem hn⟩
  rw [fetch, if_pos h0, List.getElem?_eq_getElem hn]

theorem mem_of_fetch {buf : List α} {idx : ℤ} {x : α} (h : fetch buf idx = some x) : x ∈ buf := by
  unfold fetch at h
  by_cases h0 : 0 ≤ idx
  · rw [if_pos h0] at h
    exact List.mem_of_getElem? h
  · rw [if_neg h0] at h
    cases h

theorem Touches.fetch_touched {f : α → α} {S : ℤ → Prop} {a b : List α} (h : Touches f S a b) {idx : ℤ}
    (h0 : 0 ≤ idx) (hS : S idx) : fetch b idx = (fetch a idx).map f := by
  have hidx : (idx.toNat : ℤ) = idx := Int.toNat_of_nonneg h0
  simp only [fetch, if_pos h0]
  exact h.touched idx.toNat (by rwa [hidx])

theorem Touches.fetch_kept {f : α → α} {S : ℤ → Prop} {a b : List α} (h : Touches f S a b) {idx : ℤ}
    (hS : ¬ S idx) : fetch b idx = fetch a idx := by
  unfold fetch
  by_cases h0 : 0 ≤ idx
  · have hidx : (idx.toNat : ℤ) = idx := Int.toNat_of_nonneg h0
    rw [if_pos h0, if_pos h0]
    exact h.kept idx.toNat (by rwa [hidx])
  · rw [if_neg h0, if_neg h0]

/-- A loop that sets elements to values which depend on the index only. -/
theorem getElem?_foldl_set {β : Type} (pos : β → ℕ) (val : ℕ → α) (l : List β) (v : List α) (n : ℕ) :
    (l.foldl (fun v x => v.set (pos x) (val (pos x))) v)[n]? =
      if n < v.length ∧ n ∈ l.map pos then some (val n) else v[n]? := by
  induction l generalizing v with
  | nil => simp
  | cons x l ih =>
    simp only [List.foldl_cons, ih, List.length_set, List.map_cons, List.mem_cons, List.getElem?_set]
    by_cases hn : n < v.length
    · by_cases hx : pos x = n
      · simp [hn, hx]
      · simp [hn, hx, Ne.symm hx]
    · simp [hn]
      intro hx
      omega

/-- How often an element of an array is met at index `k`: once, if it is there and has the property. -/
theorem countP_zipIdx (p : α → ℕ → Bool) (l : List α) (n k : ℕ) :
    (l.zipIdx n).countP (fun x => p x.1 x.2 && x.2 == k) =
      if n ≤ k ∧ (l[k - n]?.any fun a => p a k) = true then 1 else 0 := by
  induction l generalizing n with
  | nil => simp
  | cons a l ih =>
    rw [List.zipIdx_cons, List.countP_cons, ih]
    rcases Nat.lt_trichotomy n k with h | rfl | h
    · have hsub : k - n = k - (n + 1) + 1 := by omega
      have hbeq : (n == k) = false := beq_eq_false_iff_ne.mpr h.ne
      simp [hsub, hbeq, h.le, Nat.succ_le_of_lt h]
    · simp
    · have hbeq : (n == k) = false := beq_eq_false_iff_ne.mpr h.ne'
      simp [hbeq, not_le.mpr h, show ¬ n + 1 ≤ k by omega]

end Loops
