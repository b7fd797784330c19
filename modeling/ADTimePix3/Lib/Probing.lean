import Mathlib.Data.Finset.Interval
import Mathlib.Data.Nat.Find
import Mathlib.Order.Interval.Finset.Nat

/-!
# Linear probing

Keys are placed one after the other: a key that is a free slot is placed there, whether or not the slot has
been taken, and any other key in the next free slot above it that has not been taken. A history lists the
placements, the newest first.

The rules are `slot_taken_iff`, a free slot that is no key has been taken exactly when some interval that ends
there holds no more free slots than keys, and `placed_fresh_iff`, which says it of a new key.
-/

namespace Probing

variable (free : ℕ → Prop)

/-- The slot at which a key is placed behind a history. -/
structure PlacedAt (history : List (ℕ × ℕ)) (key slot : ℕ) : Prop where
  own : free key → slot = key
  above : ¬ free key → key < slot ∧ free slot ∧ slot ∉ history.map Prod.snd
  between : ∀ y, key ≤ y → y < slot → free y → y ∈ history.map Prod.snd

/-- Every key of the history has been placed. -/
def Places : List (ℕ × ℕ) → Prop
  | [] => True
  | (key, slot) :: history => PlacedAt free history key slot ∧ Places history

variable {free} {history : List (ℕ × ℕ)} {key slot x : ℕ}

theorem PlacedAt.le_free (h : PlacedAt free history key slot) : key ≤ slot ∧ free slot := by
  by_cases hfree : free key
  · rw [h.own hfree]
    exact ⟨le_refl key, hfree⟩
  · exact ⟨(h.above hfree).1.le, (h.above hfree).2.1⟩

theorem Places.le_free (h : Places free history) (hmem : (key, slot) ∈ history) : key ≤ slot ∧ free slot := by
  induction history with
  | nil => cases hmem
  | cons e history ih =>
    rcases List.mem_cons.mp hmem with rfl | hmem
    · exact h.1.le_free
    · exact ih h.2 hmem

/-- The free slots between a key and its slot have been taken. -/
theorem Places.between (h : Places free history) (hmem : (key, slot) ∈ history) {y : ℕ} (hkey : key ≤ y)
    (hslot : y < slot) (hfree : free y) : y ∈ history.map Prod.snd := by
  induction history with
  | nil => cases hmem
  | cons e history ih =>
    refine List.mem_cons_of_mem _ ?_
    rcases List.mem_cons.mp hmem with rfl | hmem
    · exact h.1.between y hkey hslot hfree
    · exact ih h.2 hmem

/-- A free slot that is a key has been taken by it. -/
theorem Places.taken_of_key (h : Places free history) (hfree : free x) (hkey : x ∈ history.map Prod.fst) :
    x ∈ history.map Prod.snd := by
  induction history with
  | nil => cases hkey
  | cons e history ih =>
    rcases List.mem_cons.mp hkey with rfl | hkey
    · rw [List.map_cons, h.1.own hfree]
      exact List.mem_cons_self ..
    · exact List.mem_cons_of_mem _ (ih h.2 hkey)

variable [DecidablePred free]

/-- The number of free slots from `a` to `x`. -/
def freeCount (free : ℕ → Prop) [DecidablePred free] (a x : ℕ) : ℕ := ((Finset.Icc a x).filter free).card

/-- The keys from `a` on below `x`. -/
def keysIn (history : List (ℕ × ℕ)) (a x : ℕ) : List (ℕ × ℕ) :=
  history.filter fun e => decide (a ≤ e.1 ∧ e.1 < x)

theorem mem_keysIn {e : ℕ × ℕ} {a : ℕ} : e ∈ keysIn history a x ↔ e ∈ history ∧ a ≤ e.1 ∧ e.1 < x := by
  simp [keysIn]

/-- Keys below a slot that has not been taken do not fill the free slots up to it. -/
theorem keysIn_length_lt (h : Places free history) (hnodup : (history.map Prod.snd).Nodup) (hx : free x)
    (hnot : x ∉ history.map Prod.snd) {a : ℕ} (ha : a ≤ x) :
    (keysIn history a x).length < freeCount free a x := by
  have hslots : ((keysIn history a x).map Prod.snd).Nodup :=
    hnodup.sublist (List.filter_sublist.map Prod.snd)
  have hsub : ((keysIn history a x).map Prod.snd).toFinset ⊆ ((Finset.Icc a x).filter free).erase x := by
    intro y hy
    obtain ⟨⟨p, q⟩, he, rfl⟩ := List.mem_map.mp (List.mem_toFinset.mp hy)
    obtain ⟨hmem, hap, hpx⟩ := mem_keysIn.mp he
    obtain ⟨hpq, hfree⟩ := h.le_free hmem
    have hne : q ≠ x := by
      rintro rfl
      exact hnot (List.mem_map_of_mem hmem)
    -- had the slot been passed over, it would have been taken
    have hle : q ≤ x := by
      by_contra hlt
      exact hnot (h.between hmem hpx.le (not_le.mp hlt) hx)
    rw [Finset.mem_erase, Finset.mem_filter, Finset.mem_Icc]
    exact ⟨hne, ⟨hap.trans hpq, hle⟩, hfree⟩
  have hmemx : x ∈ (Finset.Icc a x).filter free := by
    rw [Finset.mem_filter, Finset.mem_Icc]
    exact ⟨⟨ha, le_refl x⟩, hx⟩
  calc (keysIn history a x).length = ((keysIn history a x).map Prod.snd).toFinset.card := by
        rw [List.toFinset_card_of_nodup hslots, List.length_map]
    _ ≤ (((Finset.Icc a x).filter free).erase x).card := Finset.card_le_card hsub
    _ < freeCount free a x := Finset.card_erase_lt_of_mem hmemx

/-- A slot that has been taken ends an interval whose free slots were taken by keys of the interval. -/
theorem freeCount_le (h : Places free history) (hkey : x ∉ history.map Prod.fst)
    (htaken : x ∈ history.map Prod.snd) : ∃ a ≤ x, freeCount free a x ≤ (keysIn history a x).length := by
  -- the longest interval without a free slot that has not been taken
  have hexists : ∃ a, ∀ y, a ≤ y → y ≤ x → free y → y ∈ history.map Prod.snd := by
    refine ⟨x, fun y hy hyx _ => ?_⟩
    rw [le_antisymm hyx hy]
    exact htaken
  classical
  have hspec := Nat.find_spec hexists
  have hmin : ∀ m < Nat.find hexists, ¬ ∀ y, m ≤ y → y ≤ x → free y → y ∈ history.map Prod.snd :=
    fun m hm => Nat.find_min hexists hm
  have hle : Nat.find hexists ≤ x := by
    refine Nat.find_min' hexists fun y hy hyx _ => ?_
    rw [le_antisymm hyx hy]
    exact htaken
  generalize Nat.find hexists = a at hspec hmin hle
  refine ⟨a, hle, ?_⟩
  have hsub : (Finset.Icc a x).filter free ⊆ ((keysIn history a x).map Prod.snd).toFinset := by
    intro y hy
    rw [Finset.mem_filter, Finset.mem_Icc] at hy
    obtain ⟨⟨hay, hyx⟩, hfree⟩ := hy
    obtain ⟨⟨p, q⟩, hmem, rfl⟩ := List.mem_map.mp (hspec y hay hyx hfree)
    -- a key below the interval would have passed over the slot in front of it
    have hap : a ≤ p := by
      by_contra hlt
      refine hmin (a - 1) (by omega) fun z hz hzx hzfree => ?_
      by_cases hza : a ≤ z
      · exact hspec z hza hzx hzfree
      · have hay' : a ≤ q := hay
        exact h.between hmem (by omega) (by omega) hzfree
    have hpx : p < x := by
      have hpq := (h.le_free hmem).1
      have hne : p ≠ x := by
        rintro rfl
        exact hkey (List.mem_map_of_mem hmem)
      have hqx : q ≤ x := hyx
      omega
    exact List.mem_toFinset.mpr (List.mem_map_of_mem (mem_keysIn.mpr ⟨hmem, hap, hpx⟩))
  calc freeCount free a x ≤ ((keysIn history a x).map Prod.snd).toFinset.card := Finset.card_le_card hsub
    _ ≤ ((keysIn history a x).map Prod.snd).length := List.toFinset_card_le _
    _ = (keysIn history a x).length := List.length_map _

/-- As long as no slot has been taken twice. -/
theorem slot_taken_iff (h : Places free history) (hnodup : (history.map Prod.snd).Nodup) (hx : free x)
    (hkey : x ∉ history.map Prod.fst) :
    x ∈ history.map Prod.snd ↔ ∃ a ≤ x, freeCount free a x ≤ (keysIn history a x).length := by
  constructor
  · exact freeCount_le h hkey
  · rintro ⟨a, ha, hle⟩
    by_contra hnot
    exact absurd hle (not_le.mpr (keysIn_length_lt h hnodup hx hnot ha))

/-- A new key takes a slot that has not been taken exactly when it is no free slot itself, or there is room for
it. -/
theorem placed_fresh_iff (h : Places free history) (hplaced : PlacedAt free history key slot)
    (hnodup : (history.map Prod.snd).Nodup) (hkey : key ∉ history.map Prod.fst) :
    slot ∉ history.map Prod.snd ↔
      (free key → ∀ a ≤ key, (keysIn history a key).length < freeCount free a key) := by
  by_cases hfree : free key
  · rw [hplaced.own hfree, slot_taken_iff h hnodup hfree hkey]
    constructor
    · intro hnone _ a ha
      by_contra hle
      exact hnone ⟨a, ha, not_lt.mp hle⟩
    · rintro hroom ⟨a, ha, hle⟩
      exact absurd hle (not_le.mpr (hroom hfree a ha))
  · exact ⟨fun _ hkeyfree => absurd hkeyfree hfree, fun _ => (hplaced.above hfree).2.2⟩

theorem length_keysIn (history : List (ℕ × ℕ)) (a x : ℕ) :
    (keysIn history a x).length = (history.map Prod.fst).countP fun key => a ≤ key ∧ key < x := by
  rw [keysIn, ← List.countP_eq_length_filter, List.countP_map]
  rfl

end Probing
