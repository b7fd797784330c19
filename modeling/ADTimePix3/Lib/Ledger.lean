import Mathlib.Data.List.Count
import Mathlib.Data.Nat.Init

/-!
# Ledgers of resources

Resources are handed out with one reference each; a reference is released, is held in a slot, or is in hand.
`Balanced` says that every resource is accounted for exactly once, and each operation of a ledger keeps it, with the
reference that it moves going into the hand or out of it.
-/

/-- `items` are the resources handed out so far, each with its content and the number of its releases; a resource is
known by its position. -/
structure Ledger (α : Type) where
  items : List (α × ℕ)
  slots : List (Option ℕ)

namespace Ledger

variable {α : Type}

def empty (n : ℕ) : Ledger α := ⟨[], List.replicate n none⟩

/-- How often the resource has been released. -/
def released (l : Ledger α) (id : ℕ) : ℕ := (l.items[id]?).elim 0 Prod.snd

def content (l : Ledger α) (id : ℕ) : Option α := (l.items[id]?).map Prod.fst

/-- The resource in a slot. -/
def slot (l : Ledger α) (addr : ℕ) : Option ℕ := (l.slots[addr]?).join

/-- Hand out a resource; it takes the next position. -/
def alloc (l : Ledger α) (a : α) : Ledger α := { l with items := l.items ++ [(a, 0)] }

def release (l : Ledger α) (id : ℕ) : Ledger α :=
  { l with items := l.items.modify id fun item => (item.1, item.2 + 1) }

def setContent (l : Ledger α) (id : ℕ) (f : α → α) : Ledger α :=
  { l with items := l.items.modify id fun item => (f item.1, item.2) }

def setSlot (l : Ledger α) (addr : ℕ) (v : Option ℕ) : Ledger α := { l with slots := l.slots.set addr v }

/-! ## Balance -/

/-- There are `n` slots, and every resource handed out is released once, or in one slot, or in hand. -/
structure Balanced (n : ℕ) (l : Ledger α) (hand : List ℕ) : Prop where
  length_slots : l.slots.length = n
  balance : ∀ id, l.released id + l.slots.count (some id) + hand.count id = if id < l.items.length then 1 else 0

/-- Every resource handed out is released once and in no slot, or not released and in exactly one. -/
def Owned (l : Ledger α) : Prop :=
  ∀ id < l.items.length,
    l.released id = 1 ∧ l.slots.count (some id) = 0 ∨ l.released id = 0 ∧ l.slots.count (some id) = 1

instance (l : Ledger α) : Decidable l.Owned :=
  inferInstanceAs (Decidable (∀ id < l.items.length,
    l.released id = 1 ∧ l.slots.count (some id) = 0 ∨ l.released id = 0 ∧ l.slots.count (some id) = 1))

variable {n : ℕ} {l : Ledger α} {hand : List ℕ} {id addr : ℕ}

theorem balanced_empty (n : ℕ) : Balanced n (empty n : Ledger α) [] where
  length_slots := List.length_replicate
  balance id := by
    simp [empty, released, List.count_replicate]

/-- With nothing in hand, the ledger is in order. -/
theorem Balanced.owned (h : Balanced n l []) : l.Owned := by
  intro id hid
  have hbal := h.balance id
  rw [if_pos hid, List.count_nil] at hbal
  omega

/-- What is in hand and nowhere else is lost. -/
theorem Balanced.not_owned (h : Balanced n l (id :: hand)) : ¬l.Owned := by
  intro howned
  have hbal := h.balance id
  rw [List.count_cons_self] at hbal
  have hid : id < l.items.length := by
    by_contra hge
    rw [if_neg hge] at hbal
    omega
  rw [if_pos hid] at hbal
  have := howned id hid
  omega

theorem Balanced.lt_of_mem_hand (h : Balanced n l hand) (hid : id ∈ hand) : id < l.items.length := by
  have hbal := h.balance id
  have hcount := List.count_pos_iff.mpr hid
  by_contra hge
  rw [if_neg hge] at hbal
  omega

theorem Balanced.perm {hand' : List ℕ} (h : Balanced n l hand) (hperm : hand.Perm hand') : Balanced n l hand' where
  length_slots := h.length_slots
  balance id := hperm.count_eq id ▸ h.balance id

theorem Balanced.alloc (h : Balanced n l hand) (a : α) : Balanced n (l.alloc a) (l.items.length :: hand) where
  length_slots := h.length_slots
  balance id := by
    have hbal := h.balance id
    simp only [Ledger.alloc, released, List.length_append, List.length_singleton] at hbal ⊢
    rcases Nat.lt_trichotomy id l.items.length with hlt | rfl | hgt
    · rw [List.getElem?_append_left hlt, List.count_cons_of_ne (by omega), if_pos (by omega)]
      rwa [if_pos hlt] at hbal
    · rw [if_neg (Nat.lt_irrefl _), List.getElem?_eq_none (Nat.le_refl _)] at hbal
      rw [List.getElem?_append_right (Nat.le_refl _), Nat.sub_self, List.count_cons_self, if_pos (by omega)]
      simp only [Option.elim_none] at hbal
      simp only [List.getElem?_cons_zero, Option.elim_some]
      omega
    · rw [if_neg (by omega), List.getElem?_eq_none (by omega)] at hbal
      rw [if_neg (by omega), List.getElem?_eq_none (by simp; omega), List.count_cons_of_ne (by omega)]
      exact hbal

theorem released_release (l : Ledger α) (id j : ℕ) :
    (l.release id).released j = l.released j + if j = id ∧ id < l.items.length then 1 else 0 := by
  simp only [release, released, List.getElem?_modify]
  by_cases hj : id = j
  · subst hj
    by_cases hlt : id < l.items.length
    · simp [hlt]
    · simp [hlt]
  · simp [hj, Ne.symm hj]

theorem Balanced.release (h : Balanced n l (id :: hand)) : Balanced n (l.release id) hand where
  length_slots := h.length_slots
  balance j := by
    have hid := h.lt_of_mem_hand (List.mem_cons_self ..)
    have hbal := h.balance j
    have hlen : (l.release id).items.length = l.items.length := List.length_modify ..
    have hslots : (l.release id).slots = l.slots := rfl
    rw [released_release, hlen, hslots, ← hbal, List.count_cons]
    by_cases hj : j = id
    · simp [hj, hid]
      omega
    · simp [hj, Ne.symm hj]

theorem Balanced.setContent (h : Balanced n l hand) (id : ℕ) (f : α → α) : Balanced n (l.setContent id f) hand where
  length_slots := h.length_slots
  balance j := by
    have hbal := h.balance j
    have hlen : (l.setContent id f).items.length = l.items.length := List.length_modify ..
    have hslots : (l.setContent id f).slots = l.slots := rfl
    have hreleased : (l.setContent id f).released j = l.released j := by
      simp only [Ledger.setContent, released, List.getElem?_modify]
      by_cases hj : id = j
      · subst hj
        cases l.items[id]? <;> simp
      · simp [hj]
    rw [hreleased, hlen, hslots, hbal]

theorem lt_of_slot (h : l.slot addr = some id) : addr < l.slots.length ∧ l.slots[addr]? = some (some id) := by
  unfold slot at h
  have hget := Option.join_eq_some_iff.mp h
  exact ⟨(List.getElem?_eq_some_iff.mp hget).1, hget⟩

/-- Clearing a slot takes its reference in hand. -/
theorem Balanced.take (h : Balanced n l hand) (hslot : l.slot addr = some id) :
    Balanced n (l.setSlot addr none) (id :: hand) where
  length_slots := (List.length_set ..).trans h.length_slots
  balance j := by
    obtain ⟨hlt, hget⟩ := lt_of_slot hslot
    have hbal := h.balance j
    have hcell : l.slots[addr] = some id := by
      rwa [List.getElem?_eq_getElem hlt, Option.some_inj] at hget
    have hcount := List.count_set (b := some j) (a := none) hlt
    have hmem : 0 < l.slots.count (some id) := List.count_pos_iff.mpr (hcell ▸ List.getElem_mem hlt)
    have hreleased : (l.setSlot addr none).released j = l.released j := rfl
    have hlen : (l.setSlot addr none).items.length = l.items.length := rfl
    rw [hreleased, hlen, ← hbal]
    simp only [setSlot, hcount, hcell, List.count_cons]
    by_cases hj : j = id
    · subst hj
      simp
      omega
    · simp [Ne.symm hj]

/-- A reference in hand goes into an empty slot. -/
theorem Balanced.put (h : Balanced n l (id :: hand)) (haddr : addr < n) (hslot : l.slot addr = none) :
    Balanced n (l.setSlot addr (some id)) hand where
  length_slots := (List.length_set ..).trans h.length_slots
  balance j := by
    have hbal := h.balance j
    have hlt : addr < l.slots.length := h.length_slots ▸ haddr
    have hcell : l.slots[addr] = none := by
      unfold slot at hslot
      rwa [List.getElem?_eq_getElem hlt] at hslot
    have hcount := List.count_set (b := some j) (a := some id) hlt
    have hreleased : (l.setSlot addr (some id)).released j = l.released j := rfl
    have hlen : (l.setSlot addr (some id)).items.length = l.items.length := rfl
    rw [hreleased, hlen, ← hbal]
    simp only [setSlot, hcount, hcell, List.count_cons]
    by_cases hj : j = id
    · subst hj
      simp
      omega
    · simp [Ne.symm hj]

@[simp] theorem slot_setSlot_self (h : addr < l.slots.length) (v : Option ℕ) : (l.setSlot addr v).slot addr = v := by
  simp [slot, setSlot, h]

end Ledger
