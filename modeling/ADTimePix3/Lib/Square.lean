import Mathlib.Data.Set.Function
import Mathlib.Algebra.Order.Ring.Int
import Mathlib.Tactic.Ring
import Mathlib.Tactic.Linarith

/-!
# Symmetries of a square of pixels, and mosaics of squares

A pixel of a `w × w` square is a pair `(x, y)` with `0 ≤ x, y < w`. The eight symmetries of the square
are an optional transposition followed by an optional reversal of each axis (`Sym`). A *mosaic* covers a
rectangular grid of such squares with numbered chips, each placed on one tile by a symmetry; it maps the
linear index of a pixel in the concatenation of all chips to a pixel of the assembled image, and back.

Nothing here depends on what the pixels are used for.
-/

namespace Square

/-! ## The eight symmetries -/

/-- `a`, or the coordinate opposite to `a` on an axis of length `w`. -/
def mirror (b : Bool) (w a : ℤ) : ℤ := if b then w - 1 - a else a

/-- A symmetry of the square: transpose if `swap`, then reverse the axes marked by the flips. -/
structure Sym where
  /-- Exchange the two coordinates first. -/
  swap : Bool
  /-- Reverse the first axis of the result. -/
  flipX : Bool
  /-- Reverse the second axis of the result. -/
  flipY : Bool
deriving DecidableEq, Repr

/-- `(x, y)` is a pixel of the `w × h` rectangle. -/
def InRect (w h : ℤ) (p : ℤ × ℤ) : Prop := (0 ≤ p.1 ∧ p.1 < w) ∧ 0 ≤ p.2 ∧ p.2 < h

instance (w h : ℤ) (p : ℤ × ℤ) : Decidable (InRect w h p) := inferInstanceAs (Decidable (_ ∧ _))

theorem mirror_range {b : Bool} {w a : ℤ} (h0 : 0 ≤ a) (hw : a < w) :
    0 ≤ mirror b w a ∧ mirror b w a < w := by
  unfold mirror
  split_ifs <;> omega

/-- Reversing an axis of `n` tiles of length `w` reverses the tiles and each tile. -/
theorem mirror_tile (b : Bool) (n w X x : ℤ) :
    mirror b (n * w) (X * w + x) = mirror b n X * w + mirror b w x := by
  cases b
  · rfl
  · simp only [mirror, if_true]
    ring

namespace Sym

def id : Sym := ⟨false, false, false⟩

/-- The action of a symmetry on the pixels of the `w × w` square. -/
def act (s : Sym) (w : ℤ) (p : ℤ × ℤ) : ℤ × ℤ :=
  (mirror s.flipX w (if s.swap then p.2 else p.1), mirror s.flipY w (if s.swap then p.1 else p.2))

/-- The symmetry that undoes `s`. -/
def inv (s : Sym) : Sym := if s.swap then ⟨true, s.flipY, s.flipX⟩ else s

/-- First `s`, then `t`. -/
def comp (t s : Sym) : Sym :=
  ⟨xor t.swap s.swap, xor t.flipX (if t.swap then s.flipY else s.flipX),
    xor t.flipY (if t.swap then s.flipX else s.flipY)⟩

theorem act_mem (s : Sym) {w : ℤ} {p : ℤ × ℤ} (hp : InRect w w p) : InRect w w (s.act w p) := by
  obtain ⟨⟨h1, h2⟩, h3, h4⟩ := hp
  cases h : s.swap
  · exact ⟨by simpa [act, h] using mirror_range h1 h2, by simpa [act, h] using mirror_range h3 h4⟩
  · exact ⟨by simpa [act, h] using mirror_range h3 h4, by simpa [act, h] using mirror_range h1 h2⟩

theorem act_comp (t s : Sym) (w : ℤ) (p : ℤ × ℤ) : (t.comp s).act w p = t.act w (s.act w p) := by
  obtain ⟨ts, tx, ty⟩ := t
  obtain ⟨ss, sx, sy⟩ := s
  cases ts <;> cases tx <;> cases ty <;> cases ss <;> cases sx <;> cases sy <;>
    simp [act, comp, mirror]

@[simp] theorem id_act (w : ℤ) (p : ℤ × ℤ) : id.act w p = p := by simp [id, act, mirror]

theorem inv_comp (s : Sym) : s.inv.comp s = id := by
  obtain ⟨a, b, c⟩ := s
  revert a b c
  decide

theorem comp_inv (s : Sym) : s.comp s.inv = id := by
  obtain ⟨a, b, c⟩ := s
  revert a b c
  decide

theorem inv_comp_comp (r s : Sym) : (r.comp s).inv.comp r = s.inv := by
  obtain ⟨a, b, c⟩ := r
  obtain ⟨d, e, f⟩ := s
  revert a b c d e f
  decide

@[simp] theorem inv_act_act (s : Sym) (w : ℤ) (p : ℤ × ℤ) : s.inv.act w (s.act w p) = p := by
  rw [← act_comp, inv_comp, id_act]

@[simp] theorem act_inv_act (s : Sym) (w : ℤ) (p : ℤ × ℤ) : s.act w (s.inv.act w p) = p := by
  rw [← act_comp, comp_inv, id_act]

/-- A symmetry of an `n × n` grid of `w × w` squares moves the tiles by the same symmetry, and turns
every tile by it. -/
theorem act_tile (s : Sym) (n w : ℤ) (t p : ℤ × ℤ) :
    s.act (n * w) (t.1 * w + p.1, t.2 * w + p.2) =
      ((s.act n t).1 * w + (s.act w p).1, (s.act n t).2 * w + (s.act w p).2) := by
  cases h : s.swap <;> simp [act, h, mirror_tile]

end Sym

/-! ## Splitting an index -/

theorem mul_add_ediv {w x : ℤ} (X : ℤ) (h0 : 0 ≤ x) (hw : x < w) : (X * w + x) / w = X := by
  rw [add_comm, Int.add_mul_ediv_right _ _ (by omega), Int.ediv_eq_zero_of_lt h0 hw, zero_add]

theorem mul_add_emod {w x : ℤ} (X : ℤ) (h0 : 0 ≤ x) (hw : x < w) : (X * w + x) % w = x := by
  rw [add_comm, Int.add_mul_emod_self_right, Int.emod_eq_of_lt h0 hw]

/-- A digit `X < n` and a remainder `x < w` make a number below `n * w`. -/
theorem mul_add_range {n w X x : ℤ} (hX : 0 ≤ X ∧ X < n) (hx : 0 ≤ x ∧ x < w) :
    0 ≤ X * w + x ∧ X * w + x < n * w := by
  obtain ⟨h1, h2⟩ := hX
  obtain ⟨h3, h4⟩ := hx
  have hw : 0 ≤ w := by omega
  have hle : (X + 1) * w ≤ n * w := mul_le_mul_of_nonneg_right (by omega) hw
  have hmul : (X + 1) * w = X * w + w := by ring
  have hpos : 0 ≤ X * w := mul_nonneg h1 hw
  omega

/-- The numbers below `w` are those with digit `0`. -/
theorem mul_add_lt_iff {w X x : ℤ} (hX : 0 ≤ X) (hx : 0 ≤ x ∧ x < w) : X * w + x < w ↔ X = 0 := by
  constructor
  · intro h
    by_contra hne
    have h1 : 1 * w ≤ X * w := mul_le_mul_of_nonneg_right (by omega) (by omega)
    omega
  · rintro rfl
    omega

/-- The digit and the remainder of a number below `n * w`. -/
theorem ediv_emod_range {n w a : ℤ} (hw : 0 < w) (h0 : 0 ≤ a) (ha : a < n * w) :
    (0 ≤ a / w ∧ a / w < n) ∧ 0 ≤ a % w ∧ a % w < w :=
  ⟨⟨Int.ediv_nonneg h0 hw.le, Int.ediv_lt_of_lt_mul hw ha⟩, Int.emod_nonneg a hw.ne',
    Int.emod_lt_of_pos a hw⟩

/-! ## Mosaics -/

/-- A grid of `cols × rows` tiles, one chip on each, chip `c` turned by `sym c`. The two directions of
the numbering are inverse to each other. -/
structure Mosaic where
  chips : ℤ
  cols : ℤ
  rows : ℤ
  /-- The tile of a chip. -/
  tileOf : ℤ → ℤ × ℤ
  /-- The chip on a tile. -/
  chipAt : ℤ × ℤ → ℤ
  /-- How the pixels of a chip are turned into the pixels of its tile. -/
  sym : ℤ → Sym
  tileOf_mem : ∀ c, 0 ≤ c → c < chips → InRect cols rows (tileOf c)
  chipAt_mem : ∀ t, InRect cols rows t → 0 ≤ chipAt t ∧ chipAt t < chips
  chipAt_tileOf : ∀ c, 0 ≤ c → c < chips → chipAt (tileOf c) = c
  tileOf_chipAt : ∀ t, InRect cols rows t → tileOf (chipAt t) = t

/-- Row-major index of pixel `p` of chip `c` in the concatenation of all chips of `w × w` pixels. -/
def linear (w c : ℤ) (p : ℤ × ℤ) : ℤ := c * (w * w) + (p.2 * w + p.1)

/-- The pixel `p` of tile `t`, as a pixel of the image. -/
def place (w : ℤ) (t p : ℤ × ℤ) : ℤ × ℤ := (t.1 * w + p.1, t.2 * w + p.2)

theorem linear_range {w n c : ℤ} {p : ℤ × ℤ} (hc : 0 ≤ c ∧ c < n) (hp : InRect w w p) :
    0 ≤ linear w c p ∧ linear w c p < n * (w * w) :=
  mul_add_range hc (mul_add_range hp.2 hp.1)

theorem exists_linear {w n k : ℤ} (hw : 0 < w) (h0 : 0 ≤ k) (hk : k < n * (w * w)) :
    ∃ c p, (0 ≤ c ∧ c < n) ∧ InRect w w p ∧ k = linear w c p := by
  obtain ⟨hc, hl0, hl⟩ := ediv_emod_range (mul_pos hw hw) h0 hk
  obtain ⟨hy, hx⟩ := ediv_emod_range hw hl0 hl
  refine ⟨k / (w * w), (k % (w * w) % w, k % (w * w) / w), hc, ⟨hx, hy⟩, ?_⟩
  have h1 := Int.mul_ediv_add_emod k (w * w)
  have h2 := Int.mul_ediv_add_emod (k % (w * w)) w
  simp only [linear]
  linarith

theorem place_mem {w n m : ℤ} {t p : ℤ × ℤ} (ht : InRect n m t) (hp : InRect w w p) :
    InRect (n * w) (m * w) (place w t p) :=
  ⟨mul_add_range ht.1 hp.1, mul_add_range ht.2 hp.2⟩

theorem exists_place {w n m : ℤ} {q : ℤ × ℤ} (hw : 0 < w) (hq : InRect (n * w) (m * w) q) :
    ∃ t p, InRect n m t ∧ InRect w w p ∧ q = place w t p := by
  obtain ⟨⟨h1, h2⟩, h3, h4⟩ := hq
  obtain ⟨hX, hx⟩ := ediv_emod_range hw h1 h2
  obtain ⟨hY, hy⟩ := ediv_emod_range hw h3 h4
  refine ⟨(q.1 / w, q.2 / w), (q.1 % w, q.2 % w), ⟨hX, hY⟩, ⟨hx, hy⟩, ?_⟩
  exact Prod.ext (Int.ediv_mul_add_emod q.1 w).symm (Int.ediv_mul_add_emod q.2 w).symm

namespace Mosaic

variable (m : Mosaic)

def pixelOf (w k : ℤ) : ℤ × ℤ :=
  place w (m.tileOf (k / (w * w)))
    ((m.sym (k / (w * w))).act w (k % (w * w) % w, k % (w * w) / w))

def indexOf (w : ℤ) (q : ℤ × ℤ) : ℤ :=
  linear w (m.chipAt (q.1 / w, q.2 / w))
    ((m.sym (m.chipAt (q.1 / w, q.2 / w))).inv.act w (q.1 % w, q.2 % w))

theorem pixelOf_linear {w c : ℤ} {p : ℤ × ℤ} (hp : InRect w w p) :
    m.pixelOf w (linear w c p) = place w (m.tileOf c) ((m.sym c).act w p) := by
  obtain ⟨hx, hy⟩ := hp
  have hl := mul_add_range hy hx
  simp only [pixelOf, linear, mul_add_ediv _ hl.1 hl.2, mul_add_emod _ hl.1 hl.2,
    mul_add_ediv _ hx.1 hx.2, mul_add_emod _ hx.1 hx.2]

theorem indexOf_place {w : ℤ} {t p : ℤ × ℤ} (hp : InRect w w p) :
    m.indexOf w (place w t p) = linear w (m.chipAt t) ((m.sym (m.chipAt t)).inv.act w p) := by
  obtain ⟨hx, hy⟩ := hp
  simp only [indexOf, place, mul_add_ediv _ hx.1 hx.2, mul_add_emod _ hx.1 hx.2,
    mul_add_ediv _ hy.1 hy.2, mul_add_emod _ hy.1 hy.2]

theorem pixelOf_mem {w k : ℤ} (hw : 0 < w) (h0 : 0 ≤ k) (hk : k < m.chips * (w * w)) :
    InRect (m.cols * w) (m.rows * w) (m.pixelOf w k) := by
  obtain ⟨c, p, hc, hp, rfl⟩ := exists_linear hw h0 hk
  rw [m.pixelOf_linear hp]
  exact place_mem (m.tileOf_mem c hc.1 hc.2) (Sym.act_mem _ hp)

theorem indexOf_mem {w : ℤ} {q : ℤ × ℤ} (hw : 0 < w) (hq : InRect (m.cols * w) (m.rows * w) q) :
    0 ≤ m.indexOf w q ∧ m.indexOf w q < m.chips * (w * w) := by
  obtain ⟨t, p, ht, hp, rfl⟩ := exists_place hw hq
  rw [m.indexOf_place hp]
  exact linear_range (m.chipAt_mem t ht) (Sym.act_mem _ hp)

theorem indexOf_pixelOf {w k : ℤ} (hw : 0 < w) (h0 : 0 ≤ k) (hk : k < m.chips * (w * w)) :
    m.indexOf w (m.pixelOf w k) = k := by
  obtain ⟨c, p, hc, hp, rfl⟩ := exists_linear hw h0 hk
  rw [m.pixelOf_linear hp, m.indexOf_place (Sym.act_mem _ hp), m.chipAt_tileOf c hc.1 hc.2,
    Sym.inv_act_act]

theorem pixelOf_indexOf {w : ℤ} {q : ℤ × ℤ} (hw : 0 < w)
    (hq : InRect (m.cols * w) (m.rows * w) q) : m.pixelOf w (m.indexOf w q) = q := by
  obtain ⟨t, p, ht, hp, rfl⟩ := exists_place hw hq
  rw [m.indexOf_place hp, m.pixelOf_linear (Sym.act_mem _ hp), m.tileOf_chipAt t ht,
    Sym.act_inv_act]

/-- A mosaic numbers the pixels of the image without gaps or repetitions. -/
theorem indexOf_bijOn {w : ℤ} (hw : 0 < w) :
    Set.BijOn (m.indexOf w) {q | InRect (m.cols * w) (m.rows * w) q}
      {k | 0 ≤ k ∧ k < m.chips * (w * w)} := by
  have hinv : Set.InvOn (m.pixelOf w) (m.indexOf w) {q | InRect (m.cols * w) (m.rows * w) q}
      {k | 0 ≤ k ∧ k < m.chips * (w * w)} := by
    constructor
    · intro q hq
      exact m.pixelOf_indexOf hw hq
    · rintro k ⟨h0, hk⟩
      exact m.indexOf_pixelOf hw h0 hk
  apply hinv.bijOn
  · intro q hq
    exact m.indexOf_mem hw hq
  · rintro k ⟨h0, hk⟩
    exact m.pixelOf_mem hw h0 hk

/-- The mosaic turned by a symmetry `r`; its grid must be square. -/
def rotate (r : Sym) (hsq : m.cols = m.rows) : Mosaic where
  chips := m.chips
  cols := m.cols
  rows := m.rows
  tileOf c := r.act m.cols (m.tileOf c)
  chipAt t := m.chipAt (r.inv.act m.cols t)
  sym c := r.comp (m.sym c)
  tileOf_mem c h0 hc := by
    have h := m.tileOf_mem c h0 hc
    rw [← hsq] at h ⊢
    exact Sym.act_mem r h
  chipAt_mem t ht := by
    rw [← hsq] at ht
    exact m.chipAt_mem _ (hsq ▸ Sym.act_mem r.inv ht)
  chipAt_tileOf c h0 hc := by rw [Sym.inv_act_act, m.chipAt_tileOf c h0 hc]
  tileOf_chipAt t ht := by
    rw [← hsq] at ht
    rw [m.tileOf_chipAt _ (hsq ▸ Sym.act_mem r.inv ht), Sym.act_inv_act]

/-- Turning the mosaic and the pixel by the same symmetry does not change the index. -/
theorem indexOf_rotate {w : ℤ} {q : ℤ × ℤ} (r : Sym) (hsq : m.cols = m.rows) (hw : 0 < w)
    (hq : InRect (m.cols * w) (m.rows * w) q) :
    (m.rotate r hsq).indexOf w (r.act (m.cols * w) q) = m.indexOf w q := by
  obtain ⟨t, p, ht, hp, rfl⟩ := exists_place hw hq
  have hplace : r.act (m.cols * w) (place w t p) = place w (r.act m.cols t) (r.act w p) :=
    Sym.act_tile r m.cols w t p
  rw [hplace, indexOf_place _ (Sym.act_mem r hp), m.indexOf_place hp]
  have hchip : (m.rotate r hsq).chipAt (r.act m.cols t) = m.chipAt t := by
    simp only [rotate, Sym.inv_act_act]
  have hsym : ∀ c, (m.rotate r hsq).sym c = r.comp (m.sym c) := fun c => rfl
  rw [hchip, hsym, ← Sym.act_comp, Sym.inv_comp_comp]

end Mosaic

end Square
