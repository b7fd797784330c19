import ADTimePix3.Lib.Square
import ADTimePix3.Mask.Geometry
import Mathlib.Tactic.IntervalCases

/-!
# What the coordinate maps are for

A detector image is a mosaic of chips. Orientation UP fixes on which tile each chip sits and how it is
turned; every other orientation of one chip or of the quad is that mosaic, turned as a whole. The layouts
here are stated without reference to the tables of `mask_io.cpp`, which are compared with them in
`Mask.Proofs`.
-/

namespace ADTimePix3.Mask

open Square

/-- The turn of the whole image for each of the eight orientations. -/
def orientSym (o : ℤ) : Sym :=
  if o = 1 then ⟨true, true, false⟩
  else if o = 2 then ⟨false, true, true⟩
  else if o = 3 then ⟨true, false, true⟩
  else if o = 4 then ⟨false, true, false⟩
  else if o = 5 then ⟨true, false, false⟩
  else if o = 6 then ⟨false, false, true⟩
  else if o = 7 then ⟨true, true, true⟩
  else Sym.id

/-- One chip in orientation UP: the first file row is at the bottom of the image. -/
def singleUp : Mosaic where
  chips := 1
  cols := 1
  rows := 1
  tileOf _ := (0, 0)
  chipAt _ := 0
  sym _ := ⟨false, false, true⟩
  tileOf_mem _ _ _ := by decide
  chipAt_mem _ _ := by decide
  chipAt_tileOf c h0 hc := by omega
  tileOf_chipAt t ht := by
    obtain ⟨⟨h1, h2⟩, h3, h4⟩ := ht
    exact Prod.ext (by omega) (by omega)

/-- The tile of each chip of the 2x2 quad in orientation UP. -/
def quadTile (c : ℤ) : ℤ × ℤ :=
  if c = 0 then (1, 1) else if c = 1 then (1, 0) else if c = 2 then (0, 0) else (0, 1)

/-- The chip on each tile of the 2x2 quad in orientation UP. -/
def quadChip (t : ℤ × ℤ) : ℤ :=
  if t.1 = 1 then (if t.2 = 1 then 0 else 1) else (if t.2 = 1 then 3 else 2)

/-- The 2x2 quad in orientation UP: the chips of the upper row are turned by half. -/
def quadUp : Mosaic where
  chips := 4
  cols := 2
  rows := 2
  tileOf := quadTile
  chipAt := quadChip
  sym c := if c = 0 ∨ c = 3 then ⟨false, false, true⟩ else ⟨false, true, false⟩
  tileOf_mem c h0 hc := by
    interval_cases c <;> decide
  chipAt_mem t _ := by
    unfold quadChip
    split_ifs <;> omega
  chipAt_tileOf c h0 hc := by
    interval_cases c <;> rfl
  tileOf_chipAt t ht := by
    obtain ⟨x, y⟩ := t
    obtain ⟨⟨h1, h2⟩, h3, h4⟩ := ht
    simp only at h1 h2 h3 h4
    interval_cases x <;> interval_cases y <;> rfl

/-- A rectangular mosaic in orientation UP, its chips numbered row by row. -/
def gridUp (xChips yChips : ℤ) (hx : 0 < xChips) : Mosaic where
  chips := yChips * xChips
  cols := xChips
  rows := yChips
  tileOf c := (c % xChips, c / xChips)
  chipAt t := t.2 * xChips + t.1
  sym _ := ⟨false, false, true⟩
  tileOf_mem c h0 hc := by
    obtain ⟨hy, hx'⟩ := ediv_emod_range hx h0 hc
    exact ⟨hx', hy⟩
  chipAt_mem t ht := mul_add_range ht.2 ht.1
  chipAt_tileOf c _ _ := Int.ediv_mul_add_emod c xChips
  tileOf_chipAt t ht :=
    Prod.ext (mul_add_emod t.2 ht.1.1 ht.1.2) (mul_add_ediv t.2 ht.1.1 ht.1.2)

def layout (g : Geometry) : Mosaic :=
  if g.numChips = 4 then quadUp.rotate (orientSym g.detOrientation) rfl
  else if h : g.numChips = 8 ∧ 0 < g.rowLen then
    gridUp g.rowLen (g.numChips.tdiv g.rowLen) h.2
  else singleUp.rotate (orientSym g.detOrientation) rfl

/-- The bytes of chip 0 of the quad in orientation LEFT, for which `bpc2ImgIndex` has its own idea of the
layout. -/
def LeftChip0 (g : Geometry) (c : ℤ) : Prop := g.numChips = 4 ∧ g.detOrientation = 3 ∧ c = 0

instance (g : Geometry) (c : ℤ) : Decidable (LeftChip0 g c) :=
  inferInstanceAs (Decidable (_ ∧ _ ∧ _))

/-- The layout that `bpc2ImgIndex` follows: chip 0 of the LEFT quad is mirrored in it. -/
def bpcLayout (g : Geometry) : Mosaic :=
  { layout g with
    sym := fun c => if LeftChip0 g c then ⟨true, true, false⟩ else (layout g).sym c }

end ADTimePix3.Mask
