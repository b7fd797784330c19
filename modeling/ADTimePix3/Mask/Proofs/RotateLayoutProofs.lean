import ADTimePix3.Mask.RotateLayout
import ADTimePix3.Mask.Proofs.LayoutProofs

/-!
# The requested turn and the index map agree

The layout of an orientation is the UP layout turned by `orientSym`, and that is the turn `rotateLayout`
requests. A pixel of the sensor therefore keeps its byte of the BPC file in every orientation.
-/

namespace ADTimePix3.Mask

open Square

/-- The turn requested from the server is the turn of the layout. -/
theorem servalRotation_eq_act {o : ℤ} (ho : 0 ≤ o) (ho' : o ≤ 7) (apiVer : String) (W : ℤ)
    (p : ℤ × ℤ) : servalRotation apiVer o W p = (orientSym o).act W p := by
  by_cases hv : apiVer.toList.head? = some '3' <;> interval_cases o <;>
    simp [servalRotation, rotateLayoutParams, hv, applyParam, orientSym, Sym.id, Sym.act, mirror]

theorem orientSym_zero : orientSym 0 = Sym.id := by simp [orientSym]

theorem indexOf_rotate_id (m : Mosaic) (hsq : m.cols = m.rows) (w : ℤ) (q : ℤ × ℤ) :
    (m.rotate Sym.id hsq).indexOf w q = m.indexOf w q := by
  have hc : ∀ t, (m.rotate Sym.id hsq).chipAt t = m.chipAt t := by
    intro t
    simp [Mosaic.rotate, Sym.id, Sym.inv, Sym.act, mirror]
  have hs : ∀ c, (m.rotate Sym.id hsq).sym c = m.sym c := by
    intro c
    simp [Mosaic.rotate, Sym.id, Sym.comp]
  simp only [Mosaic.indexOf, hc, hs]

/-- Coherence for a geometry whose layout is `m`, turned by the orientation. -/
theorem pelIndex_rotate {m : Mosaic} (hsq : m.cols = m.rows) {gUp gO : Geometry} {w o i j : ℤ}
    (hw : 0 < w) (hUp : Supported w gUp) (hO : Supported w gO)
    (hlUp : layout gUp = m.rotate Sym.id hsq) (hlO : layout gO = m.rotate (orientSym o) hsq)
    (hij : InImage gUp w i j) :
    pelIndex gO ((orientSym o).act (imageWidth gUp w) (i, j)).1
        ((orientSym o).act (imageWidth gUp w) (i, j)).2 = pelIndex gUp i j := by
  have hcols : imageWidth gUp w = m.cols * w := by
    rw [← (layout_size hUp).2.1, hlUp]
    rfl
  have hrect : InRect (m.cols * w) (m.rows * w) (i, j) := by
    have h := (inImage_iff hUp).mp hij
    rw [hlUp] at h
    exact h
  have hrot : InImage gO w ((orientSym o).act (imageWidth gUp w) (i, j)).1
      ((orientSym o).act (imageWidth gUp w) (i, j)).2 := by
    rw [inImage_iff hO, hlO, hcols, Prod.mk.eta]
    have h : InRect (m.cols * w) (m.cols * w) (i, j) := by
      rw [← hsq] at hrect
      exact hrect
    have hact := Sym.act_mem (orientSym o) h
    show InRect (m.cols * w) (m.rows * w) _
    rw [← hsq]
    exact hact
  rw [pelIndex_eq_indexOf hw hO hrot, pelIndex_eq_indexOf hw hUp hij, hlO, hlUp, hcols,
    Prod.mk.eta, m.indexOf_rotate (orientSym o) hsq hw hrect, indexOf_rotate_id]

/-- **Orientation coherence**: for one chip and for the quad, `pelIndex` in orientation `o`, at the place
where the turn requested for `o` moves a pixel of the UP image, is `pelIndex` in orientation UP at that
pixel. -/
theorem pelIndex_servalRotation (g : Geometry) (w : ℤ) (apiVer : String) (o i j : ℤ) (hw : 1 ≤ w)
    (hg : g = ⟨0, 1, 1, w⟩ ∨ g = ⟨0, 4, 2, 2 * w⟩) (ho : 0 ≤ o) (ho' : o ≤ 7)
    (hij : InImage g w i j) :
    pelIndex { g with detOrientation := o }
        (servalRotation apiVer o (imageWidth g w) (i, j)).1
        (servalRotation apiVer o (imageWidth g w) (i, j)).2 =
      pelIndex g i j := by
  rw [servalRotation_eq_act ho ho']
  rcases hg with rfl | rfl
  · refine pelIndex_rotate (m := singleUp) rfl hw (.single 0 (by decide) (by decide))
      (.single o ho ho') ?_ (layout_single o w) hij
    rw [layout_single, orientSym_zero]
  · refine pelIndex_rotate (m := quadUp) rfl hw (.quad 0 (by decide) (by decide))
      (.quad o ho ho') ?_ (layout_quad o w) hij
    rw [layout_quad, orientSym_zero]

theorem pelIndex_servalRotation_left :
    pelIndex ⟨3, 4, 2, 2 * 2⟩ (servalRotation "4.1.1" 3 (imageWidth ⟨0, 4, 2, 2 * 2⟩ 2) (3, 1)).1
        (servalRotation "4.1.1" 3 (imageWidth ⟨0, 4, 2, 2 * 2⟩ 2) (3, 1)).2 =
      pelIndex ⟨0, 4, 2, 2 * 2⟩ 3 1 :=
  pelIndex_servalRotation ⟨0, 4, 2, 2 * 2⟩ 2 "4.1.1" 3 3 1 (by decide) (.inr rfl) (by decide)
    (by decide) ⟨by decide, by decide, by decide, by decide⟩

end ADTimePix3.Mask
