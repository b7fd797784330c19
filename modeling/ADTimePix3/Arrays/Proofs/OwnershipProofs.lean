import ADTimePix3.Arrays.Ownership
import Mathlib.Tactic.Common

/-!
# Proofs: who owns an array

Every function keeps the ledger balanced with nothing in hand, except `emitPreviewThresholdDiff`, which returns with
the new array in hand when that has no data.
-/

namespace ADTimePix3.Arrays

open Ledger
open ADTimePix3.Stream (ImageHeader PairMembers previewNdarrayAddressForThreshold)

variable {n addr : ℕ} {a : ArrayLedger} {hand : List ℕ} {p : Option ℕ}

/-! ## Allocation and release -/

theorem allocate_balanced (h : Balanced n a hand) (outcome : Alloc) (dims : List ℕ) (dataType : NDDataType) :
    Balanced n (allocate a outcome dims dataType).1 ((allocate a outcome dims dataType).2.toList ++ hand) := by
  cases outcome with
  | null => exact h
  | array pData uniqueId => exact h.alloc _

@[simp] theorem allocate_slot (outcome : Alloc) (dims : List ℕ) (dataType : NDDataType) :
    (allocate a outcome dims dataType).1.slot addr = a.slot addr := by
  cases outcome <;> rfl

theorem allocate_eq_some {outcome : Alloc} {dims : List ℕ} {dataType : NDDataType} {id : ℕ}
    (h : (allocate a outcome dims dataType).2 = some id) :
    ∃ pData uniqueId, outcome = .array pData uniqueId ∧
      hasData (allocate a outcome dims dataType).1 (some id) = pData := by
  cases outcome with
  | null => cases h
  | array pData uniqueId =>
    obtain rfl := Option.some.inj h
    exact ⟨pData, uniqueId, rfl, by simp [hasData, allocate, Ledger.alloc, Ledger.content]⟩

theorem releaseIf_balanced (h : Balanced n a (p.toList ++ hand)) : Balanced n (releaseIf a p) hand := by
  cases p with
  | none => exact h
  | some id => exact h.release

theorem setSlot_none_of_slot (haddr : addr < a.slots.length) (hslot : a.slot addr = none) :
    a.setSlot addr none = a := by
  unfold Ledger.slot at hslot
  rw [List.getElem?_eq_getElem haddr] at hslot
  have hcell : a.slots[addr] = none := hslot
  have hset : a.slots.set addr none = a.slots := hcell ▸ List.set_getElem_self haddr
  rw [Ledger.setSlot, hset]

/-- What is in hand goes into an empty slot. -/
theorem setSlot_balanced (h : Balanced n a (p.toList ++ hand)) (haddr : addr < n) (hslot : a.slot addr = none) :
    Balanced n (a.setSlot addr p) hand := by
  cases p with
  | none =>
    rw [setSlot_none_of_slot (h.length_slots ▸ haddr) hslot]
    exact h
  | some id => exact h.put haddr hslot

theorem clearSlot_balanced (h : Balanced n a hand) (addr : ℕ) : Balanced n (clearSlot a addr) hand := by
  unfold clearSlot
  cases hslot : a.slot addr with
  | none => exact h
  | some id =>
    -- the release and the write of the slot commute
    change Balanced n ((a.setSlot addr none).release id) hand
    exact (h.take hslot).release

theorem clearSlot_slot (haddr : addr < a.slots.length) : (clearSlot a addr).slot addr = none := by
  unfold clearSlot
  cases hslot : a.slot addr with
  | none => exact hslot
  | some id => exact slot_setSlot_self (l := a.release id) haddr none

/-- The slot may as well be emptied before the allocation. -/
theorem replaceSlot_eq (outcome : Alloc) (dims : List ℕ) (dataType : NDDataType) :
    replaceSlot a addr outcome dims dataType =
      ((allocate (clearSlot a addr) outcome dims dataType).1.setSlot addr
        (allocate (clearSlot a addr) outcome dims dataType).2,
        (allocate (clearSlot a addr) outcome dims dataType).2) := by
  unfold replaceSlot clearSlot
  cases hslot : a.slot addr with
  | none => rfl
  | some id => cases outcome <;> simp [allocate, releaseIf, Ledger.setSlot, Ledger.alloc, Ledger.release]

theorem replaceSlot_balanced (h : Balanced n a []) (haddr : addr < n) (outcome : Alloc) (dims : List ℕ)
    (dataType : NDDataType) : Balanced n (replaceSlot a addr outcome dims dataType).1 [] := by
  rw [replaceSlot_eq]
  have hclear := clearSlot_balanced h addr
  have hslot : (clearSlot a addr).slot addr = none := clearSlot_slot (h.length_slots ▸ haddr)
  exact setSlot_balanced (allocate_balanced hclear outcome dims dataType) haddr (by rw [allocate_slot, hslot])

theorem publishArray_balanced (h : Balanced n a []) (outcome : Option Alloc) (dims : List ℕ)
    (dataType : NDDataType) : Balanced n (publishArray a outcome dims dataType) [] := by
  cases outcome with
  | none => exact h
  | some outcome => exact releaseIf_balanced (allocate_balanced h outcome dims dataType)

/-! ## The preview channels -/

theorem putImage_balanced (h : Balanced n a []) (haddr : addr < n) (header : Option ImageHeader) (payload : Bool)
    (outcome : Alloc) : Balanced n (putImage a addr header payload outcome).1 [] := by
  cases header with
  | none => exact h
  | some header =>
    have hreplace := replaceSlot_balanced h haddr outcome (imageDims header) (imageType header.format)
    simp only [putImage]
    by_cases hrange : outOfRange header = true
    · rw [if_pos hrange]
      exact h
    · rw [if_neg hrange]
      split
      · exact hreplace
      · split
        · exact hreplace
        · exact hreplace.setContent _ fun p => { p with uniqueId := header.frame_number }

theorem imageAddr_lt {addrTh0 addrTh1 : ℕ} (h0 : addrTh0 < n) (h1 : addrTh1 < n) (header : Option ImageHeader) :
    imageAddr addrTh0 addrTh1 header < n := by
  cases header with
  | none => exact h0
  | some header =>
    simp only [imageAddr, previewNdarrayAddressForThreshold, Option.map_some, Option.getD_some]
    split
    · exact h1
    · exact h0

theorem putPreviewImage_balanced (h : Balanced NDARRAY_MAX_ADDR a []) (ch : PreviewChannel) (line : PreviewLine) :
    Balanced NDARRAY_MAX_ADDR (putPreviewImage a ch line).1 [] := by
  refine putImage_balanced h (imageAddr_lt ?_ ?_ line.header) line.header line.payload line.image
  · cases ch <;> decide
  · cases ch <;> decide

theorem ndAddrThreshDiff_lt (ch : PreviewChannel) : ch.ndAddrThreshDiff < NDARRAY_MAX_ADDR := by
  cases ch <;> decide

/-- A difference whose array has data, or is null, leaves nothing in hand. -/
theorem emitPreviewThresholdDiff_balanced {ch : PreviewChannel} {bothCounters : Bool} {outcome : Alloc}
    {lastDiffT0Frame : ℤ} (h : Balanced NDARRAY_MAX_ADDR a [])
    (hdata : (diffSources a ch bothCounters lastDiffT0Frame).isSome →
      ∀ uniqueId, outcome ≠ .array false uniqueId) :
    Balanced NDARRAY_MAX_ADDR (emitPreviewThresholdDiff a ch bothCounters outcome lastDiffT0Frame).1 [] := by
  unfold emitPreviewThresholdDiff
  cases hsources : diffSources a ch bothCounters lastDiffT0Frame with
  | none => exact h
  | some sources =>
    obtain ⟨pT0, pT1⟩ := sources
    rw [hsources] at hdata
    have hclear := clearSlot_balanced h ch.ndAddrThreshDiff
    have haddr := ndAddrThreshDiff_lt ch
    have hslot : (clearSlot a ch.ndAddrThreshDiff).slot ch.ndAddrThreshDiff = none :=
      clearSlot_slot (h.length_slots ▸ haddr)
    have halloc := allocate_balanced hclear outcome pT0.dims .NDInt32
    simp only
    cases hp : (allocate (clearSlot a ch.ndAddrThreshDiff) outcome pT0.dims .NDInt32).2 with
    | none =>
      rw [hp] at halloc
      exact halloc
    | some id =>
      obtain ⟨pData, uniqueId, rfl, hhas⟩ := allocate_eq_some hp
      obtain rfl : pData = true := by
        cases pData with
        | true => rfl
        | false => exact absurd rfl (hdata rfl uniqueId)
      rw [hp] at halloc
      have hput := setSlot_balanced halloc haddr (by rw [allocate_slot, hslot])
      simp only [hhas, Bool.not_true, Bool.false_eq_true, if_false]
      split
      · exact hput.setContent id fun p => { p with uniqueId := pT0.uniqueId }
      · -- what the release of another type does is to clear the slot
        have hcleared := clearSlot_balanced hput ch.ndAddrThreshDiff
        rw [clearSlot, slot_setSlot_self (halloc.length_slots ▸ haddr)] at hcleared
        exact hcleared

/-- One without data is left in hand. -/
theorem emitPreviewThresholdDiff_leaks {ch : PreviewChannel} {bothCounters : Bool} {lastDiffT0Frame : ℤ}
    (h : Balanced NDARRAY_MAX_ADDR a []) (uniqueId : ℤ)
    (hdue : (diffSources a ch bothCounters lastDiffT0Frame).isSome) :
    ∃ id, Balanced NDARRAY_MAX_ADDR
      (emitPreviewThresholdDiff a ch bothCounters (.array false uniqueId) lastDiffT0Frame).1 [id] := by
  unfold emitPreviewThresholdDiff
  obtain ⟨⟨pT0, pT1⟩, hsources⟩ := Option.isSome_iff_exists.mp hdue
  have hclear := clearSlot_balanced h ch.ndAddrThreshDiff
  have halloc := allocate_balanced hclear (.array false uniqueId) pT0.dims .NDInt32
  refine ⟨(clearSlot a ch.ndAddrThreshDiff).items.length, ?_⟩
  have hp : (allocate (clearSlot a ch.ndAddrThreshDiff) (.array false uniqueId) pT0.dims .NDInt32).2 =
      some (clearSlot a ch.ndAddrThreshDiff).items.length := rfl
  obtain ⟨pData, _, houtcome, hhas⟩ := allocate_eq_some hp
  obtain ⟨rfl, -⟩ := Alloc.array.inj houtcome
  simp only [hsources, hp, hhas, Bool.not_false, if_true]
  exact halloc

@[simp] theorem setMembers_arrays (d : Driver) (m : PairMembers) (ch : PreviewChannel) :
    (d.setMembers m ch).arrays = d.arrays := by
  cases ch <;> rfl

theorem processPreviewJsonimageLine_balanced {d : Driver} {ch : PreviewChannel} {line : PreviewLine}
    (h : Balanced NDARRAY_MAX_ADDR d.arrays []) (hleaks : ¬Leaks d (.previewLine ch line)) :
    Balanced NDARRAY_MAX_ADDR (processPreviewJsonimageLine d ch line).arrays [] := by
  have hput := putPreviewImage_balanced h ch line
  unfold processPreviewJsonimageLine
  cases hheader : (putPreviewImage d.arrays ch line).2 with
  | none => simpa only [hheader] using hput
  | some header =>
    simp only [hheader]
    by_cases hpair : ((d.members ch).see header.frame_number header.threshold_id).2 = true
    · rw [if_pos hpair, setMembers_arrays]
      refine emitPreviewThresholdDiff_balanced hput fun hdue uniqueId houtcome => ?_
      exact hleaks ⟨header, hheader, hpair, hdue, uniqueId, houtcome⟩
    · rw [if_neg hpair, setMembers_arrays]
      exact hput

theorem processPreviewJsonimageLine_leaks {d : Driver} {ch : PreviewChannel} {line : PreviewLine}
    (h : Balanced NDARRAY_MAX_ADDR d.arrays []) (hleaks : Leaks d (.previewLine ch line)) :
    ¬(processPreviewJsonimageLine d ch line).arrays.Owned := by
  have hput := putPreviewImage_balanced h ch line
  obtain ⟨header, hheader, hpair, hdue, uniqueId, houtcome⟩ := hleaks
  have hheader : (putPreviewImage d.arrays ch line).2 = some header := hheader
  obtain ⟨id, hid⟩ := emitPreviewThresholdDiff_leaks hput uniqueId hdue
  unfold processPreviewJsonimageLine
  simp only [hheader, houtcome]
  rw [if_pos hpair, setMembers_arrays]
  exact hid.not_owned

theorem releasePreviewBandArrays_balanced (h : Balanced n a []) : Balanced n (releasePreviewBandArrays a) [] :=
  clearSlot_balanced (clearSlot_balanced h 9) 12

/-! ## The accumulating channels -/

theorem prepareArray_balanced (h : Balanced n a hand) (outcome : Option Alloc) (dims : List ℕ) :
    Balanced n (prepareArray a outcome dims).1 ((prepareArray a outcome dims).2.toList ++ hand) := by
  cases outcome with
  | none => exact h
  | some outcome =>
    have halloc := allocate_balanced h outcome dims .NDUInt64
    simp only [prepareArray]
    split
    · exact halloc
    · exact releaseIf_balanced halloc

theorem processImgFrame_balanced (h : Balanced n a []) (dims : List ℕ) (allocs : ImgAllocs) :
    Balanced n (processImgFrame a dims allocs) [] := by
  have hsum := prepareArray_balanced h allocs.sum dims
  have hsumN := prepareArray_balanced hsum allocs.sumN dims
  -- the two arrays in hand are released in the order of their allocation
  exact releaseIf_balanced (releaseIf_balanced (hsumN.perm (List.perm_append_comm_assoc ..)))

theorem processImgDataLine_balanced (h : Balanced NDARRAY_MAX_ADDR a []) (line : ImgLine) :
    Balanced NDARRAY_MAX_ADDR (processImgDataLine a line) [] := by
  have haddr : imageAddr 1 13 line.header < NDARRAY_MAX_ADDR := imageAddr_lt (by decide) (by decide) line.header
  have hput := putImage_balanced h haddr line.header line.payload line.image
  unfold processImgDataLine
  cases hheader : (putImage a (imageAddr 1 13 line.header) line.header line.payload line.image).2 with
  | none => simpa only [hheader] using hput
  | some header =>
    simp only [hheader]
    split
    · exact processImgFrame_balanced hput ..
    · exact hput

theorem processPrvHstFrame_balanced (h : Balanced n a []) (bin_size : ℕ) (allocs : HstAllocs) :
    Balanced n (processPrvHstFrame a bin_size allocs) [] := by
  have hsum := publishArray_balanced h allocs.sum [bin_size] .NDInt64
  have htime := publishArray_balanced hsum allocs.time [bin_size] .NDFloat64
  have hframe := publishArray_balanced htime allocs.frame [bin_size] .NDInt32
  exact publishArray_balanced hframe ..

theorem pushProcessedHstToPlugins_balanced (h : Balanced n a []) (bin_size : ℕ) (outputType : ℤ)
    (allocs : HstAllocs) : Balanced n (pushProcessedHstToPlugins a bin_size outputType allocs) [] := by
  have hsum := publishArray_balanced h allocs.sum [bin_size] (outputDataType outputType)
  have htime := publishArray_balanced hsum allocs.time [bin_size] .NDFloat64
  have hframe := publishArray_balanced htime allocs.frame [bin_size] .NDInt32
  exact publishArray_balanced hframe ..

theorem pushProcessedImgToPlugins_balanced (h : Balanced n a []) (dims : List ℕ) (outputType : ℤ)
    (allocs : ImgAllocs) : Balanced n (pushProcessedImgToPlugins a dims outputType allocs) [] := by
  have hsum := publishArray_balanced h allocs.sum dims (outputDataType outputType)
  exact publishArray_balanced hsum ..

/-! ## Runs -/

theorem step_balanced {d : Driver} {op : ArrayOp} (h : Balanced NDARRAY_MAX_ADDR d.arrays [])
    (hleaks : ¬Leaks d op) : Balanced NDARRAY_MAX_ADDR (step d op).arrays [] := by
  cases op with
  | previewLine ch line => exact processPreviewJsonimageLine_balanced h hleaks
  | imgLine line => exact processImgDataLine_balanced h line
  | prvHstFrame bin_size allocs => exact processPrvHstFrame_balanced h bin_size allocs
  | pushProcessedImg dims outputType allocs => exact pushProcessedImgToPlugins_balanced h dims outputType allocs
  | pushProcessedHst bin_size outputType allocs =>
    exact pushProcessedHstToPlugins_balanced h bin_size outputType allocs
  | releasePreviewBandArrays => exact releasePreviewBandArrays_balanced h
  | resetPairing => exact h

theorem step_leaks {d : Driver} {op : ArrayOp} (h : Balanced NDARRAY_MAX_ADDR d.arrays []) (hleaks : Leaks d op) :
    ¬(step d op).arrays.Owned := by
  cases op with
  | previewLine ch line => exact processPreviewJsonimageLine_leaks h hleaks
  | imgLine line => exact hleaks.elim
  | prvHstFrame bin_size allocs => exact hleaks.elim
  | pushProcessedImg dims outputType allocs => exact hleaks.elim
  | pushProcessedHst bin_size outputType allocs => exact hleaks.elim
  | releasePreviewBandArrays => exact hleaks.elim
  | resetPairing => exact hleaks.elim

theorem after_take_succ {ops : List ArrayOp} {k : ℕ} {op : ArrayOp} (hop : ops[k]? = some op) :
    after (ops.take (k + 1)) = step (after (ops.take k)) op := by
  rw [after, List.take_add_one, hop, Option.toList_some, List.foldl_append]
  rfl

/-- Up to the first leak everything is accounted for. -/
theorem after_balanced {ops : List ArrayOp} {k : ℕ}
    (hleaks : ∀ j < k, ∀ op, ops[j]? = some op → ¬Leaks (after (ops.take j)) op) :
    Balanced NDARRAY_MAX_ADDR (after (ops.take k)).arrays [] := by
  induction k with
  | zero => exact balanced_empty _
  | succ k ih =>
    have hk := ih fun j hj => hleaks j (Nat.lt_succ_of_lt hj)
    cases hop : ops[k]? with
    | none =>
      rwa [List.take_add_one, hop, Option.toList_none, List.append_nil]
    | some op =>
      rw [after_take_succ hop]
      exact step_balanced hk (hleaks k (Nat.lt_succ_self k) op hop)

/-! ## Main result -/

/-- At every state of a run, every array is released once and in no slot, or not released and in one, exactly when
no array of a difference comes without data. -/
theorem owned_iff (ops : List ArrayOp) :
    (∀ k, (after (ops.take k)).arrays.Owned) ↔
      ∀ k op, ops[k]? = some op → ¬Leaks (after (ops.take k)) op := by
  constructor
  · intro howned k
    induction k using Nat.strong_induction_on with
    | _ k ih =>
      intro op hop hleak
      have hnext := howned (k + 1)
      rw [after_take_succ hop] at hnext
      exact step_leaks (after_balanced ih) hleak hnext
  · intro hleaks k
    exact (after_balanced fun j _ => hleaks j).owned

/-- A header of two by two pixels, and lines of both thresholds; the last allocation is the difference's. -/
def smallHeader (threshold_id : ℤ) : ImageHeader := ⟨2, 2, .uint16, 1, 0, threshold_id, 0⟩

def pairedLines (diff : Alloc) : List ArrayOp :=
  [.previewLine .prvImg ⟨some (smallHeader 1), true, true, .array true 0, .null⟩,
    .previewLine .prvImg ⟨some (smallHeader 0), true, true, .array true 0, diff⟩]

/-- The array of a difference has no data: it is lost. -/
theorem not_owned_paired : ¬ ∀ (ops : List ArrayOp) (k : ℕ), (after (ops.take k)).arrays.Owned := by
  intro h
  exact absurd (h (pairedLines (.array false 0)) 2) (by decide)

end ADTimePix3.Arrays
