import ADTimePix3.Stream.JsonImage

/-!
# Band-pass images

What `processPreviewJsonimageLine` does with an image that is on its address: it pairs images of threshold 1
and of threshold 0 by their order, and puts the difference of a pair on an address of its own
(`emitPreviewThresholdDiff`, `serval_stream.cpp`).

Left out: time stamps and attributes of the difference, and the log.
-/

namespace ADTimePix3.Stream

open Img (toInt32 PixelFormat)

/-- The pairing members of `PreviewJsonimageStream`. -/
structure PairMembers where
  t1ReadyForDiff : Bool
  t0OrphanForDiff : Bool
  lastSeenFrameForPair : ℤ
  lastDiffT0Frame : ℤ
deriving DecidableEq

/-- The members as a measurement starts with them. -/
def PairMembers.start : PairMembers := ⟨false, false, -1, -1⟩

/-- The members after an image, and whether it completes a pair. The pairing starts over when the frame numbers do.
(`frame_number + 10` is not taken to overflow.) -/
def PairMembers.see (m : PairMembers) (frame_number threshold_id : ℤ) : PairMembers × Bool :=
  let m :=
    if m.lastSeenFrameForPair ≥ 0 ∧ frame_number + 10 < m.lastSeenFrameForPair then
      { m with t1ReadyForDiff := false, t0OrphanForDiff := false, lastDiffT0Frame := -1 }
    else m
  let m := { m with lastSeenFrameForPair := frame_number }
  if threshold_id = 1 then
    if m.t0OrphanForDiff then ({ m with t0OrphanForDiff := false }, true)
    else ({ m with t1ReadyForDiff := true }, false)
  else if threshold_id = 0 then
    if m.t1ReadyForDiff then ({ m with t1ReadyForDiff := false }, true)
    else ({ m with t0OrphanForDiff := true }, false)
  else (m, false)

/-- The arrays on the two addresses of a channel, and its pairing members. -/
structure Pairing extends PairMembers where
  pT0 : Option Image
  pT1 : Option Image

/-- The arrays are still those of the measurement before. -/
def Pairing.start (pT0 pT1 : Option Image) : Pairing := { PairMembers.start with pT0 := pT0, pT1 := pT1 }

/-- The parameters that `emitPreviewThresholdDiff` reads, and whether its array can be allocated. -/
structure DiffSettings where
  bothCounters : Bool
  clipDiff : Bool
  alloc : Bool

/-- A difference: the two arrays it is computed from, its pixels, and what its attribute `ThresholdBandPass`
says (`max(0,T0-T1)` or `T0-T1`). -/
structure ThresholdDiff where
  t0 : Image
  t1 : Image
  data : List ℤ
  clipped : Bool

/-! ## `emitPreviewThresholdDiff` -/

/-- A pixel of the difference, in `int32_t` arithmetic (an overflow is taken to wrap). -/
def diffPixel (clipDiff : Bool) (t0 t1 : ℕ) : ℤ :=
  let d := toInt32 (toInt32 t0 - toInt32 t1)
  if clipDiff then (if d > 0 then d else 0) else d

def thresholdDiff (clipDiff : Bool) (t0 t1 : Image) : ThresholdDiff where
  t0 := t0
  t1 := t1
  data := List.zipWith (diffPixel clipDiff) t0.pixels t1.pixels
  clipped := clipDiff

def emitPreviewThresholdDiff (settings : DiffSettings) (s : Pairing) : Option ThresholdDiff :=
  match s.pT0, s.pT1 with
  | some t0, some t1 =>
    if settings.bothCounters && t0.uniqueId != s.lastDiffT0Frame && t0.width == t1.width &&
        t0.height == t1.height && settings.alloc && t0.dataType == t1.dataType then
      some (thresholdDiff settings.clipDiff t0 t1)
    else none
  | _, _ => none

/-- The state with the difference that has been emitted, if any. -/
def Pairing.emitted (s : Pairing) (diff : Option ThresholdDiff) : Pairing :=
  match diff with
  | some d => { s with lastDiffT0Frame := d.t0.uniqueId }
  | none => s

/-! ## `processPreviewJsonimageLine` -/

/-- The array takes its address. -/
def Pairing.put (s : Pairing) (image : Image) : Pairing :=
  if image.thresholdId = 1 then { s with pT1 := some image } else { s with pT0 := some image }

/-- What an image does: the state it leaves, and the difference it completes. -/
def pairImage (settings : DiffSettings) (s : Pairing) (image : Image) : Pairing × Option ThresholdDiff :=
  let s := s.put image
  let seen := s.see image.uniqueId image.thresholdId
  let s := { s with toPairMembers := seen.1 }
  if seen.2 then
    let diff := emitPreviewThresholdDiff settings s
    (s.emitted diff, diff)
  else (s, none)

/-- The differences that a sequence of images gives. -/
def pairImages (s : Pairing) : List (DiffSettings × Image) → List ThresholdDiff
  | [] => []
  | (settings, image) :: images =>
    (pairImage settings s image).2.toList ++ pairImages (pairImage settings s image).1 images

/-! ## Triggers -/

/-- Two images for each trigger, of threshold 1 and then of threshold 0, of one size and type. The frame
numbers increase from trigger to trigger; within a trigger they may be equal. -/
structure TriggerStream where
  t1 : ℕ → Image
  t0 : ℕ → Image
  id_t1 : ∀ f, (t1 f).thresholdId = 1
  id_t0 : ∀ f, (t0 f).thresholdId = 0
  width_eq : ∀ f g, (t0 f).width = (t1 g).width
  height_eq : ∀ f g, (t0 f).height = (t1 g).height
  dataType_eq : ∀ f g, (t0 f).dataType = (t1 g).dataType
  number_nonneg : 0 ≤ (t1 0).uniqueId
  number_le : ∀ f, (t1 f).uniqueId ≤ (t0 f).uniqueId
  number_lt : ∀ f, (t0 f).uniqueId < (t1 (f + 1)).uniqueId

namespace TriggerStream

/-- The `k`th message of the stream. -/
def message (stream : TriggerStream) (k : ℕ) : Image :=
  if k % 2 = 0 then stream.t1 (k / 2) else stream.t0 (k / 2)

/-- The messages that arrive, each with the settings at that time. -/
def arrivals (stream : TriggerStream) (events : List (DiffSettings × ℕ)) : List (DiffSettings × Image) :=
  events.map fun e => (e.1, stream.message e.2)

/-- A pixel of `T0 − T1` as an `int32_t`. -/
def difference (clipped : Bool) (t0 t1 : ℕ) : ℤ :=
  let d := toInt32 ((t0 : ℤ) - t1)
  if clipped then max 0 d else d

/-- The difference is that of trigger `f`. -/
def OfTrigger (stream : TriggerStream) (f : ℕ) (d : ThresholdDiff) : Prop :=
  d.t0 = stream.t0 f ∧ d.t1 = stream.t1 f ∧
    d.data = List.zipWith (difference d.clipped) (stream.t0 f).pixels (stream.t1 f).pixels

instance (stream : TriggerStream) (f : ℕ) (d : ThresholdDiff) : Decidable (stream.OfTrigger f d) :=
  inferInstanceAs (Decidable (_ ∧ _))

/-- Every difference is of one trigger, and every trigger both of whose messages arrive gives exactly one. -/
def PairedRight (stream : TriggerStream) (arrived : List ℕ) (diffs : List ThresholdDiff) : Prop :=
  (∀ d ∈ diffs, ∃ f, stream.OfTrigger f d) ∧
    ∀ f, 2 * f ∈ arrived → 2 * f + 1 ∈ arrived → diffs.countP (fun d => stream.OfTrigger f d) = 1

end TriggerStream

/-- An image of threshold 0 comes directly behind that of threshold 1 of its trigger. One that does not comes
neither directly behind an image of threshold 1 nor before one. -/
def Unorphaned (arrived : List ℕ) : Prop :=
  ∀ before k after, arrived = before ++ k :: after → k % 2 = 1 →
    before.getLast? = some (k - 1) ∨
      (∀ j ∈ before.getLast?, j % 2 = 1) ∧ ∀ m ∈ after, m % 2 = 1

end ADTimePix3.Stream
