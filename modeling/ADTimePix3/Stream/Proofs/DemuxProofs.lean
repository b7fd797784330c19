import ADTimePix3.Img.Proofs.PushProofs
import ADTimePix3.Stream.Demux
import ADTimePix3.Stream.Proofs.JsonImageProofs

/-!
# Proofs: demultiplexing by threshold

The address of an image is chosen by a test for threshold 1, and so are the images that are accumulated. An
image of any other threshold therefore counts as one of threshold 0, and the thresholds are separated exactly
when there are no others.

Main result: `separated_iff_inRange`.
-/

namespace ADTimePix3.Stream

open Img (ImgState Op Pool Frame clampTo stepState sinceRestart RunningSumOf toInt32 opFits_of_step
  processImgFrame_stored writeFramesToSum_stored readImageSumNFrames_spec)
open Buffers Memory Traced Runs

/-! ## Lines -/

/-- The driver reads the id as an `int`. -/
theorem jsonImageThresholdId_eq (j : Json) : jsonImageThresholdId j = toInt32 (headerThresholdId j) := by
  have hzero : toInt32 0 = 0 := rfl
  unfold jsonImageThresholdId headerThresholdId
  rw [← Option.getD_map toInt32, List.map_findSome?, hzero]
  congr 2
  funext key
  rw [Function.comp_apply]
  rcases j.member key with _ | _ | _ | z | _ | _ | _ | _ <;> rfl

theorem threshold_id_eq {integrates : Bool} {j : Json} {header : ImageHeader}
    (h : readImageHeader integrates j = some header) : header.threshold_id = toInt32 (headerThresholdId j) := by
  rw [← jsonImageThresholdId_eq]
  simp only [readImageHeader, Option.bind_eq_bind, Option.bind_eq_some_iff] at h
  obtain ⟨_, -, _, -, _, -, _, -, _, -, _, -, h⟩ := h
  obtain rfl := Option.some.inj h
  rfl

/-- What is put for a line is what its header and the bytes of its payload give. -/
theorem putImage_channel (worker : ImageWorker) (header : ImageHeader) (line : Line) (client : NetworkClient)
    (images : List Image) :
    ∃ payload : Option (List UInt8),
      (putImage worker.addrs.1 worker.addrs.2 header line client images).val.channel =
        images ++ (payload.map (imageOf worker header)).toList := by
  unfold putImage
  rw [val_bind]
  rcases receivePayload client (header.binaryNeeded - (copyBuffered line header.binaryNeeded).val.length)
    with ⟨_ | rest, client'⟩
  · exact ⟨none, (List.append_nil images).symm⟩
  · exact ⟨some ((copyBuffered line header.binaryNeeded).val ++ rest), rfl⟩

/-- The line function puts the image of its line, if there is one. -/
theorem processJsonimageLine_lineImage (env : Env) (worker : ImageWorker) (line : Line)
    (client : NetworkClient) (images : List Image) (hstart : line.line_buffer < MAX_BUFFER_SIZE)
    (hbrace : line.buffer line.line_buffer = '{'.toUInt8) {j : Json}
    (hparse : env.parse (readCString line.buffer line.line_buffer).val = some j) :
    ∃ payload, (processJsonimageLine env worker.integrates worker.addrs.1 worker.addrs.2 line client
        images).val.channel =
      images ++ (lineImage worker j (env.alloc images.length) payload).toList := by
  rw [val_processJsonimageLine hstart hbrace]
  unfold acceptHeader lineImage
  simp only [hparse]
  cases readImageHeader worker.integrates j with
  | none => exact ⟨none, (List.append_nil images).symm⟩
  | some header =>
    by_cases haccept : header.accepted (env.alloc images.length) = true
    · obtain ⟨payload, hput⟩ := putImage_channel worker header line client images
      refine ⟨payload, ?_⟩
      simpa [haccept] using hput
    · refine ⟨none, ?_⟩
      simp [haccept]

/-! ## The sums and their ids -/

theorem summedAfter_value (frames : List (Labelled Frame)) (id : ℤ) (op : Op) :
    (summedAfter frames id op).map Labelled.value = sinceRestart (frames.map Labelled.value) op := by
  cases op with
  | frame frame pool =>
    simp only [summedAfter, sinceRestart, List.map_append, List.forall_mem_map]
    split <;> rfl
  | imageDataReset value =>
    simp only [summedAfter, sinceRestart]
    split <;> rfl
  | _ => rfl

/-- The frame buffer changes as the labelled one does. -/
theorem bufferedAfter_value {s s' : ImgState} {frames : List (Labelled Frame)} {op : Op} {out : List Img.Output}
    (h : frames.map Labelled.value = s.imgFrameBuffer) (hstep : Img.step s op = some (s', out)) (id : ℤ) :
    (bufferedAfter s frames id op).map Labelled.value = s'.imgFrameBuffer := by
  have hfits := opFits_of_step hstep
  cases op with
  | frame f pool =>
    obtain ⟨t, since, buf, work, out', hacc, hframe, -, -⟩ := processImgFrame_stored hfits
    obtain ⟨rfl, -⟩ := Prod.mk.inj (Option.some.inj (hframe.symm.trans hstep))
    show (trim _ (frames ++ [⟨f, id⟩])).map Labelled.value = t.imgFrameBuffer
    rw [map_trim, List.map_append, h, hacc.frameBuffer]
    rfl
  | imageDataReset value =>
    obtain ⟨rfl, -⟩ := Prod.mk.inj (Option.some.inj hstep)
    simp only [bufferedAfter, Img.writeImageDataReset]
    by_cases hv : value = 1
    · rw [if_pos hv, if_pos hv]
      rfl
    · rw [if_neg hv, if_neg hv]
      exact h
  | acquireStop =>
    obtain ⟨rfl, -⟩ := Prod.mk.inj (Option.some.inj hstep)
    rfl
  | framesToSum value =>
    obtain ⟨since, buf, work, out', hwrite, -, -⟩ := writeFramesToSum_stored hfits
    obtain ⟨rfl, -⟩ := Prod.mk.inj (Option.some.inj (hwrite.symm.trans hstep))
    show (trim _ frames).map Labelled.value = trim _ s.imgFrameBuffer
    rw [map_trim, h]
  | sumUpdateInterval value =>
    obtain ⟨rfl, -⟩ := Prod.mk.inj (Option.some.inj hstep)
    exact h
  | readSumN n =>
    obtain ⟨work, value, hread, -, -, -⟩ := readImageSumNFrames_spec s n
    rw [Img.step, hread] at hstep
    obtain ⟨rfl, -⟩ := Prod.mk.inj (Option.some.inj hstep)
    exact h
  | push outputType arrayCallbacks pool =>
    obtain ⟨out', -, hpush⟩ := Option.map_eq_some_iff.mp hstep
    obtain ⟨rfl, -⟩ := Prod.mk.inj hpush
    exact h

/-- The labelled frames are those of the running sum and of the frame buffer. -/
structure Demux.Tracks (s : Demux) : Prop where
  sum : RunningSumOf s.img (s.summed.map Labelled.value)
  buffer : s.buffered.map Labelled.value = s.img.imgFrameBuffer

theorem Demux.Tracks.onImg {s s' : Demux} (h : s.Tracks) {op : Op} {id : ℤ} (hstep : s.onImg op id = some s') :
    s'.Tracks := by
  obtain ⟨img, himg, rfl⟩ := Option.map_eq_some_iff.mp hstep
  obtain ⟨⟨img', out⟩, hop, rfl⟩ := Option.map_eq_some_iff.mp himg
  constructor
  · show RunningSumOf img' _
    rw [summedAfter_value]
    exact h.sum.step hop
  · exact bufferedAfter_value h.buffer hop id

/-! ## Addresses -/

theorem addrs_ne (worker worker' : ImageWorker) : worker.addrs.1 ≠ worker'.addrs.2 := by
  cases worker <;> cases worker' <;> decide

/-- The image of a line is on the address for its id, and the id it carries is that of the header. -/
theorem lineImage_routed {worker : ImageWorker} {j : Json} {allocated : Bool} {payload : Option (List UInt8)}
    {image : Image} (h : lineImage worker j allocated payload = some image) :
    image.addr = previewNdarrayAddressForThreshold (toInt32 (headerThresholdId j)) worker.addrs.1
        worker.addrs.2 ∧
      image.thresholdId = toInt32 (headerThresholdId j) := by
  obtain ⟨header, hheader, himage⟩ := Option.bind_eq_some_iff.mp h
  rw [← threshold_id_eq hheader]
  by_cases haccept : header.accepted allocated = true
  · rw [if_pos haccept] at himage
    obtain ⟨pixel_buffer, -, rfl⟩ := Option.map_eq_some_iff.mp himage
    exact ⟨rfl, rfl⟩
  · rw [if_neg haccept] at himage
    exact absurd himage (by simp)

/-- The frame comes with an image that has been put and is not taken for one of threshold 1. -/
def Demux.Summable (s : Demux) (f : Labelled Frame) : Prop := ∃ r ∈ s.images, r.id = f.id ∧ toInt32 f.id ≠ 1

/-- Images are on the address for their id, and the frames that are kept come from them. -/
structure Demux.Routed (s : Demux) : Prop where
  addr : ∀ r ∈ s.images, ∃ worker : ImageWorker, r.value.addr =
    previewNdarrayAddressForThreshold (toInt32 r.id) worker.addrs.1 worker.addrs.2
  summed : ∀ f ∈ s.summed, s.Summable f
  buffered : ∀ f ∈ s.buffered, s.Summable f

theorem mem_summedAfter {frames : List (Labelled Frame)} {id : ℤ} {op : Op} {f : Labelled Frame}
    (h : f ∈ summedAfter frames id op) : f ∈ frames ∨ ∃ frame pool, op = .frame frame pool ∧ f.id = id := by
  cases op with
  | frame frame pool =>
    rcases List.mem_append.mp h with hf | hf
    · split at hf
      · exact Or.inl hf
      · cases hf
    · rw [List.mem_singleton.mp hf]
      exact Or.inr ⟨frame, pool, rfl, rfl⟩
  | imageDataReset value =>
    simp only [summedAfter] at h
    split at h
    · cases h
    · exact Or.inl h
  | acquireStop => cases h
  | _ => exact Or.inl h

theorem mem_bufferedAfter {s : ImgState} {frames : List (Labelled Frame)} {id : ℤ} {op : Op}
    {f : Labelled Frame} (h : f ∈ bufferedAfter s frames id op) :
    f ∈ frames ∨ ∃ frame pool, op = .frame frame pool ∧ f.id = id := by
  cases op with
  | frame frame pool =>
    rcases List.mem_append.mp (mem_of_mem_trim h) with hf | hf
    · exact Or.inl hf
    · rw [List.mem_singleton.mp hf]
      exact Or.inr ⟨frame, pool, rfl, rfl⟩
  | imageDataReset value =>
    simp only [bufferedAfter] at h
    split at h
    · cases h
    · exact Or.inl h
  | acquireStop => cases h
  | framesToSum value => exact Or.inl (mem_of_mem_trim h)
  | _ => exact Or.inl h

theorem Demux.Routed.put {s : Demux} (h : s.Routed) {worker : ImageWorker} {image : Image} {id : ℤ}
    (haddr : image.addr = previewNdarrayAddressForThreshold (toInt32 id) worker.addrs.1 worker.addrs.2) :
    (s.put image id).Routed := by
  have hkeep : ∀ f, s.Summable f → (s.put image id).Summable f := by
    rintro f ⟨r, hr, hid⟩
    exact ⟨r, List.mem_append_left _ hr, hid⟩
  constructor
  · intro r hr
    rcases List.mem_append.mp hr with hr | hr
    · exact h.addr r hr
    · rw [List.mem_singleton.mp hr]
      exact ⟨worker, haddr⟩
  · exact fun f hf => hkeep f (h.summed f hf)
  · exact fun f hf => hkeep f (h.buffered f hf)

/-- A frame that is accumulated has to come with an image. -/
theorem Demux.Routed.onImg {s s' : Demux} (h : s.Routed) {op : Op} {id : ℤ}
    (hframe : ∀ frame pool, op = .frame frame pool → ∃ r ∈ s.images, r.id = id ∧ toInt32 id ≠ 1)
    (hstep : s.onImg op id = some s') : s'.Routed := by
  obtain ⟨img, -, rfl⟩ := Option.map_eq_some_iff.mp hstep
  have hnew : ∀ f : Labelled Frame, (∃ frame pool, op = .frame frame pool ∧ f.id = id) → s.Summable f := by
    rintro f ⟨frame, pool, hop, hid⟩
    obtain ⟨r, hr, hrid, hne⟩ := hframe frame pool hop
    exact ⟨r, hr, hrid.trans hid.symm, hid ▸ hne⟩
  constructor
  · exact h.addr
  · intro f hf
    rcases mem_summedAfter hf with hf | hf
    · exact h.summed f hf
    · exact hnew f hf
  · intro f hf
    rcases mem_bufferedAfter hf with hf | hf
    · exact h.buffered f hf
    · exact hnew f hf

/-! ## Runs -/

/-- What is known of a state that a run reaches. -/
structure Demux.Reached (s : Demux) : Prop where
  tracks : s.Tracks
  routed : s.Routed

theorem Demux.reached_init : Demux.init.Reached where
  tracks := ⟨Img.runningSumOf_init, rfl⟩
  routed := ⟨by simp [Demux.init], by simp [Demux.init], by simp [Demux.init]⟩

/-- Step lemma. -/
theorem Demux.Reached.step {s s' : Demux} (h : s.Reached) {e : DemuxEvent} (hstep : s.step e = some s') :
    s'.Reached := by
  cases e with
  | jsonimage worker j allocated payload accumulationEnable memory pool =>
    simp only [Demux.step] at hstep
    cases himage : lineImage worker j allocated payload with
    | none =>
      rw [himage] at hstep
      obtain rfl := Option.some.inj hstep
      exact h
    | some image =>
      rw [himage] at hstep
      obtain ⟨haddr, hid⟩ := lineImage_routed himage
      have htracks : (s.put image (headerThresholdId j)).Tracks := ⟨h.tracks.sum, h.tracks.buffer⟩
      have hrouted := h.routed.put haddr
      simp only [Demux.accumulate] at hstep
      by_cases hacc : worker = .img ∧ accumulationEnable = true ∧ image.thresholdId ≠ 1
      · rw [if_pos hacc] at hstep
        refine ⟨htracks.onImg hstep, hrouted.onImg ?_ hstep⟩
        intro frame pool' _
        refine ⟨⟨image, headerThresholdId j⟩, List.mem_append_right _ (List.mem_singleton.mpr rfl), rfl, ?_⟩
        rw [← hid]
        exact hacc.2.2
      · rw [if_neg hacc] at hstep
        obtain rfl := Option.some.inj hstep
        exact ⟨htracks, hrouted⟩
  | other op hop =>
    exact ⟨h.tracks.onImg hstep, h.routed.onImg (fun frame pool heq => absurd heq (hop frame pool)) hstep⟩

theorem Demux.reached_run {events : List DemuxEvent} {s : Demux} (hrun : run Demux.step .init events = some s) :
    s.Reached :=
  run_preserves (fun _ _ _ h hstep => h.step hstep) Demux.reached_init hrun

/-- The ids of the images that have been put are 0 and 1. -/
def Demux.TwoIds (s : Demux) : Prop := ∀ r ∈ s.images, r.id = 0 ∨ r.id = 1

theorem Demux.twoIds_step {s s' : Demux} {e : DemuxEvent} (hstep : s.step e = some s') :
    s'.TwoIds ↔ s.TwoIds ∧ e.InRange := by
  have honImg : ∀ {t t' : Demux} {op : Op} {id : ℤ}, t.onImg op id = some t' → t'.images = t.images := by
    intro t t' op id ht
    obtain ⟨img, -, rfl⟩ := Option.map_eq_some_iff.mp ht
    rfl
  cases e with
  | jsonimage worker j allocated payload accumulationEnable memory pool =>
    simp only [Demux.step] at hstep
    cases himage : lineImage worker j allocated payload with
    | none =>
      rw [himage] at hstep
      obtain rfl := Option.some.inj hstep
      simp [DemuxEvent.InRange, himage]
    | some image =>
      rw [himage] at hstep
      have himages : s'.images = s.images ++ [⟨image, headerThresholdId j⟩] := by
        simp only [Demux.accumulate] at hstep
        split at hstep
        · exact honImg hstep
        · rw [← Option.some.inj hstep]
          rfl
      unfold Demux.TwoIds DemuxEvent.InRange
      rw [himages]
      simp [himage, or_imp, forall_and]
  | other op hop =>
    unfold Demux.TwoIds
    rw [honImg hstep]
    simp [DemuxEvent.InRange]

theorem Demux.twoIds_run {events : List DemuxEvent} {s s' : Demux}
    (hrun : run Demux.step s events = some s') : s'.TwoIds ↔ s.TwoIds ∧ ∀ e ∈ events, e.InRange := by
  induction events generalizing s with
  | nil =>
    obtain rfl := Option.some.inj hrun
    simp
  | cons e events ih =>
    obtain ⟨t, ht, hrest⟩ := Option.bind_eq_some_iff.mp hrun
    rw [ih hrest, Demux.twoIds_step ht, List.forall_mem_cons, and_assoc]

/-! ## The result -/

theorem toInt32_one : toInt32 1 = 1 := by decide

theorem Demux.Reached.separated_iff {s : Demux} (h : s.Reached) : s.Separated ↔ s.TwoIds := by
  constructor
  · intro hsep r hr
    obtain ⟨worker, haddr⟩ := h.routed.addr r hr
    by_cases hone : toInt32 r.id = 1
    · rw [previewNdarrayAddressForThreshold, if_pos hone] at haddr
      exact Or.inr (hsep.threshold1 r hr worker haddr)
    · rw [previewNdarrayAddressForThreshold, if_neg hone] at haddr
      exact Or.inl (hsep.threshold0 r hr worker haddr)
  · intro htwo
    have hsummable : ∀ f, s.Summable f → f.id = 0 := by
      rintro f ⟨r, hr, hid, hne⟩
      rcases htwo r hr with hzero | hone
      · exact hid.symm.trans hzero
      · rw [← hid, hone] at hne
        exact absurd toInt32_one hne
    constructor
    · intro r hr worker heq
      obtain ⟨worker', haddr⟩ := h.routed.addr r hr
      rcases htwo r hr with hzero | hone
      · exact hzero
      · rw [hone, previewNdarrayAddressForThreshold, if_pos toInt32_one, heq] at haddr
        exact absurd haddr (addrs_ne worker worker')
    · intro r hr worker heq
      obtain ⟨worker', haddr⟩ := h.routed.addr r hr
      rcases htwo r hr with hzero | hone
      · rw [hzero, previewNdarrayAddressForThreshold, if_neg (by decide), heq] at haddr
        exact absurd haddr.symm (addrs_ne worker' worker)
      · exact hone
    · exact fun f hf => hsummable f (h.routed.summed f hf)
    · exact fun f hf => hsummable f (h.routed.buffered f hf)

/-- In every state that a run reaches the labelled frames are those of the running sum and of the frame buffer;
thresholds are separated exactly when no image has been put whose id is neither 0 nor 1. -/
theorem separated_iff_inRange (events : List DemuxEvent) (s : Demux)
    (hrun : run Demux.step .init events = some s) :
    s.Tracks ∧ (s.Separated ↔ ∀ e ∈ events, e.InRange) := by
  have hreached := Demux.reached_run hrun
  refine ⟨hreached.tracks, ?_⟩
  rw [hreached.separated_iff, Demux.twoIds_run hrun]
  simp [Demux.TwoIds, Demux.init]

/-- A line of the Img channel with a one-pixel image of the given threshold id. -/
def onePixelLine (id : ℤ) : DemuxEvent :=
  .jsonimage .img
    (.object [("width", .number_integer 1), ("height", .number_integer 1), ("thresholdID", .number_integer id)])
    true (some [0, 5]) true (fun _ => 0) ⟨true, true⟩

theorem separated_zero_one :
    ∃ s, run Demux.step .init [onePixelLine 0, onePixelLine 1, onePixelLine 0] = some s ∧ s.Tracks ∧
      s.Separated := by
  have hsome : (run Demux.step .init [onePixelLine 0, onePixelLine 1, onePixelLine 0]).isSome := by
    decide +kernel
  obtain ⟨s, hrun⟩ := Option.isSome_iff_exists.mp hsome
  obtain ⟨htracks, hiff⟩ := separated_iff_inRange _ s hrun
  refine ⟨s, hrun, htracks, hiff.mpr ?_⟩
  have hzero : (onePixelLine 0).InRange := fun _ => Or.inl (by decide)
  have hone : (onePixelLine 1).InRange := fun _ => Or.inr (by decide)
  intro e he
  rcases List.mem_cons.mp he with rfl | he
  · exact hzero
  · rcases List.mem_cons.mp he with rfl | he
    · exact hone
    · rw [List.mem_singleton.mp he]
      exact hzero

/-- An image of threshold 2 is added to the one of threshold 0. -/
theorem threshold_two_summed :
    ∃ s, run Demux.step .init [onePixelLine 0, onePixelLine 2] = some s ∧ s.Tracks ∧ ¬ s.Separated := by
  have hids : (run Demux.step .init [onePixelLine 0, onePixelLine 2]).map
      (fun s => s.summed.map Labelled.id) = some [0, 2] := by
    decide +kernel
  obtain ⟨s, hrun, hids⟩ := Option.map_eq_some_iff.mp hids
  refine ⟨s, hrun, (Demux.reached_run hrun).tracks, fun hsep => ?_⟩
  have htwo : (2 : ℤ) ∈ s.summed.map Labelled.id := by
    rw [hids]
    decide
  obtain ⟨f, hf, hid⟩ := List.mem_map.mp htwo
  rw [hsep.summed f hf] at hid
  exact absurd hid (by decide)

end ADTimePix3.Stream
