import ADTimePix3.Img.Proofs.RunningSumProofs
import ADTimePix3.Stream.ImgPipeline
import ADTimePix3.Stream.Proofs.JsonImageProofs

/-!
# The Img channel from its socket to its sums

A run of the channel is a run of the Img members on the operations of its stream and of its clients
(`run_eq`), whatever the stream. When the stream is an aligned one of frames that the worker can read, the
frames among these operations are those of the stream, each with the big-endian words of its payload, in
order and without threshold 1. So the running sum is the one of the stream's frames since the last restart.

Main result: `sums_of_stream`.
-/

namespace ADTimePix3.Stream.ImgPipeline

open Img (ImgState Op Pool Frame RunningSumOf stepState sinceRestart measuring_run)
open Buffers Chunks Runs

variable {env : Env}

/-! ## A run of the channel is a run of the Img members -/

theorem foldlM_accumulate (accumulationEnable : Bool) (memory : ℕ → ℕ) (pool : Pool) (images : List Image)
    (s : ImgState) :
    images.foldlM (accumulate accumulationEnable memory pool) s =
      run stepState s (frameOps accumulationEnable memory pool images) := by
  induction images generalizing s with
  | nil => rfl
  | cons image images ih =>
    rw [List.foldlM_cons]
    unfold accumulate frameOps
    by_cases h : accumulated accumulationEnable image = true
    · rw [if_pos h, List.filter_cons_of_pos h, List.map_cons, run_cons]
      exact congrArg (Option.bind _) (funext ih)
    · rw [if_neg h, List.filter_cons_of_neg h]
      exact ih s

theorem turnCount_turn (accumulationEnable : Bool) (memory : ℕ → ℕ) (pool : Pool) (events : List Event) :
    turnCount (.turn accumulationEnable memory pool :: events) = turnCount events + 1 :=
  List.countP_cons_of_pos rfl

theorem turnCount_other (op : Op) (hop : ∀ frame pool, op ≠ .frame frame pool) (events : List Event) :
    turnCount (.other op hop :: events) = turnCount events :=
  List.countP_cons_of_neg Bool.false_ne_true

/-- The worker takes its turns whatever the clients do, and the Img members take the operations of both. -/
theorem run_eq (p : Pipeline) (events : List Event) :
    run (step env) p events =
      (run stepState p.img (opsOf env p.worker events)).map fun img =>
        ⟨turns (imgWorkerThread env) (turnCount events) p.worker, img⟩ := by
  induction events generalizing p with
  | nil => rfl
  | cons e events ih =>
    rw [run_cons]
    cases e with
    | turn accumulationEnable memory pool =>
      rw [opsOf, run_append, step, foldlM_accumulate, turnCount_turn]
      cases run stepState p.img (frameOps accumulationEnable memory pool
        (newImages p.worker (imgWorkerThread env p.worker).val)) with
      | none => rfl
      | some img => exact ih ⟨(imgWorkerThread env p.worker).val, img⟩
    | other op hop =>
      rw [opsOf, run_cons, step, turnCount_other]
      cases stepState p.img op with
      | none => rfl
      | some img => exact ih ⟨p.worker, img⟩

/-! ## The images of a run -/

theorem imgWorkerThread_channel (w : Worker (List Image)) :
    w.channel <+: (imgWorkerThread env w).val.channel :=
  readTurn_channel (fun _ => List.prefix_rfl) processJsonimageLine_channel w

theorem turns_grow (n : ℕ) (w : Worker (List Image)) :
    w.channel <+: (turns (imgWorkerThread env) n w).channel :=
  turns_invariant (fun w' => w.channel <+: w'.channel)
    (fun w' hw' => hw'.trans (imgWorkerThread_channel w')) List.prefix_rfl n

theorem newImages_trans {w w' w'' : Worker (List Image)} (h : w.channel <+: w'.channel)
    (h' : w'.channel <+: w''.channel) : newImages w w'' = newImages w w' ++ newImages w' w'' := by
  obtain ⟨images, himages⟩ := h
  obtain ⟨images', himages'⟩ := h'
  unfold newImages
  rw [← himages', List.drop_left, ← himages, List.drop_left, List.append_assoc, List.drop_left]

/-! ## The frames of a run -/

variable {parse : List UInt8 → Option Json}

/-- The image of a frame covers its array: nothing of what the memory held is left. -/
theorem frameImage_image (f : ImageFrame parse) (worker : ImageWorker) (memory : ℕ → ℕ) :
    frameImage (f.image worker) memory = payloadFrame f := by
  have hpixels : (frameImage (f.image worker) memory).pixels = (payloadFrame f).pixels := by
    refine tabulate_congr fun i hi => ?_
    have hget : (f.image worker).pixels.getD i (memory i) = payloadPixel f i :=
      getD_tabulate hi (payloadPixel f) (memory i)
    rw [hget]
    exact Nat.mod_eq_of_lt (payloadPixel_lt f hi)
  unfold frameImage payloadFrame at hpixels ⊢
  congr

/-- Whether a frame is one that is summed. -/
theorem accumulated_image (f : ImageFrame parse) (accumulationEnable : Bool) :
    accumulated accumulationEnable (f.image .img) =
      (accumulationEnable && decide (jsonImageThresholdId f.json ≠ 1)) := rfl

theorem summedFrames_append (frames frames' : List (ImageFrame parse)) :
    summedFrames (frames ++ frames') = summedFrames frames ++ summedFrames frames' := by
  unfold summedFrames
  rw [List.filter_append, List.map_append]

theorem filterMap_frameOps (accumulationEnable : Bool) (memory : ℕ → ℕ) (pool : Pool)
    (frames : List (ImageFrame parse)) :
    (frameOps accumulationEnable memory pool (frames.map (ImageFrame.image .img))).filterMap frameOfOp =
      if accumulationEnable = true then summedFrames frames else [] := by
  induction frames with
  | nil => cases accumulationEnable <;> rfl
  | cons f frames ih =>
    unfold frameOps summedFrames at ih ⊢
    rw [List.map_cons]
    cases accumulationEnable with
    | false => exact ih
    | true =>
      rw [if_pos rfl] at ih ⊢
      rw [List.filter_cons, List.filter_cons, accumulated_image, Bool.true_and]
      by_cases h : jsonImageThresholdId f.json ≠ 1
      · rw [if_pos (decide_eq_true h), if_pos (decide_eq_true h), List.map_cons, List.map_cons,
          frameImage_image, ← ih]
        exact List.filterMap_cons_some rfl
      · have hfalse : ¬ decide (jsonImageThresholdId f.json ≠ 1) = true := by
          rwa [decide_eq_true_eq]
        rw [if_neg hfalse, if_neg hfalse, ih]

/-- The frames that a run accumulates are frames of the stream, in order; all of them, when the accumulation
is enabled. -/
theorem frames_opsOf {w : Worker (List Image)} {frames : List (ImageFrame parse)} {events : List Event}
    (hframes : newImages w (turns (imgWorkerThread env) (turnCount events) w) =
      frames.map (ImageFrame.image .img)) :
    ((opsOf env w events).filterMap frameOfOp).Sublist (summedFrames frames) ∧
      ((∀ e ∈ events, e.Enabled) → (opsOf env w events).filterMap frameOfOp = summedFrames frames) := by
  induction events generalizing w frames with
  | nil =>
    have hnil : newImages w w = [] := List.drop_length
    obtain rfl : frames = [] := List.map_eq_nil_iff.mp (hframes.symm.trans hnil)
    exact ⟨List.Sublist.refl _, fun _ => rfl⟩
  | cons e events ih =>
    cases e with
    | turn accumulationEnable memory pool =>
      rw [turnCount_turn, turns_succ, newImages_trans (imgWorkerThread_channel w) (turns_grow _ _)]
        at hframes
      obtain ⟨now, later, rfl, hnow, hlater⟩ := List.append_eq_map_iff.mp hframes
      obtain ⟨hsub, heq⟩ := ih hlater.symm
      rw [opsOf, List.filterMap_append, ← hnow, filterMap_frameOps, summedFrames_append]
      constructor
      · refine List.Sublist.append ?_ hsub
        cases accumulationEnable
        · exact List.nil_sublist _
        · exact List.Sublist.refl _
      · intro henabled
        have hturn : accumulationEnable = true := henabled _ List.mem_cons_self
        rw [if_pos hturn, heq fun e he => henabled e (List.mem_cons_of_mem _ he)]
    | other op hop =>
      rw [turnCount_other] at hframes
      have hnone : frameOfOp op = none := by
        cases op with
        | frame frame pool => exact absurd rfl (hop frame pool)
        | _ => rfl
      obtain ⟨hsub, heq⟩ := ih hframes
      rw [opsOf, List.filterMap_cons_none hnone]
      exact ⟨hsub, fun henabled => heq fun e he => henabled e (List.mem_cons_of_mem _ he)⟩

/-- The clients' operations come in their order, and no other one does. -/
theorem clients_opsOf (w : Worker (List Image)) (events : List Event) :
    (opsOf env w events).filterMap clientOp = events.filterMap Event.clientOp := by
  induction events generalizing w with
  | nil => rfl
  | cons e events ih =>
    cases e with
    | turn accumulationEnable memory pool =>
      have hnil : ∀ images,
          (frameOps accumulationEnable memory pool images).filterMap clientOp = [] := by
        intro images
        refine List.filterMap_eq_nil_iff.mpr fun op hop => ?_
        obtain ⟨image, -, rfl⟩ := List.mem_map.mp hop
        rfl
      rw [opsOf, List.filterMap_append, hnil, List.nil_append, ih, List.filterMap_cons_none rfl]
    | other op hop =>
      have hclient : clientOp op = some op := by
        cases op with
        | frame frame pool => exact absurd rfl (hop frame pool)
        | _ => rfl
      rw [opsOf, List.filterMap_cons_some hclient, ih]
      exact (List.filterMap_cons_some (show Event.clientOp (.other op hop) = some op from rfl)).symm

/-! ## Runs -/

/-- The events of a measurement: turns, resets and settings. -/
def Event.Accumulates : Event → Prop
  | .turn .. => True
  | .other op _ => op.Accumulates

theorem accumulates_opsOf {events : List Event} (h : ∀ e ∈ events, e.Accumulates) (env : Env)
    (w : Worker (List Image)) :
    ∀ op ∈ opsOf env w events, op.Accumulates := by
  induction events generalizing w with
  | nil =>
    intro op hop
    exact absurd hop List.not_mem_nil
  | cons e events ih =>
    have hrest := ih fun e' he' => h e' (List.mem_cons_of_mem e he')
    intro op hop
    cases e with
    | turn accumulationEnable memory pool =>
      rcases List.mem_append.mp hop with hframe | hop
      · obtain ⟨image, -, rfl⟩ := List.mem_map.mp hframe
        trivial
      · exact hrest _ op hop
    | other op' hop' =>
      rcases List.mem_cons.mp hop with rfl | hop
      · exact h _ List.mem_cons_self
      · exact hrest _ op hop

/-- What the worker has put after a number of turns: the beginning of the stream, and in the end all of it. -/
theorem images_of_stream (halloc : ∀ n, env.alloc n = true) {frames : List (ImageFrame env.parse)}
    (hread : ∀ f ∈ frames, f.Readable .img) (buffer : ℕ → UInt8) {pieces : List (List UInt8)}
    (hpieces : Delivers pieces (streamOf (frames.map ImageFrame.message)))
    (haligned : Aligned (frames.map ImageFrame.message) pieces) :
    ∃ last, ∀ n, ∃ k,
      (turns (imgWorkerThread env) n (.start buffer ⟨true, pieces⟩ [])).channel =
        (frames.take k).map (ImageFrame.image .img) ∧ (last ≤ n → k = frames.length) := by
  obtain ⟨last, hstop, hchannel⟩ : ∃ n,
      (turns (ImageWorker.img.turn env) n (.start buffer ⟨true, pieces⟩ [])).running = false ∧
      (turns (ImageWorker.img.turn env) n (.start buffer ⟨true, pieces⟩ [])).channel =
        frames.foldl (fun images f => images ++ [f.image .img]) [] := by
    rw [ImageWorker.turn_eq]
    refine turns_stream (fun _ => True) (fun f _ => f.framed) (fun f hf => (hread f hf).line_fits)
      ?_ rfl trivial (Or.inr rfl) ⟨rfl, hpieces⟩ haligned
    intro f hf images _
    exact ⟨processJsonimageLine_handles halloc (hread f hf) images, trivial⟩
  rw [List.foldl_append_eq_append, List.nil_append, ← List.flatMap_def, ← List.map_eq_flatMap] at hchannel
  refine ⟨last, fun n => ?_⟩
  have hprefix := images_grow hstop n
  rw [hchannel] at hprefix
  rcases Nat.lt_or_ge n last with hlt | hle
  · refine ⟨(turns (imgWorkerThread env) n (.start buffer ⟨true, pieces⟩ [])).channel.length, ?_,
      fun hle => absurd hle (Nat.not_le.mpr hlt)⟩
    rw [List.map_take]
    exact List.prefix_iff_eq_take.mp hprefix
  · obtain ⟨m, rfl⟩ := Nat.exists_eq_add_of_le hle
    refine ⟨frames.length, ?_, fun _ => rfl⟩
    rw [List.take_length, ← hchannel, turns_add]
    have hstopped : turns (imgWorkerThread env) m _ = _ := turns_of_stopped hstop m
    exact congrArg Worker.channel hstopped

/-- The channel after a run in which the worker has put the first `k` frames of the stream: the Img members
have taken the frames of those that are accumulated and the operations of the clients, and the running sum is
that of the frames since the last restart. -/
structure Summed (env : Env) (frames : List (ImageFrame env.parse)) (p : Pipeline) (events : List Event)
    (p' : Pipeline) (k : ℕ) : Prop where
  images : p'.worker.channel = (frames.take k).map (ImageFrame.image .img)
  img : run stepState p.img (opsOf env p.worker events) = some p'.img
  accumulated : ((opsOf env p.worker events).filterMap frameOfOp).Sublist (summedFrames (frames.take k))
  enabled : (∀ e ∈ events, e.Enabled) →
    (opsOf env p.worker events).filterMap frameOfOp = summedFrames (frames.take k)
  clients : (opsOf env p.worker events).filterMap clientOp = events.filterMap Event.clientOp
  sum : RunningSumOf p'.img ((opsOf env p.worker events).foldl sinceRestart [])

/-- Every measurement on an aligned stream of frames that the worker can read goes through, however the turns
of the worker and the operations of the clients interleave, and sums the frames of the stream: a beginning of
them at any time, and all of them once the worker has taken enough turns. -/
theorem sums_of_stream (halloc : ∀ n, env.alloc n = true) (frames : List (ImageFrame env.parse))
    (hread : ∀ f ∈ frames, f.Readable .img) (buffer : ℕ → UInt8) (pieces : List (List UInt8))
    (hpieces : Delivers pieces (streamOf (frames.map ImageFrame.message)))
    (haligned : Aligned (frames.map ImageFrame.message) pieces) :
    ∃ last, ∀ events : List Event, (∀ e ∈ events, e.Accumulates) →
      ∃ p k, run (step env) (start buffer ⟨true, pieces⟩) events = some p ∧
        Summed env frames (start buffer ⟨true, pieces⟩) events p k ∧
        (last ≤ turnCount events → k = frames.length) := by
  obtain ⟨last, hlast⟩ := images_of_stream halloc hread buffer hpieces haligned
  refine ⟨last, fun events hevents => ?_⟩
  obtain ⟨k, himages, hk⟩ := hlast (turnCount events)
  obtain ⟨s, hrun, hmeasuring⟩ :=
    measuring_run _ (accumulates_opsOf hevents env (start buffer ⟨true, pieces⟩).worker)
  have hnew : newImages (start buffer ⟨true, pieces⟩).worker
      (turns (imgWorkerThread env) (turnCount events) (start buffer ⟨true, pieces⟩).worker) =
        (frames.take k).map (ImageFrame.image .img) := himages
  obtain ⟨hsub, heq⟩ := frames_opsOf hnew
  refine ⟨⟨turns (imgWorkerThread env) (turnCount events) (start buffer ⟨true, pieces⟩).worker, s⟩, k,
    ?_, ?_, hk⟩
  · rw [run_eq]
    show (run stepState .init _).map _ = _
    rw [hrun]
    rfl
  · exact ⟨himages, hrun, hsub, heq, clients_opsOf _ _, hmeasuring.sum⟩

theorem sums_of_stream_pixels :
    ∃ last, ∀ events : List Event, (∀ e ∈ events, e.Accumulates) →
      ∃ p k, run (step pixelEnv) (start (fun _ => 0) ⟨true, pixelPieces⟩) events = some p ∧
        Summed pixelEnv [pixelFrame1, pixelFrame2] (start (fun _ => 0) ⟨true, pixelPieces⟩) events p k ∧
        (last ≤ turnCount events → k = 2) := by
  refine sums_of_stream (fun _ => rfl) [pixelFrame1, pixelFrame2] ?_ (fun _ => 0) pixelPieces
    ⟨by decide +kernel, by decide +kernel⟩ (aligned_pair ⟨[pixelFrame1.message.line], _, rfl, rfl⟩)
  intro f hf
  rcases List.mem_pair.mp hf with rfl | rfl
  · exact ⟨by decide +kernel, by decide, rfl, rfl⟩
  · exact ⟨by decide +kernel, by decide, rfl, rfl⟩

end ADTimePix3.Stream.ImgPipeline
