import ADTimePix3.Hst.HistFrame
import ADTimePix3.Hst.Proofs.RunningSumProofs
import ADTimePix3.Stream.Proofs.JsonProofs
import ADTimePix3.Stream.Proofs.OccupancyProofs

/-!
# Histograms from frames

`processPrvHstDataLine` turns a well-formed frame into its histogram. So an aligned stream of frames that the
worker can read hands their histograms to `processPrvHstFrame`, in order and none besides, and the running
sum is the bin-wise sum of the frames (`histograms_eq_frames`).
-/

namespace ADTimePix3.Hst

open Buffers Memory Traced Chunks
open ADTimePix3.Stream
open ADTimePix3.Stream.NetworkClient (Ready KeepsCuts TakesExactly takesExactly_of_receive_exact)
open Img (toInt32)

variable {env : Env} {f : HistFrame env.parse} {client : NetworkClient}

/-! ## The line function -/

/-- The bins that are not in the buffer come from the client. -/
theorem receiveBins_takesExactly : TakesExactly receiveBins := by
  apply takesExactly_of_receive_exact
  · intro client
    rfl
  · intro client size hconnected hpos
    unfold receiveBins
    rw [if_neg (Nat.pos_iff_ne_zero.mp hpos), if_pos hconnected]

theorem histInt_of_member {j : Json} {key : String} {z : ℤ} (h : j.member key = some (.number_integer z)) :
    histInt j key 0 = toInt32 z := by
  unfold histInt
  rw [h]

theorem acceptHistHeader_eq (h : f.Readable) (s : PrvHstState) :
    acceptHistHeader env s f.message.header = .ok (f.header, s.withHeader f.header) := by
  have hrange := f.binSize_range
  obtain ⟨number, hnumber⟩ := Option.isSome_iff_exists.mp h.frameNumber
  obtain ⟨time, htime⟩ := Option.isSome_iff_exists.mp h.timeAtFrame
  have hread : readHistHeader f.json = some f.header := by
    have hsize : histInt f.json "binSize" 0 = f.binSize := by
      rw [histInt_of_member f.binSize_eq, toInt32_of_range (by omega)]
    simp only [readHistHeader, HistFrame.header, hnumber, htime, Option.bind_eq_bind, Option.bind_some,
      Option.getD_some, hsize, histInt_of_member f.binWidth_eq, histInt_of_member f.binOffset_eq]
  have haccepted : f.header.accepted = true := by
    unfold HistHeader.accepted HistFrame.header
    simp only [Bool.and_eq_true, decide_eq_true_eq]
    omega
  have hcontains : f.json.contains "binSize" = true := by
    rw [Json.contains, f.binSize_eq]
    rfl
  unfold acceptHistHeader
  rw [f.parse_header]
  show (if f.json.contains "binSize" = true then _ else _) = _
  rw [if_pos hcontains, hread]
  exact if_pos haccepted

theorem val_processPrvHstDataLine {line : Line} {ch : PrvHstChannel} (hon : ch.accumulationEnable = true)
    (hstart : line.line_buffer < line.newline_pos) (hbrace : line.buffer line.line_buffer = '{'.toUInt8) :
    (processPrvHstDataLine env line client ch).val =
      match acceptHistHeader env ch.state
        (slice line.buffer line.line_buffer (line.newline_pos - line.line_buffer)) with
      | .error (ok, state) => ⟨ok, client, { ch with state := state }⟩
      | .ok (header, state) => (addHistogram header line client { ch with state := state }).val := by
  unfold processPrvHstDataLine
  rw [hon]
  show Traced.val (if line.newline_pos ≤ line.line_buffer then _ else _) = _
  rw [if_neg (Nat.not_le.mpr hstart), val_bind, val_skipBinary hstart hbrace]
  show Traced.val (if line.line_buffer ≥ line.newline_pos then _ else _) = _
  rw [if_neg (Nat.not_le.mpr hstart), val_bind, val_read, hbrace]
  show (readRange line.buffer line.line_buffer (line.newline_pos - line.line_buffer) >>= _).val = _
  rw [val_bind, val_readRange]
  rcases acceptHistHeader env ch.state
    (slice line.buffer line.line_buffer (line.newline_pos - line.line_buffer)) with ⟨ok, state⟩ | ⟨header, state⟩
  · rfl
  · rfl

/-- The histogram of a frame whose payload is partly in the buffer. -/
theorem val_addHistogram {buffer : ℕ → UInt8} {n : ℕ} {tail : List UInt8} (hn : n ≤ f.message.payload.length)
    (hpayload : Holds buffer f.message.line.length (f.message.payload.take n))
    (hready : Ready client (f.message.payload.drop n ++ tail)) (ch : PrvHstChannel) :
    ∃ client', (addHistogram f.header
        ⟨buffer, 0, f.message.header.length, f.message.line.length + n⟩ client ch).val =
        ⟨true, client',
          { ch with
            state := processPrvHstFrame ch.accumulationEnable ch.state f.histogram
            handed := ch.handed ++ [f.histogram] }⟩ ∧
      Ready client' tail ∧ KeepsCuts client (f.message.payload.length - n) client' := by
  have hneeded : f.header.binaryNeeded = f.message.payload.length := by
    rw [f.payload_length]
    rfl
  obtain ⟨client', hcopy, hrecv, hready', hcuts⟩ :=
    payload_taken receiveBins_takesExactly hn hpayload hready
  refine ⟨client', ?_, hready', hcuts⟩
  unfold addHistogram
  rw [val_bind, hneeded, hcopy, hrecv]
  show LineResult.mk true client' _ = _
  rw [List.take_append_drop]
  rfl

theorem processPrvHstDataLine_handles (h : f.Readable) {ch : PrvHstChannel}
    (hon : ch.accumulationEnable = true) :
    (jsonhistoLines env).Handles f.message ch (HistFrame.next ch f) := by
  constructor
  · rw [LineKind.isHeader_of_parse f.parse_header]
    show (f.json.contains "binSize" || _) = true
    rw [Json.contains, f.binSize_eq]
    rfl
  · intro buffer n client tail hn hheader hnul hpayload hroom hready
    have htwo := f.framed.two_le
    obtain ⟨hbrace, -⟩ := f.framed.brace_quote hheader
    have htext : slice buffer 0 (f.message.header.length - 0) = f.message.header := hheader.slice_eq
    obtain ⟨client', hadd, hready', hcuts⟩ :=
      val_addHistogram hn hpayload hready { ch with state := ch.state.withHeader f.header }
    refine ⟨client', ?_, hready', hcuts⟩
    show (processPrvHstDataLine _ _ _ _).val = _
    rw [val_processPrvHstDataLine hon (show 0 < f.message.header.length by omega) hbrace]
    dsimp only
    rw [htext, acceptHistHeader_eq h]
    exact hadd

/-! ## The worker -/

theorem HistFrame.histogram_bins (f : HistFrame env.parse) : f.histogram.bin_values_32 = f.bins := by
  show (List.range f.binSize).map _ = (List.range f.binSize).map _
  apply List.map_congr_left
  intro i hi
  have hlt := List.mem_range.mp hi
  have hlen := f.payload_length
  exact bswap32_word32 (by omega)

theorem HistFrame.histogram_bin_size (f : HistFrame env.parse) : f.histogram.bin_size = f.binSize := by
  rw [FrameHistogram.bin_size, f.histogram_bins, HistFrame.bins, List.length_map, List.length_range]

theorem foldl_next_handed (frames : List (HistFrame env.parse)) (ch : PrvHstChannel) :
    (frames.foldl HistFrame.next ch).handed = ch.handed ++ frames.map HistFrame.histogram := by
  induction frames generalizing ch with
  | nil => rw [List.foldl_nil, List.map_nil, List.append_nil]
  | cons f frames ih =>
    rw [List.foldl_cons, ih, List.map_cons, HistFrame.next, List.append_assoc, List.singleton_append]

/-- Frames of one size are summed: the running sum stays that of the frames handed on. -/
theorem foldl_next_sumOf {size : ℕ} {frames : List (HistFrame env.parse)} {ch : PrvHstChannel}
    (hon : ch.accumulationEnable = true) (hsum : SumOf ch.state ch.handed)
    (hhanded : ∀ g ∈ ch.handed, g.bin_size = size) (hsize : ∀ f ∈ frames, f.binSize = size) :
    SumOf (frames.foldl HistFrame.next ch).state (frames.foldl HistFrame.next ch).handed := by
  induction frames generalizing ch with
  | nil => exact hsum
  | cons f frames ih =>
    have hf : f.histogram.bin_size = size := by
      rw [f.histogram_bin_size, hsize f List.mem_cons_self]
    rw [List.foldl_cons]
    refine ih hon ?_ ?_ fun f' hf' => hsize f' (List.mem_cons_of_mem f hf')
    · have hframe := (hsum.withHeader f.header).frame f.histogram
      rw [keptFrames_of_size hhanded hf] at hframe
      show SumOf (processPrvHstFrame ch.accumulationEnable _ _) (ch.handed ++ [f.histogram])
      rw [hon]
      exact hframe
    · intro g hg
      rcases List.mem_append.mp hg with hg | hg
      · exact hhanded g hg
      · rw [List.mem_singleton.mp hg, hf]

/-- Until it leaves the loop the worker hands on the beginning of what it hands on in all. -/
theorem handed_grow {w : Worker PrvHstChannel} {last : ℕ}
    (hstop : (turns (readTurn (jsonhistoLines env)) last w).running = false) (n : ℕ) :
    (turns (readTurn (jsonhistoLines env)) n w).channel.handed <+:
      (turns (readTurn (jsonhistoLines env)) last w).channel.handed :=
  turns_channel (r := fun ch ch' => ch.handed <+: ch'.handed) (fun _ => List.prefix_rfl)
    (fun _ _ _ => List.IsPrefix.trans)
    (fun line client ch => (processPrvHstDataLine_channel line client ch).2) hstop n

/-- The worker on a connection that delivers its data in the given pieces, with accumulation enabled. -/
def prvHstRun (env : Env) (buffer : ℕ → UInt8) (pieces : List (List UInt8)) (state : PrvHstState) (n : ℕ) :
    Worker PrvHstChannel :=
  turns (prvHstWorkerThread env) n (.start buffer ⟨true, pieces⟩ ⟨true, state, []⟩)

/-- Bin `i` summed over the frames sent. -/
def sentSum (frames : List (HistFrame env.parse)) (i : ℕ) : ℕ := (frames.map fun f => f.bins.getD i 0).sum

theorem binSum_histograms (frames : List (HistFrame env.parse)) (i : ℕ) :
    binSum (frames.map HistFrame.histogram) i = sentSum frames i := by
  unfold binSum sentSum
  rw [List.map_map]
  refine congrArg List.sum (List.map_congr_left fun f _ => ?_)
  show f.histogram.bin_values_32.getD i 0 = _
  rw [f.histogram_bins]

/-- The running sum of frames of one size, when every bin fits. -/
theorem sumOf_frames {s : PrvHstState} {frames : List (HistFrame env.parse)} {size : ℕ}
    (h : SumOf s (frames.map HistFrame.histogram)) (hne : frames ≠ []) (hsize : ∀ f ∈ frames, f.binSize = size)
    (hfits : ∀ i, sentSum frames i < 2 ^ 64) :
    ∃ sum, s.prvHstRunningSum = some sum ∧ sum.bin_values_64 = (List.range size).map (sentSum frames) := by
  cases hsum : s.prvHstRunningSum with
  | none => exact absurd (List.map_eq_nil_iff.mp (h.absent.mp hsum)) hne
  | some sum =>
    obtain ⟨hbin_size, hbins⟩ := h.present sum hsum
    obtain ⟨f, hf⟩ := List.exists_mem_of_ne_nil frames hne
    have hsumSize : sum.bin_size = size := by
      rw [← hbin_size f.histogram (List.mem_map_of_mem hf), f.histogram_bin_size, hsize f hf]
    refine ⟨sum, rfl, ?_⟩
    rw [hbins, hsumSize]
    refine tabulate_congr fun i _ => ?_
    have hfit := hfits i
    rw [binSum_histograms]
    omega

/-- An aligned stream of frames that the worker can read hands on the histograms of the frames, in order and
none besides: at any time a beginning of them, and all of them when the worker leaves the loop. The running
sum is then the bin-wise sum of frames of one size, as far as it fits 64 bits. -/
theorem histograms_eq_frames (frames : List (HistFrame env.parse)) (hread : ∀ f ∈ frames, f.Readable)
    (buffer : ℕ → UInt8) (pieces : List (List UInt8)) (state : PrvHstState)
    (hpieces : Delivers pieces (streamOf (frames.map HistFrame.message)))
    (haligned : Aligned (frames.map HistFrame.message) pieces) :
    (∀ n, (prvHstRun env buffer pieces state n).channel.handed.map FrameHistogram.bin_values_32 <+:
      frames.map HistFrame.bins) ∧
    ∃ n, (prvHstRun env buffer pieces state n).running = false ∧
      (prvHstRun env buffer pieces state n).channel.handed.map FrameHistogram.bin_values_32 =
        frames.map HistFrame.bins ∧
      (state.prvHstRunningSum = none → frames ≠ [] → ∀ size, (∀ f ∈ frames, f.binSize = size) →
        (∀ i, sentSum frames i < 2 ^ 64) →
        ∃ sum, (prvHstRun env buffer pieces state n).channel.state.prvHstRunningSum = some sum ∧
          sum.bin_values_64 = (List.range size).map (sentSum frames)) := by
  have hrun : ∀ n, prvHstRun env buffer pieces state n =
      turns (readTurn (jsonhistoLines env)) n (.start buffer ⟨true, pieces⟩ ⟨true, state, []⟩) :=
    fun n => prvHst_turns_eq rfl (fits_start _ _ _) n
  obtain ⟨last, hstop, hchannel⟩ : ∃ n, (prvHstRun env buffer pieces state n).running = false ∧
      (prvHstRun env buffer pieces state n).channel = frames.foldl HistFrame.next ⟨true, state, []⟩ := by
    simp only [hrun]
    refine turns_stream (fun ch => ch.accumulationEnable = true) (fun f _ => f.framed)
      (fun f hf => (hread f hf).line_fits) ?_ rfl rfl (Or.inr rfl) ⟨rfl, hpieces⟩ haligned
    intro f hf ch hon
    exact ⟨processPrvHstDataLine_handles (hread f hf) hon, hon⟩
  have hhanded : (prvHstRun env buffer pieces state last).channel.handed =
      frames.map HistFrame.histogram := by
    rw [hchannel, foldl_next_handed, List.nil_append]
  have hbins : (prvHstRun env buffer pieces state last).channel.handed.map FrameHistogram.bin_values_32 =
      frames.map HistFrame.bins := by
    rw [hhanded, List.map_map]
    exact List.map_congr_left fun f _ => f.histogram_bins
  refine ⟨fun n => ?_, last, hstop, hbins, ?_⟩
  · rw [← hbins]
    rw [hrun] at hstop ⊢
    rw [hrun]
    exact (handed_grow hstop n).map _
  · intro hnone hne size hsize hfits
    have hempty : SumOf state [] := by
      refine ⟨iff_of_true hnone rfl, fun sum hsum => ?_⟩
      rw [hnone] at hsum
      cases hsum
    have hsum : SumOf (frames.foldl HistFrame.next ⟨true, state, []⟩).state
        (frames.foldl HistFrame.next ⟨true, state, []⟩).handed :=
      foldl_next_sumOf rfl hempty (fun g hg => absurd hg List.not_mem_nil) hsize
    rw [← hchannel, hhanded] at hsum
    exact sumOf_frames hsum hne hsize hfits

/-! ### Two frames of one bin -/

/-- The header of a frame of one bin, with a frame number of one digit. -/
def binHeader (digit : Char) : List UInt8 :=
  ("\x7b\"binSize\":1,\"binWidth\":8,\"binOffset\":0,\"frameNumber\":".toList ++ [digit, '\x7d']).map Char.toUInt8

def binJson (number : ℤ) : Json :=
  .object [("binSize", .number_integer 1), ("binWidth", .number_integer 8), ("binOffset", .number_integer 0),
    ("frameNumber", .number_integer number)]

def binEnv : Env where
  parse := fun text =>
    if text = binHeader '1' then some (binJson 1)
    else if text = binHeader '2' then some (binJson 2)
    else none
  alloc := fun _ => true

def binFrame (digit : Char) (number : ℤ) (value : UInt8)
    (hframed : (⟨binHeader digit, [0, 0, 0, value]⟩ : Message).Framed)
    (hparse : binEnv.parse (binHeader digit) = some (binJson number)) : HistFrame binEnv.parse where
  message := ⟨binHeader digit, [0, 0, 0, value]⟩
  json := binJson number
  binSize := 1
  binWidth := 8
  binOffset := 0
  framed := hframed
  parse_header := hparse
  binSize_eq := rfl
  binWidth_eq := rfl
  binOffset_eq := rfl
  binSize_range := by decide
  payload_length := rfl

def binFrame1 : HistFrame binEnv.parse :=
  binFrame '1' 1 5 ⟨by decide +kernel, by decide +kernel, by decide +kernel⟩ rfl

def binFrame2 : HistFrame binEnv.parse :=
  binFrame '2' 2 7 ⟨by decide +kernel, by decide +kernel, by decide +kernel⟩ rfl

def binPieces : List (List UInt8) :=
  [binFrame1.message.line, [0, 0, 0, 5], binFrame2.message.line, [0, 0, 0, 7]]

def emptyState : PrvHstState where
  prvHstRunningSum := none
  prvHstFrameBuffer := []
  prvHstCurrentFrame := none
  prvHstFramesToSum := 10
  prvHstSumUpdateIntervalFrames := 1
  prvHstFramesSinceLastSumUpdate := 0
  prvHstTotalCounts := 0
  prvHstFrameCount := 0
  prvHstTimeAtFrame := 0
  prvHstFrameBinSize := 0
  prvHstFrameBinWidth := 0
  prvHstFrameBinOffset := 0
  prvHstSumArray64Buffer := []
  prvHstSumArray64WorkBuffer := []

theorem histograms_eq_frames_bins :
    (∀ n, (prvHstRun binEnv (fun _ => 0) binPieces emptyState n).channel.handed.map
      FrameHistogram.bin_values_32 <+: [[5], [7]]) ∧
    ∃ n, (prvHstRun binEnv (fun _ => 0) binPieces emptyState n).running = false ∧
      (prvHstRun binEnv (fun _ => 0) binPieces emptyState n).channel.handed.map
        FrameHistogram.bin_values_32 = [[5], [7]] ∧
      ∃ sum, (prvHstRun binEnv (fun _ => 0) binPieces emptyState n).channel.state.prvHstRunningSum =
        some sum ∧ sum.bin_values_64 = [12] := by
  have hread : ∀ f ∈ [binFrame1, binFrame2], f.Readable := by
    intro f hf
    rcases List.mem_pair.mp hf with rfl | rfl
    · exact ⟨by decide +kernel, rfl, rfl⟩
    · exact ⟨by decide +kernel, rfl, rfl⟩
  obtain ⟨hgrow, n, hstop, hbins, hsum⟩ :=
    histograms_eq_frames [binFrame1, binFrame2] hread (fun _ => 0) binPieces emptyState
      ⟨by decide +kernel, by decide +kernel⟩ (aligned_pair ⟨[binFrame1.message.line], _, rfl, rfl⟩)
  refine ⟨hgrow, n, hstop, hbins, hsum rfl (List.cons_ne_nil _ _) 1 ?_ ?_⟩
  · intro f hf
    rcases List.mem_pair.mp hf with rfl | rfl <;> rfl
  · intro i
    cases i with
    | zero => decide +kernel
    | succ i =>
      show 0 + (0 + 0) < 2 ^ 64
      decide

/-- Two frames in one piece: the second one stays in the buffer until the connection is closed, and is lost
from the sum. -/
theorem histograms_lost :
    Delivers [streamOf [binFrame1.message, binFrame2.message]]
      (streamOf [binFrame1.message, binFrame2.message]) ∧
    ∀ n, (prvHstRun binEnv (fun _ => 0) [streamOf [binFrame1.message, binFrame2.message]]
      emptyState n).channel.handed.map FrameHistogram.bin_values_32 ≠ [binFrame1.bins, binFrame2.bins] := by
  constructor
  · exact ⟨by decide +kernel, by decide +kernel⟩
  · intro n heq
    have hrun : ∀ n, prvHstRun binEnv (fun _ => 0) [streamOf [binFrame1.message, binFrame2.message]]
        emptyState n = turns (readTurn (jsonhistoLines binEnv)) n
          (.start (fun _ => 0) ⟨true, [streamOf [binFrame1.message, binFrame2.message]]⟩
            ⟨true, emptyState, []⟩) :=
      fun n => prvHst_turns_eq rfl (fits_start _ _ _) n
    have hstop : (prvHstRun binEnv (fun _ => 0) [streamOf [binFrame1.message, binFrame2.message]]
          emptyState 2).running = false ∧
        (prvHstRun binEnv (fun _ => 0) [streamOf [binFrame1.message, binFrame2.message]]
          emptyState 2).channel.handed.length = 1 := by
      decide +kernel
    have hlen := congrArg List.length heq
    rw [List.length_map, hrun] at hlen
    rw [hrun] at hstop
    have hgrow := (handed_grow hstop.1 n).length_le
    rw [hlen, hstop.2] at hgrow
    exact absurd hgrow (Nat.not_le.mpr Nat.one_lt_two)

end ADTimePix3.Hst
