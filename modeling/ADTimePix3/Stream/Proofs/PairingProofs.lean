import ADTimePix3.Stream.Pairing

/-!
# Proofs: band-pass images

The pairing sees of a stream only which messages arrive: it pairs their numbers, by two flags
(`pairIndices`), and `pairImages` follows it (`pairImages_follows`). The pairs are right exactly when no image
of threshold 0 is left over in front of one of threshold 1.

Main result: `pairedRight_iff_unorphaned`.
-/

namespace ADTimePix3.Stream

open Img (toInt32)

/-! ## Pairing of message numbers -/

/-- What the flags say: nothing waits, the image of threshold 1 of a trigger does, or that of threshold 0. -/
inductive Waiting where
  | nothing
  | t1 (f : ℕ)
  | t0 (g : ℕ)

/-- What message `k` does: what waits then, and the triggers of the images of a pair (threshold 0 first). -/
def pairIndex : Waiting → ℕ → Waiting × Option (ℕ × ℕ)
  | .nothing, k => if k % 2 = 0 then (.t1 (k / 2), none) else (.t0 (k / 2), none)
  | .t1 f, k => if k % 2 = 0 then (.t1 (k / 2), none) else (.nothing, some (k / 2, f))
  | .t0 g, k => if k % 2 = 0 then (.nothing, some (g, k / 2)) else (.t0 (k / 2), none)

def pairIndices (w : Waiting) : List ℕ → List (ℕ × ℕ)
  | [] => []
  | k :: arrived => (pairIndex w k).2.toList ++ pairIndices (pairIndex w k).1 arrived

section Indices

variable {k f g : ℕ} {arrived : List ℕ}

theorem pairIndices_nothing_even (h : k % 2 = 0) :
    pairIndices .nothing (k :: arrived) = pairIndices (.t1 (k / 2)) arrived := by
  simp [pairIndices, pairIndex, h]

theorem pairIndices_nothing_odd (h : k % 2 = 1) :
    pairIndices .nothing (k :: arrived) = pairIndices (.t0 (k / 2)) arrived := by
  simp [pairIndices, pairIndex, h]

theorem pairIndices_t1_even (h : k % 2 = 0) :
    pairIndices (.t1 f) (k :: arrived) = pairIndices (.t1 (k / 2)) arrived := by
  simp [pairIndices, pairIndex, h]

theorem pairIndices_t1_odd (h : k % 2 = 1) :
    pairIndices (.t1 f) (k :: arrived) = (k / 2, f) :: pairIndices .nothing arrived := by
  simp [pairIndices, pairIndex, h]

theorem pairIndices_t0_even (h : k % 2 = 0) :
    pairIndices (.t0 g) (k :: arrived) = (g, k / 2) :: pairIndices .nothing arrived := by
  simp [pairIndices, pairIndex, h]

theorem pairIndices_t0_odd (h : k % 2 = 1) :
    pairIndices (.t0 g) (k :: arrived) = pairIndices (.t0 (k / 2)) arrived := by
  simp [pairIndices, pairIndex, h]

/-- Images of threshold 0 alone are not paired. -/
theorem pairIndices_t0_of_odd (hodd : ∀ m ∈ arrived, m % 2 = 1) : pairIndices (.t0 g) arrived = [] := by
  induction arrived generalizing g with
  | nil => rfl
  | cons m arrived ih =>
    rw [pairIndices_t0_odd (hodd m (List.mem_cons_self ..))]
    exact ih fun m' hm' => hodd m' (List.mem_cons_of_mem m hm')

/-- A waiting image of threshold 0 is never paired with that of its own trigger, which has been before it: when
the pairs are right, no image of threshold 1 comes any more. -/
theorem odd_of_pairIndices_t0 (hg : ∀ m ∈ arrived, 2 * g < m) (hinc : arrived.Pairwise (· < ·))
    (hright : ∀ p ∈ pairIndices (.t0 g) arrived, p.1 = p.2) : ∀ m ∈ arrived, m % 2 = 1 := by
  induction arrived generalizing g with
  | nil => simp
  | cons k arrived ih =>
    obtain ⟨hk, hinc⟩ := List.pairwise_cons.mp hinc
    rcases Nat.mod_two_eq_zero_or_one k with heven | hodd
    · rw [pairIndices_t0_even heven] at hright
      have hpair : g = k / 2 := hright _ (List.mem_cons_self ..)
      have hlt := hg k (List.mem_cons_self ..)
      omega
    · rw [pairIndices_t0_odd hodd] at hright
      intro m hm
      rcases List.mem_cons.mp hm with rfl | hm
      · exact hodd
      · refine ih (fun m' hm' => ?_) hinc hright m hm
        have := hk m' hm'
        omega

end Indices

/-! ## Left-over images -/

/-- `Unorphaned` behind the message `prev`. -/
def UnorphanedFrom (prev : Option ℕ) (arrived : List ℕ) : Prop :=
  ∀ before k after, arrived = before ++ k :: after → k % 2 = 1 →
    before.getLast?.or prev = some (k - 1) ∨
      (∀ j ∈ before.getLast?.or prev, j % 2 = 1) ∧ ∀ m ∈ after, m % 2 = 1

theorem unorphanedFrom_none (arrived : List ℕ) : UnorphanedFrom none arrived ↔ Unorphaned arrived := by
  unfold UnorphanedFrom Unorphaned
  simp only [Option.or_none]

theorem unorphanedFrom_nil (prev : Option ℕ) : UnorphanedFrom prev [] := by
  intro before k after h
  simp at h

theorem unorphanedFrom_cons (prev : Option ℕ) (k : ℕ) (arrived : List ℕ) :
    UnorphanedFrom prev (k :: arrived) ↔
      (k % 2 = 1 → prev = some (k - 1) ∨ (∀ j ∈ prev, j % 2 = 1) ∧ ∀ m ∈ arrived, m % 2 = 1) ∧
        UnorphanedFrom (some k) arrived := by
  have hlast : ∀ before : List ℕ, (k :: before).getLast?.or prev = before.getLast?.or (some k) := by
    intro before
    rw [List.getLast?_cons]
    cases before.getLast? <;> rfl
  constructor
  · intro h
    refine ⟨fun hodd => h [] k arrived rfl hodd, ?_⟩
    intro before m after harrived hodd
    have := h (k :: before) m after (by rw [harrived, List.cons_append]) hodd
    rwa [hlast] at this
  · rintro ⟨hhead, htail⟩ before m after harrived hodd
    cases before with
    | nil =>
      obtain ⟨rfl, rfl⟩ := List.cons.inj harrived
      exact hhead hodd
    | cons k' before =>
      obtain ⟨rfl, rfl⟩ := List.cons.inj harrived
      rw [hlast]
      exact htail before m after rfl hodd

theorem unorphanedFrom_of_odd {prev : Option ℕ} {arrived : List ℕ} (hprev : ∀ j ∈ prev, j % 2 = 1)
    (hodd : ∀ m ∈ arrived, m % 2 = 1) : UnorphanedFrom prev arrived := by
  induction arrived generalizing prev with
  | nil => exact unorphanedFrom_nil prev
  | cons k arrived ih =>
    have hk := hodd k (List.mem_cons_self ..)
    have harrived : ∀ m ∈ arrived, m % 2 = 1 := fun m hm => hodd m (List.mem_cons_of_mem k hm)
    rw [unorphanedFrom_cons]
    exact ⟨fun _ => Or.inr ⟨hprev, harrived⟩, ih (by simpa using hk) harrived⟩

/-! ## The pairs are right -/

/-- What waits behind the message `prev` when nothing has been left over. -/
def Waits : Waiting → Option ℕ → Prop
  | .nothing, prev => ∀ j ∈ prev, j % 2 = 1
  | .t1 f, prev => prev = some (2 * f)
  | .t0 _, _ => False

theorem pairIndices_right_iff {w : Waiting} {prev : Option ℕ} {arrived : List ℕ} (hw : Waits w prev)
    (hinc : arrived.Pairwise (· < ·)) :
    (∀ p ∈ pairIndices w arrived, p.1 = p.2) ↔ UnorphanedFrom prev arrived := by
  induction arrived generalizing w prev with
  | nil => exact ⟨fun _ => unorphanedFrom_nil prev, fun _ => by simp [pairIndices]⟩
  | cons k arrived ih =>
    obtain ⟨hk, hinc⟩ := List.pairwise_cons.mp hinc
    rw [unorphanedFrom_cons]
    rcases Nat.mod_two_eq_zero_or_one k with heven | hodd
    · have hnext : Waits (.t1 (k / 2)) (some k) := by
        show some k = some (2 * (k / 2))
        congr 1
        omega
      have hstep : pairIndices w (k :: arrived) = pairIndices (.t1 (k / 2)) arrived := by
        cases w with
        | nothing => exact pairIndices_nothing_even heven
        | t1 f => exact pairIndices_t1_even heven
        | t0 g => exact hw.elim
      rw [hstep, ih hnext hinc]
      constructor
      · intro h
        exact ⟨fun hodd => by omega, h⟩
      · exact And.right
    · cases w with
      | nothing =>
        -- an image of threshold 0 that nothing waits for: right only when no image of threshold 1 follows
        rw [pairIndices_nothing_odd hodd]
        constructor
        · intro hright
          have hrest : ∀ m ∈ arrived, m % 2 = 1 := by
            refine odd_of_pairIndices_t0 (fun m hm => ?_) hinc hright
            have := hk m hm
            omega
          exact ⟨fun _ => Or.inr ⟨hw, hrest⟩, unorphanedFrom_of_odd (by simpa using hodd) hrest⟩
        · rintro ⟨hhead, -⟩
          have hrest : ∀ m ∈ arrived, m % 2 = 1 := by
            rcases hhead hodd with hprev | ⟨-, hrest⟩
            · have := hw (k - 1) hprev
              omega
            · exact hrest
          rw [pairIndices_t0_of_odd hrest]
          simp
      | t1 f =>
        have hprev : prev = some (2 * f) := hw
        have hnext : Waits .nothing (some k) := by
          intro j hj
          cases hj
          exact hodd
        rw [pairIndices_t1_odd hodd, List.forall_mem_cons, ih hnext hinc]
        refine and_congr_left fun _ => ?_
        constructor
        · intro hpair _
          refine Or.inl ?_
          rw [hprev]
          congr 1
          omega
        · intro hhead
          rcases hhead hodd with h | ⟨h, -⟩
          · have := Option.some.inj (hprev.symm.trans h)
            omega
          · have := h (2 * f) hprev
            omega
      | t0 g => exact hw.elim

/-- With nothing left over, a trigger is paired once when both its messages arrive. -/
theorem pairIndices_count {w : Waiting} {prev : Option ℕ} {arrived : List ℕ} (hw : Waits w prev)
    (hprev : ∀ j ∈ prev, ∀ m ∈ arrived, j < m) (hinc : arrived.Pairwise (· < ·))
    (h : UnorphanedFrom prev arrived) (g : ℕ) :
    (pairIndices w arrived).count (g, g) =
      if (2 * g ∈ prev ∨ 2 * g ∈ arrived) ∧ 2 * g + 1 ∈ arrived then 1 else 0 := by
  induction arrived generalizing w prev with
  | nil => simp [pairIndices]
  | cons k arrived ih =>
    obtain ⟨hk, hinc⟩ := List.pairwise_cons.mp hinc
    obtain ⟨hhead, htail⟩ := (unorphanedFrom_cons prev k arrived).mp h
    have hnextPrev : ∀ j ∈ some k, ∀ m ∈ arrived, j < m := by
      intro j hj
      cases hj
      exact hk
    rcases Nat.mod_two_eq_zero_or_one k with heven | hodd
    · have hnext : Waits (.t1 (k / 2)) (some k) := by
        show some k = some (2 * (k / 2))
        congr 1
        omega
      have hstep : pairIndices w (k :: arrived) = pairIndices (.t1 (k / 2)) arrived := by
        cases w with
        | nothing => exact pairIndices_nothing_even heven
        | t1 f => exact pairIndices_t1_even heven
        | t0 g => exact hw.elim
      rw [hstep, ih hnext hnextPrev hinc htail]
      refine if_congr ?_ rfl rfl
      have hne : 2 * g + 1 ≠ k := by omega
      simp only [List.mem_cons, Option.mem_def, Option.some.injEq, hne, false_or]
      refine and_congr_left fun hmem => ?_
      -- the waiting image of threshold 1 is given up: that of threshold 0 does not come any more
      have hlost : prev ≠ some (2 * g) := by
        intro hp
        have := hprev (2 * g) hp k (List.mem_cons_self ..)
        have := hk (2 * g + 1) hmem
        omega
      simp [hlost, eq_comm]
    · cases w with
      | nothing =>
        have hrest : ∀ m ∈ arrived, m % 2 = 1 := by
          rcases hhead hodd with hp | ⟨-, hrest⟩
          · have := hw (k - 1) hp
            omega
          · exact hrest
        rw [pairIndices_nothing_odd hodd, pairIndices_t0_of_odd hrest, List.count_nil, if_neg]
        rintro ⟨hmem | hmem, -⟩
        · have := hw (2 * g) hmem
          omega
        · rcases List.mem_cons.mp hmem with rfl | hmem
          · omega
          · have := hrest (2 * g) hmem
            omega
      | t1 f =>
        have hwf : prev = some (2 * f) := hw
        have hkf : k = 2 * f + 1 := by
          rcases hhead hodd with hp | ⟨hp, -⟩
          · have := Option.some.inj (hwf.symm.trans hp)
            omega
          · have := hp (2 * f) hwf
            omega
        have hnext : Waits .nothing (some k) := by
          intro j hj
          cases hj
          exact hodd
        have hhalf : k / 2 = f := by omega
        rw [pairIndices_t1_odd hodd, hhalf, List.count_cons, ih hnext hnextPrev hinc htail]
        by_cases hgf : g = f
        · subst hgf
          have hnot : 2 * g + 1 ∉ arrived := by
            intro hmem
            have := hk _ hmem
            omega
          simp [hnot, hwf, hkf]
        · have hne : 2 * g + 1 ≠ k := by omega
          have hne' : 2 * g ≠ k := by omega
          have hfg : f ≠ g := Ne.symm hgf
          have hwait : 2 * f ≠ 2 * g := by omega
          simp [hwf, hne, hne', hne'.symm, hfg, hwait]
      | t0 g => exact hw.elim

/-! ## The driver pairs by message numbers -/

theorem toInt32_sub (a b : ℤ) : toInt32 (toInt32 a - toInt32 b) = toInt32 (a - b) := by
  unfold toInt32
  omega

theorem diffPixel_eq_difference (clipDiff : Bool) (t0 t1 : ℕ) :
    diffPixel clipDiff t0 t1 = TriggerStream.difference clipDiff t0 t1 := by
  unfold diffPixel TriggerStream.difference
  rw [toInt32_sub]
  cases clipDiff
  · rfl
  · show (if toInt32 ((t0 : ℤ) - t1) > 0 then toInt32 ((t0 : ℤ) - t1) else 0) =
      max 0 (toInt32 ((t0 : ℤ) - t1))
    split_ifs <;> omega

namespace TriggerStream

variable (stream : TriggerStream)

theorem message_even {k : ℕ} (h : k % 2 = 0) : stream.message k = stream.t1 (k / 2) := if_pos h

theorem message_odd {k : ℕ} (h : k % 2 = 1) : stream.message k = stream.t0 (k / 2) :=
  if_neg (by omega)

theorem number_le_succ (k : ℕ) : (stream.message k).uniqueId ≤ (stream.message (k + 1)).uniqueId := by
  rcases Nat.mod_two_eq_zero_or_one k with heven | hodd
  · have hhalf : (k + 1) / 2 = k / 2 := by omega
    rw [stream.message_even heven, stream.message_odd (by omega), hhalf]
    exact stream.number_le _
  · have hhalf : (k + 1) / 2 = k / 2 + 1 := by omega
    rw [stream.message_odd hodd, stream.message_even (by omega), hhalf]
    exact (stream.number_lt _).le

theorem number_mono {k m : ℕ} (h : k ≤ m) : (stream.message k).uniqueId ≤ (stream.message m).uniqueId :=
  monotone_nat_of_le_succ stream.number_le_succ h

theorem number_t0_lt {f g : ℕ} (h : f < g) : (stream.t0 f).uniqueId < (stream.t0 g).uniqueId := by
  have hstep : ∀ f, (stream.t0 f).uniqueId < (stream.t0 (f + 1)).uniqueId := fun f =>
    (stream.number_lt f).trans_le (stream.number_le (f + 1))
  exact strictMono_nat_of_lt_succ hstep h

theorem number_t1_lt {f g : ℕ} (h : f < g) : (stream.t1 f).uniqueId < (stream.t1 g).uniqueId := by
  have hstep : ∀ f, (stream.t1 f).uniqueId < (stream.t1 (f + 1)).uniqueId := fun f =>
    (stream.number_le f).trans_lt (stream.number_lt f)
  exact strictMono_nat_of_lt_succ hstep h

theorem t0_injective : Function.Injective stream.t0 := by
  have hmono : StrictMono fun f => (stream.t0 f).uniqueId := fun _ _ h => stream.number_t0_lt h
  intro f g h
  exact hmono.injective (congrArg Image.uniqueId h)

theorem t1_injective : Function.Injective stream.t1 := by
  have hmono : StrictMono fun f => (stream.t1 f).uniqueId := fun _ _ h => stream.number_t1_lt h
  intro f g h
  exact hmono.injective (congrArg Image.uniqueId h)

end TriggerStream

/-- Both thresholds are counted, and the arrays for the differences can be allocated. -/
def DiffSettings.On (settings : DiffSettings) : Prop := settings.bothCounters = true ∧ settings.alloc = true

/-- The members after an image of threshold 1 whose number is not behind. -/
theorem PairMembers.see_t1 {m : PairMembers} {frame_number : ℤ} (h : m.lastSeenFrameForPair ≤ frame_number) :
    m.see frame_number 1 =
      if m.t0OrphanForDiff then
        ({ m with lastSeenFrameForPair := frame_number, t0OrphanForDiff := false }, true)
      else ({ m with lastSeenFrameForPair := frame_number, t1ReadyForDiff := true }, false) := by
  have hcount : ¬(m.lastSeenFrameForPair ≥ 0 ∧ frame_number + 10 < m.lastSeenFrameForPair) := by omega
  unfold PairMembers.see
  simp only [if_neg hcount]
  rfl

theorem PairMembers.see_t0 {m : PairMembers} {frame_number : ℤ} (h : m.lastSeenFrameForPair ≤ frame_number) :
    m.see frame_number 0 =
      if m.t1ReadyForDiff then
        ({ m with lastSeenFrameForPair := frame_number, t1ReadyForDiff := false }, true)
      else ({ m with lastSeenFrameForPair := frame_number, t0OrphanForDiff := true }, false) := by
  have hcount : ¬(m.lastSeenFrameForPair ≥ 0 ∧ frame_number + 10 < m.lastSeenFrameForPair) := by omega
  unfold PairMembers.see
  simp only [if_neg hcount]
  rfl

/-- What the flags say, and the array that waits. -/
def WaitsAt (stream : TriggerStream) : Waiting → Pairing → Prop
  | .nothing, s => s.t1ReadyForDiff = false ∧ s.t0OrphanForDiff = false
  | .t1 f, s => s.t1ReadyForDiff = true ∧ s.t0OrphanForDiff = false ∧ s.pT1 = some (stream.t1 f)
  | .t0 g, s =>
    s.t1ReadyForDiff = false ∧ s.t0OrphanForDiff = true ∧ s.pT0 = some (stream.t0 g) ∧
      s.lastDiffT0Frame < (stream.t0 g).uniqueId

/-- The state when messages from `n` on are still to come. -/
structure FollowsIndices (stream : TriggerStream) (n : ℕ) (w : Waiting) (s : Pairing) : Prop where
  waits : WaitsAt stream w s
  waits_lt : ∀ g, w = .t0 g → 2 * g + 1 < n
  lastSeen_le : ∀ k, n ≤ k → s.lastSeenFrameForPair ≤ (stream.message k).uniqueId
  lastDiff_lt : ∀ g, n ≤ 2 * g + 1 → s.lastDiffT0Frame < (stream.t0 g).uniqueId

section Follows

variable {stream : TriggerStream} {settings : DiffSettings} {s : Pairing} {w : Waiting} {n k f g : ℕ}

theorem emit_of_arrays (hon : settings.On) (h0 : s.pT0 = some (stream.t0 g)) (h1 : s.pT1 = some (stream.t1 f))
    (hlast : s.lastDiffT0Frame < (stream.t0 g).uniqueId) :
    emitPreviewThresholdDiff settings s =
      some (thresholdDiff settings.clipDiff (stream.t0 g) (stream.t1 f)) := by
  have hnew : (stream.t0 g).uniqueId ≠ s.lastDiffT0Frame := hlast.ne'
  obtain ⟨hboth, halloc⟩ := hon
  simp [emitPreviewThresholdDiff, h0, h1, hboth, halloc, hnew, stream.width_eq g f, stream.height_eq g f,
    stream.dataType_eq g f]

/-- The image of threshold 1 takes its address. -/
theorem put_t1 : s.put (stream.t1 f) = { s with pT1 := some (stream.t1 f) } := if_pos (stream.id_t1 f)

theorem put_t0 : s.put (stream.t0 g) = { s with pT0 := some (stream.t0 g) } := by
  refine if_neg ?_
  rw [stream.id_t0 g]
  decide

/-- What is still to come stays ahead of the numbers in the state. -/
theorem FollowsIndices.of_waits {w' : Waiting} {s' : Pairing} (h : FollowsIndices stream n w s) (hk : n ≤ k)
    (hwaits : WaitsAt stream w' s') (hlt : ∀ g, w' = .t0 g → 2 * g + 1 ≤ k)
    (hseen : s'.lastSeenFrameForPair = (stream.message k).uniqueId)
    (hlast : s'.lastDiffT0Frame = s.lastDiffT0Frame ∨
      ∃ g, 2 * g + 1 ≤ k ∧ s'.lastDiffT0Frame = (stream.t0 g).uniqueId) :
    FollowsIndices stream (k + 1) w' s' where
  waits := hwaits
  waits_lt := fun g hg => Nat.lt_succ_of_le (hlt g hg)
  lastSeen_le := by
    intro m hm
    rw [hseen]
    exact stream.number_mono (by omega)
  lastDiff_lt := by
    intro g' hg'
    rcases hlast with heq | ⟨g, hg, heq⟩
    · rw [heq]
      exact h.lastDiff_lt g' (by omega)
    · rw [heq]
      exact stream.number_t0_lt (by omega)

theorem pairImage_follows_t1 (hon : settings.On) (h : FollowsIndices stream n w s) (hk : n ≤ k) (heven : k % 2 = 0) :
    FollowsIndices stream (k + 1) (pairIndex w k).1 (pairImage settings s (stream.message k)).1 ∧
      (pairImage settings s (stream.message k)).2 = (pairIndex w k).2.map fun p =>
        thresholdDiff settings.clipDiff (stream.t0 p.1) (stream.t1 p.2) := by
  have hseen := h.lastSeen_le k hk
  have hwaits := h.waits
  have hmessage := stream.message_even heven
  rw [hmessage] at hseen ⊢
  -- the image of threshold 1 waits, unless one of threshold 0 has been waiting for it
  have hkept : s.t0OrphanForDiff = false →
      pairImage settings s (stream.t1 (k / 2)) =
        ({ s with
           pT1 := some (stream.t1 (k / 2)), lastSeenFrameForPair := (stream.t1 (k / 2)).uniqueId
           t1ReadyForDiff := true }, none) := by
    intro horphan
    simp [pairImage, put_t1, stream.id_t1, PairMembers.see_t1 hseen, horphan]
  cases w with
  | nothing =>
    obtain ⟨-, horphan⟩ := hwaits
    have hindex : pairIndex .nothing k = (.t1 (k / 2), none) := if_pos heven
    rw [hkept horphan, hindex]
    exact ⟨h.of_waits hk ⟨rfl, horphan, rfl⟩ (by simp) (by rw [hmessage]) (Or.inl rfl), rfl⟩
  | t1 f =>
    obtain ⟨-, horphan, -⟩ := hwaits
    have hindex : pairIndex (.t1 f) k = (.t1 (k / 2), none) := if_pos heven
    rw [hkept horphan, hindex]
    exact ⟨h.of_waits hk ⟨rfl, horphan, rfl⟩ (by simp) (by rw [hmessage]) (Or.inl rfl), rfl⟩
  | t0 g =>
    obtain ⟨hready, horphan, h0, hlast⟩ := hwaits
    have hg := h.waits_lt g rfl
    have hindex : pairIndex (.t0 g) k = (.nothing, some (g, k / 2)) := if_pos heven
    have hemit := emit_of_arrays (s := { s with
        pT1 := some (stream.t1 (k / 2)), lastSeenFrameForPair := (stream.t1 (k / 2)).uniqueId
        t0OrphanForDiff := false }) hon h0 rfl hlast
    have himage : pairImage settings s (stream.t1 (k / 2)) =
        ({ s with
           pT1 := some (stream.t1 (k / 2)), lastSeenFrameForPair := (stream.t1 (k / 2)).uniqueId
           lastDiffT0Frame := (stream.t0 g).uniqueId, t0OrphanForDiff := false },
         some (thresholdDiff settings.clipDiff (stream.t0 g) (stream.t1 (k / 2)))) := by
      simp [pairImage, put_t1, stream.id_t1, PairMembers.see_t1 hseen, horphan, hemit, Pairing.emitted, thresholdDiff]
    rw [himage, hindex]
    refine ⟨h.of_waits hk ⟨hready, rfl⟩ (by simp) (by rw [hmessage]) (Or.inr ⟨g, ?_, rfl⟩), rfl⟩
    omega

theorem pairImage_follows_t0 (hon : settings.On) (h : FollowsIndices stream n w s) (hk : n ≤ k) (hodd : k % 2 = 1) :
    FollowsIndices stream (k + 1) (pairIndex w k).1 (pairImage settings s (stream.message k)).1 ∧
      (pairImage settings s (stream.message k)).2 = (pairIndex w k).2.map fun p =>
        thresholdDiff settings.clipDiff (stream.t0 p.1) (stream.t1 p.2) := by
  have hseen := h.lastSeen_le k hk
  have hwaits := h.waits
  have hmessage := stream.message_odd hodd
  rw [hmessage] at hseen ⊢
  have hnew : s.lastDiffT0Frame < (stream.t0 (k / 2)).uniqueId := h.lastDiff_lt (k / 2) (by omega)
  have hkept : s.t1ReadyForDiff = false →
      pairImage settings s (stream.t0 (k / 2)) =
        ({ s with
           pT0 := some (stream.t0 (k / 2)), lastSeenFrameForPair := (stream.t0 (k / 2)).uniqueId
           t0OrphanForDiff := true }, none) := by
    intro hready
    simp [pairImage, put_t0, stream.id_t0, PairMembers.see_t0 hseen, hready]
  have hlt : ∀ g, Waiting.t0 (k / 2) = .t0 g → 2 * g + 1 ≤ k := by
    rintro g ⟨⟩
    omega
  cases w with
  | nothing =>
    obtain ⟨hready, -⟩ := hwaits
    have hindex : pairIndex .nothing k = (.t0 (k / 2), none) := if_neg (by omega)
    rw [hkept hready, hindex]
    exact ⟨h.of_waits hk ⟨hready, rfl, rfl, hnew⟩ hlt (by rw [hmessage]) (Or.inl rfl), rfl⟩
  | t0 g =>
    obtain ⟨hready, -⟩ := hwaits
    have hindex : pairIndex (.t0 g) k = (.t0 (k / 2), none) := if_neg (by omega)
    rw [hkept hready, hindex]
    exact ⟨h.of_waits hk ⟨hready, rfl, rfl, hnew⟩ hlt (by rw [hmessage]) (Or.inl rfl), rfl⟩
  | t1 f =>
    obtain ⟨hready, horphan, h1⟩ := hwaits
    have hindex : pairIndex (.t1 f) k = (.nothing, some (k / 2, f)) := if_neg (by omega)
    have hemit := emit_of_arrays (s := { s with
        pT0 := some (stream.t0 (k / 2)), lastSeenFrameForPair := (stream.t0 (k / 2)).uniqueId
        t1ReadyForDiff := false }) hon rfl h1 hnew
    have himage : pairImage settings s (stream.t0 (k / 2)) =
        ({ s with
           pT0 := some (stream.t0 (k / 2)), lastSeenFrameForPair := (stream.t0 (k / 2)).uniqueId
           lastDiffT0Frame := (stream.t0 (k / 2)).uniqueId, t1ReadyForDiff := false },
         some (thresholdDiff settings.clipDiff (stream.t0 (k / 2)) (stream.t1 f))) := by
      simp [pairImage, put_t0, stream.id_t0, PairMembers.see_t0 hseen, hready, hemit, Pairing.emitted, thresholdDiff]
    rw [himage, hindex]
    refine ⟨h.of_waits hk ⟨rfl, horphan⟩ (by simp) (by rw [hmessage]) (Or.inr ⟨k / 2, ?_, rfl⟩), rfl⟩
    omega

/-- One image: what waits then, and the difference, are those of its message number. -/
theorem pairImage_follows (hon : settings.On) (h : FollowsIndices stream n w s) (hk : n ≤ k) :
    FollowsIndices stream (k + 1) (pairIndex w k).1 (pairImage settings s (stream.message k)).1 ∧
      (pairImage settings s (stream.message k)).2 = (pairIndex w k).2.map fun p =>
        thresholdDiff settings.clipDiff (stream.t0 p.1) (stream.t1 p.2) := by
  rcases Nat.mod_two_eq_zero_or_one k with heven | hodd
  · exact pairImage_follows_t1 hon h hk heven
  · exact pairImage_follows_t0 hon h hk hodd

end Follows

/-- A difference of the images of two triggers. -/
def TriggerStream.OfPair (stream : TriggerStream) (d : ThresholdDiff) (p : ℕ × ℕ) : Prop :=
  ∃ clipDiff, d = thresholdDiff clipDiff (stream.t0 p.1) (stream.t1 p.2)

theorem follows_start (stream : TriggerStream) (pT0 pT1 : Option Image) :
    FollowsIndices stream 0 .nothing (Pairing.start pT0 pT1) where
  waits := ⟨rfl, rfl⟩
  waits_lt := by simp
  lastSeen_le := by
    intro k _
    have hfirst : (stream.message 0).uniqueId ≤ (stream.message k).uniqueId := stream.number_mono (Nat.zero_le k)
    have hnonneg : 0 ≤ (stream.message 0).uniqueId := stream.number_nonneg
    show (-1 : ℤ) ≤ (stream.message k).uniqueId
    omega
  lastDiff_lt := by
    intro g _
    have hfirst : (stream.message 0).uniqueId ≤ (stream.message (2 * g + 1)).uniqueId :=
      stream.number_mono (Nat.zero_le _)
    have hnonneg : 0 ≤ (stream.message 0).uniqueId := stream.number_nonneg
    have hhalf : (2 * g + 1) / 2 = g := by omega
    rw [stream.message_odd (k := 2 * g + 1) (by omega), hhalf] at hfirst
    show (-1 : ℤ) < (stream.t0 g).uniqueId
    omega

/-- The differences of a run are those of the pairs of message numbers. -/
theorem pairImages_follows {stream : TriggerStream} {n : ℕ} {w : Waiting} {s : Pairing}
    {events : List (DiffSettings × ℕ)} (hon : ∀ e ∈ events, e.1.On) (hn : ∀ k ∈ events.map Prod.snd, n ≤ k)
    (hinc : (events.map Prod.snd).Pairwise (· < ·)) (h : FollowsIndices stream n w s) :
    List.Forall₂ stream.OfPair (pairImages s (stream.arrivals events))
      (pairIndices w (events.map Prod.snd)) := by
  induction events generalizing n w s with
  | nil => exact List.Forall₂.nil
  | cons e events ih =>
    obtain ⟨settings, k⟩ := e
    obtain ⟨hk, hinc⟩ := List.pairwise_cons.mp hinc
    have hsettings : settings.On := hon (settings, k) (List.mem_cons_self ..)
    obtain ⟨hnext, hdiff⟩ := pairImage_follows hsettings h (hn k (List.mem_cons_self ..))
    have hrest := ih (fun e he => hon e (List.mem_cons_of_mem _ he)) hk hinc hnext
    show List.Forall₂ stream.OfPair
      ((pairImage settings s (stream.message k)).2.toList ++
        pairImages (pairImage settings s (stream.message k)).1 (stream.arrivals events))
      ((pairIndex w k).2.toList ++ pairIndices (pairIndex w k).1 (events.map Prod.snd))
    rw [hdiff]
    cases (pairIndex w k).2 with
    | none => exact hrest
    | some p => exact List.Forall₂.cons ⟨settings.clipDiff, rfl⟩ hrest

/-! ## The result -/

section Result

variable {stream : TriggerStream}

theorem ofTrigger_iff {d : ThresholdDiff} {p : ℕ × ℕ} (h : stream.OfPair d p) (f : ℕ) :
    stream.OfTrigger f d ↔ p = (f, f) := by
  obtain ⟨clipDiff, rfl⟩ := h
  obtain ⟨g, f'⟩ := p
  constructor
  · rintro ⟨h0, h1, -⟩
    have hg : g = f := stream.t0_injective h0
    have hf' : f' = f := stream.t1_injective h1
    rw [hg, hf']
  · rintro ⟨⟩
    have hpixel : diffPixel clipDiff = TriggerStream.difference clipDiff := by
      funext t0 t1
      exact diffPixel_eq_difference clipDiff t0 t1
    refine ⟨rfl, rfl, ?_⟩
    show List.zipWith (diffPixel clipDiff) _ _ = List.zipWith (TriggerStream.difference clipDiff) _ _
    rw [hpixel]

theorem forall_ofTrigger_iff {diffs : List ThresholdDiff} {pairs : List (ℕ × ℕ)}
    (h : List.Forall₂ stream.OfPair diffs pairs) :
    (∀ d ∈ diffs, ∃ f, stream.OfTrigger f d) ↔ ∀ p ∈ pairs, p.1 = p.2 := by
  induction h with
  | nil => simp
  | @cons d p diffs pairs hd hrest ih =>
    rw [List.forall_mem_cons, List.forall_mem_cons, ih]
    refine and_congr_left fun _ => ?_
    constructor
    · rintro ⟨f, hf⟩
      rw [(ofTrigger_iff hd f).mp hf]
    · intro hp
      refine ⟨p.1, (ofTrigger_iff hd p.1).mpr ?_⟩
      rw [Prod.ext_iff]
      exact ⟨rfl, hp.symm⟩

theorem countP_ofTrigger {diffs : List ThresholdDiff} {pairs : List (ℕ × ℕ)}
    (h : List.Forall₂ stream.OfPair diffs pairs) (f : ℕ) :
    diffs.countP (fun d => stream.OfTrigger f d) = pairs.count (f, f) := by
  induction h with
  | nil => rfl
  | @cons d p diffs pairs hd hrest ih =>
    rw [List.countP_cons, List.count_cons, ih]
    simp only [ofTrigger_iff hd f, beq_iff_eq, decide_eq_true_eq]

/-- Every difference is of one trigger, and every trigger both of whose messages arrive gives one, exactly when
no image of threshold 0 is left over in front of one of threshold 1. -/
theorem pairedRight_iff_unorphaned (stream : TriggerStream) (pT0 pT1 : Option Image)
    (events : List (DiffSettings × ℕ)) (hon : ∀ e ∈ events, e.1.On)
    (hinc : (events.map Prod.snd).Pairwise (· < ·)) :
    stream.PairedRight (events.map Prod.snd)
        (pairImages (Pairing.start pT0 pT1) (stream.arrivals events)) ↔
      Unorphaned (events.map Prod.snd) := by
  have hpairs := pairImages_follows hon (fun k _ => Nat.zero_le k) hinc (follows_start stream pT0 pT1)
  have hwaits : Waits .nothing none := by
    intro j hj
    cases hj
  unfold TriggerStream.PairedRight
  rw [forall_ofTrigger_iff hpairs, pairIndices_right_iff hwaits hinc, unorphanedFrom_none]
  refine and_iff_left_of_imp fun hunorphaned => ?_
  intro f hf1 hf0
  rw [countP_ofTrigger hpairs, pairIndices_count hwaits (by simp) hinc ((unorphanedFrom_none _).mpr hunorphaned),
    if_pos ⟨Or.inr hf1, hf0⟩]

end Result

/-! ## Two runs -/

/-- Images of one pixel: 2 for threshold 1, 7 for threshold 0. Both of a trigger have its number. -/
def onePixelStream : TriggerStream where
  t1 := fun f =>
    { addr := 8, width := 1, height := 1, dataType := .uint16, uniqueId := f, thresholdId := 1, pixels := [2] }
  t0 := fun f =>
    { addr := 0, width := 1, height := 1, dataType := .uint16, uniqueId := f, thresholdId := 0, pixels := [7] }
  id_t1 := fun _ => rfl
  id_t0 := fun _ => rfl
  width_eq := fun _ _ => rfl
  height_eq := fun _ _ => rfl
  dataType_eq := fun _ _ => rfl
  number_nonneg := le_refl _
  number_le := fun _ => le_refl _
  number_lt := by
    intro f
    show (f : ℤ) < ((f + 1 : ℕ) : ℤ)
    omega

def bothOn : DiffSettings where
  bothCounters := true
  clipDiff := false
  alloc := true

/-- The second trigger loses its image of threshold 0. -/
theorem pairedRight_without_t0 :
    onePixelStream.PairedRight [0, 1, 2, 4, 5]
      (pairImages (Pairing.start none none)
        (onePixelStream.arrivals [(bothOn, 0), (bothOn, 1), (bothOn, 2), (bothOn, 4), (bothOn, 5)])) := by
  refine (pairedRight_iff_unorphaned onePixelStream none none
    [(bothOn, 0), (bothOn, 1), (bothOn, 2), (bothOn, 4), (bothOn, 5)] ?_ (by decide)).mpr ?_
  · intro e he
    have hsettings : e.1 = bothOn := by
      revert e
      simp
    rw [hsettings]
    exact ⟨rfl, rfl⟩
  · rw [← unorphanedFrom_none]
    simp [List.map, unorphanedFrom_cons, unorphanedFrom_nil]

/-- The second trigger loses its image of threshold 1: the difference `T0_1 - T1_2` is emitted. -/
theorem pairs_mixed_without_t1 :
    [0, 1, 3, 4].Pairwise (· < ·) ∧
      ¬ onePixelStream.PairedRight [0, 1, 3, 4]
        (pairImages (Pairing.start none none)
          (onePixelStream.arrivals [(bothOn, 0), (bothOn, 1), (bothOn, 3), (bothOn, 4)])) := by
  refine ⟨by decide, fun h => ?_⟩
  have hmem : thresholdDiff false (onePixelStream.t0 1) (onePixelStream.t1 2) ∈
      pairImages (Pairing.start none none)
        (onePixelStream.arrivals [(bothOn, 0), (bothOn, 1), (bothOn, 3), (bothOn, 4)]) :=
    List.mem_cons_of_mem _ (List.mem_cons_self ..)
  obtain ⟨f, h0, h1, -⟩ := h.1 _ hmem
  have hf0 : (1 : ℕ) = f := onePixelStream.t0_injective h0
  have hf1 : (2 : ℕ) = f := onePixelStream.t1_injective h1
  omega

end ADTimePix3.Stream
