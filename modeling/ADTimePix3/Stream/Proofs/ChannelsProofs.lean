import ADTimePix3.Stream.Channels
import ADTimePix3.Stream.Proofs.SocketsProofs

/-!
# One socket a channel

However the channels' functions interleave, a channel has at most one socket, which its client holds, and a channel
that says it is connected has one. When the channels are disconnected one after the other, as `shutdownPortDriver` does
after it has joined the workers, no socket of theirs is left and nobody else loses one.
-/

namespace ADTimePix3.Stream.Channels

open Acquire.Workers (Channel)
open Runs
open Sockets (Holder)

variable {s s' : State} {c : Channel} {e : Event} {i : ℕ}

/-! ## The invariant -/

/-- What the channel's functions have made of its client. -/
def Stands (ch : ChannelState) (clients : ℕ → Option Sockets.NetworkClient) : Prop :=
  match ch.pc, ch.client with
  | .idle, none | .create, none => ch.connected = false
  | .idle, some i => ∃ o, clients i = some o ∧ o.pc = .idle ∧ 0 ≤ o.socket_fd_
  | .reset _, some i | .drop, some i => ch.connected = false ∧ ∃ o, clients i = some o ∧ o.pc = .idle
  | .connecting, some i => ch.connected = false ∧ ∃ o, clients i = some o ∧ o.pc ≠ .idle
  | _, _ => False

structure Inv (s : State) : Prop where
  sockets : Sockets.Inv s.sockets
  stands : ∀ c, Stands (s.channels c) s.sockets.clients
  distinct : ∀ c c' i, (s.channels c).client = some i → (s.channels c').client = some i → c = c'
  owned : ∀ i o, s.sockets.clients i = some o → ∃ c, (s.channels c).client = some i
  fresh : ∀ i o, s.sockets.clients i = some o → i < s.fresh

theorem inv_init : Inv .init where
  sockets := Sockets.inv_init
  stands _ := rfl
  distinct c c' i h := by cases h
  owned i o h := by cases h
  fresh i o h := by cases h

/-- Where a channel stands depends on its own object only. -/
theorem Stands.congr {ch : ChannelState} {clients clients' : ℕ → Option Sockets.NetworkClient} (h : Stands ch clients)
    (heq : ∀ i, ch.client = some i → clients' i = clients i) : Stands ch clients' := by
  rcases ch with ⟨connected, _ | i, pc⟩
  · cases pc <;> exact h
  · have hi := heq i rfl
    cases pc <;> first | exact h | (unfold Stands at h ⊢; dsimp only at h ⊢; rw [hi]; exact h)

theorem Stands.exists_object {ch : ChannelState} {clients : ℕ → Option Sockets.NetworkClient} (h : Stands ch clients)
    (hi : ch.client = some i) : ∃ o, clients i = some o := by
  rcases ch with ⟨connected, client, pc⟩
  cases hi
  cases pc with
  | idle => exact ⟨_, h.choose_spec.1⟩
  | reset => exact ⟨_, h.2.choose_spec.1⟩
  | create => exact h.elim
  | connecting => exact ⟨_, h.2.choose_spec.1⟩
  | drop => exact ⟨_, h.2.choose_spec.1⟩

/-- The names of the channel's object before and after a step of the channel, which leaves all other objects as they
are. -/
theorem Inv.change (h : Inv s) {sockets : Sockets.State} {ch : ChannelState} {fresh : ℕ}
    (hsockets : Sockets.Inv sockets)
    (hothers : ∀ i, (s.channels c).client ≠ some i → ch.client ≠ some i → sockets.clients i = s.sockets.clients i)
    (hstands : Stands ch sockets.clients)
    (hgone : ∀ i, (s.channels c).client = some i → ch.client ≠ some i → sockets.clients i = none)
    (hnew : ∀ i, ch.client = some i → (s.channels c).client = some i ∨ s.fresh ≤ i)
    (hfresh : s.fresh ≤ fresh) (hlt : ∀ i, ch.client = some i → i < fresh) :
    Inv ({ s with sockets := sockets, fresh := fresh }.set c ch) := by
  have hself : ({ s with sockets := sockets, fresh := fresh }.set c ch).channels c = ch := Function.update_self ..
  have hother : ∀ c', c' ≠ c →
      ({ s with sockets := sockets, fresh := fresh }.set c ch).channels c' = s.channels c' :=
    fun c' hc' => Function.update_of_ne hc' ..
  -- no other channel has the object
  have hapart : ∀ c' i, c' ≠ c → (s.channels c').client = some i →
      (s.channels c).client ≠ some i ∧ ch.client ≠ some i := by
    intro c' i hc' hi
    have hold : (s.channels c).client ≠ some i := fun hi' => hc' (h.distinct c' c i hi hi')
    refine ⟨hold, fun hi' => ?_⟩
    rcases hnew i hi' with hi'' | hge
    · exact hold hi''
    · obtain ⟨o, ho⟩ := (h.stands c').exists_object hi
      have := h.fresh i o ho
      omega
  refine ⟨hsockets, fun c' => ?_, fun c₁ c₂ i h₁ h₂ => ?_, fun i o ho => ?_, fun i o ho => ?_⟩
  · by_cases hc' : c' = c
    · rw [hc', hself]
      exact hstands
    · rw [hother c' hc']
      refine (h.stands c').congr fun i hi => ?_
      obtain ⟨hold, hnow⟩ := hapart c' i hc' hi
      exact hothers i hold hnow
  · by_cases hc₁ : c₁ = c
    · by_cases hc₂ : c₂ = c
      · rw [hc₁, hc₂]
      · rw [hc₁, hself] at h₁
        rw [hother c₂ hc₂] at h₂
        exact absurd h₁ (hapart c₂ i hc₂ h₂).2
    · rw [hother c₁ hc₁] at h₁
      by_cases hc₂ : c₂ = c
      · rw [hc₂, hself] at h₂
        exact absurd h₂ (hapart c₁ i hc₁ h₁).2
      · rw [hother c₂ hc₂] at h₂
        exact h.distinct c₁ c₂ i h₁ h₂
  · by_cases hnow : ch.client = some i
    · exact ⟨c, by rw [hself]; exact hnow⟩
    · have hold : (s.channels c).client ≠ some i := by
        intro hold
        have hnone := hgone i hold hnow
        rw [show sockets.clients i = some o from ho] at hnone
        cases hnone
      have ho' : s.sockets.clients i = some o := (hothers i hold hnow).symm.trans ho
      obtain ⟨c', hc'⟩ := h.owned i o ho'
      have hne : c' ≠ c := by
        rintro rfl
        exact hold hc'
      exact ⟨c', by rw [hother c' hne]; exact hc'⟩
  · by_cases hnow : ch.client = some i
    · exact hlt i hnow
    · by_cases hold : (s.channels c).client = some i
      · have hnone := hgone i hold hnow
        rw [show sockets.clients i = some o from ho] at hnone
        cases hnone
      · have := h.fresh i o ((hothers i hold hnow).symm.trans ho)
        show i < fresh
        omega

/-- A step of the channel leaves the other channels, the probes and what others hold. -/
structure Frame (s s' : State) (c : Channel) : Prop where
  channels : ∀ c', c' ≠ c → s'.channels c' = s.channels c'
  probes : s'.sockets.probes = s.sockets.probes
  others : ∀ fd, s'.sockets.table.holder fd = some .other ↔ s.sockets.table.holder fd = some .other

theorem Frame.of_sockets {sockets : Sockets.State} {ch : ChannelState} {fresh : ℕ}
    (h : Sockets.Frame s.sockets sockets i) :
    Frame s ({ s with sockets := sockets, fresh := fresh }.set c ch) c :=
  ⟨fun _ hc' => Function.update_of_ne hc' .., h.probes, h.others⟩

/-! ## The functions -/

/-- An idle channel's client, when there is one. -/
theorem Inv.idle_client (h : Inv s) (hidle : (s.channels c).pc = .idle) (hi : (s.channels c).client = some i) :
    ∃ o, s.sockets.clients i = some o ∧ o.pc = .idle ∧ 0 ≤ o.socket_fd_ := by
  have hstands := h.stands c
  unfold Stands at hstands
  rw [hidle, hi] at hstands
  exact hstands

theorem disconnect_spec_some (h : Inv s) (hidle : (s.channels c).pc = .idle) (hi : (s.channels c).client = some i)
    (connect : Bool) : ∃ s', disconnect s c connect = some s' ∧ Inv s' ∧ Frame s s' c ∧
      s'.channels c = ⟨false, some i, .reset connect⟩ := by
  obtain ⟨o, ho, hpc, -⟩ := h.idle_client hidle hi
  obtain ⟨sockets, hstep, hsockets⟩ := Sockets.step_of_allowed (e := .disconnect i) h.sockets
    (Sockets.idle_isSome.mpr ⟨o, ho, hpc⟩)
  obtain ⟨hframe, hobject⟩ := Sockets.disconnect_frame h.sockets hstep
  refine ⟨_, by simp [disconnect, hi, hstep]; rfl, ?_, Frame.of_sockets hframe, Function.update_self ..⟩
  refine h.change hsockets (fun k hk _ => hframe.clients k ?_) ⟨rfl, _, hobject, rfl⟩ ?_ ?_ (Nat.le_refl _) ?_
  · rintro rfl
    exact hk hi
  · intro k hk hk'
    rw [hi] at hk
    exact absurd hk hk'
  · intro k hk
    exact Or.inl (hi.trans hk)
  · intro k hk
    cases hk
    exact h.fresh _ o ho

theorem disconnect_spec_none (h : Inv s) (hi : (s.channels c).client = none) (connect : Bool) :
    ∃ s', disconnect s c connect = some s' ∧ Inv s' ∧ Frame s s' c ∧
      s'.channels c = ⟨false, none, if connect then .create else .idle⟩ := by
  refine ⟨s.set c ⟨false, none, if connect then .create else .idle⟩, by simp [disconnect, hi], ?_,
    ⟨fun _ hc' => Function.update_of_ne hc' .., rfl, fun _ => Iff.rfl⟩, Function.update_self ..⟩
  refine h.change h.sockets (fun _ _ _ => rfl) ?_ ?_ ?_ (Nat.le_refl _) ?_
  · cases connect <;> rfl
  · intro k hk
    rw [hi] at hk
    cases hk
  · intro k hk
    cases hk
  · intro k hk
    cases hk

/-- `reset()` finds a client that is in no call. -/
theorem reset_spec (h : Inv s) (hi : (s.channels c).client = some i)
    (ho : ∃ o, s.sockets.clients i = some o ∧ o.pc = .idle) (hconn : (s.channels c).connected = false) {p : Pc}
    (hp : p = .idle ∨ p = .create) :
    ∃ s', reset s c p = some s' ∧ Inv s' ∧ Frame s s' c ∧ s'.channels c = ⟨false, none, p⟩ := by
  obtain ⟨sockets, hstep, hsockets⟩ := Sockets.step_of_allowed (e := .destroy i) h.sockets (Sockets.idle_isSome.mpr ho)
  obtain ⟨hframe, hobject⟩ := Sockets.destroy_frame h.sockets hstep
  refine ⟨_, by simp [reset, hi, hstep]; rfl, ?_, Frame.of_sockets hframe, ?_⟩
  · refine h.change hsockets (fun k hk _ => hframe.clients k ?_) ?_ ?_ ?_ (Nat.le_refl _) ?_
    · rintro rfl
      exact hk hi
    · rcases hp with rfl | rfl <;> exact hconn
    · intro k hk _
      rw [hi] at hk
      cases hk
      exact hobject
    · intro k hk
      cases hk
    · intro k hk
      cases hk
  · rw [← hconn]
    exact Function.update_self ..

theorem create_spec (h : Inv s) (hi : (s.channels c).client = none) (hconn : (s.channels c).connected = false) :
    ∃ s', create s c = some s' ∧ Inv s' ∧ Frame s s' c := by
  have hfree : s.sockets.clients s.fresh = none := by
    cases ho : s.sockets.clients s.fresh with
    | none => rfl
    | some o => exact absurd (h.fresh _ o ho) (Nat.lt_irrefl _)
  obtain ⟨made, hstep, hmade⟩ := Sockets.step_of_allowed (e := .construct s.fresh) h.sockets hfree
  obtain ⟨hframe, hobject⟩ := Sockets.construct_frame hstep
  obtain ⟨sockets, hstep', hsockets⟩ := Sockets.step_of_allowed (e := .connect s.fresh) hmade
    (Sockets.idle_isSome.mpr ⟨_, hobject, rfl⟩)
  obtain ⟨hframe', hobject'⟩ := Sockets.connect_frame hmade hstep'
  have hboth : Sockets.Frame s.sockets sockets s.fresh :=
    ⟨fun k hk => (hframe'.clients k hk).trans (hframe.clients k hk), hframe'.probes.trans hframe.probes,
      fun fd => (hframe'.others fd).trans (hframe.others fd)⟩
  refine ⟨_, by simp [create, hstep, hstep']; rfl, ?_, Frame.of_sockets hboth⟩
  refine h.change hsockets (fun k _ hk => hboth.clients k ?_) ⟨hconn, _, hobject', by simp⟩ ?_ ?_ (Nat.le_succ _) ?_
  · rintro rfl
    exact hk rfl
  · intro k hk
    rw [hi] at hk
    cases hk
  · intro k hk
    cases hk
    exact Or.inr (Nat.le_refl _)
  · intro k hk
    cases hk
    exact Nat.lt_succ_self _

theorem goOn_spec (h : Inv s) (hi : (s.channels c).client = some i) (hpc : (s.channels c).pc = .connecting)
    (hconn : (s.channels c).connected = false) (ho : ∃ o, s.sockets.clients i = some o ∧ o.pc ≠ .idle) (ok : Bool) :
    ∃ s', goOn s c ok = some s' ∧ Inv s' ∧ Frame s s' c := by
  obtain ⟨sockets, hstep, hsockets⟩ := Sockets.step_of_allowed (e := .advance i ok) h.sockets ho
  obtain ⟨hframe, o, hobject⟩ := Sockets.advance_frame h.sockets hstep
  have hlt : i < s.fresh := h.fresh i _ ho.choose_spec.1
  have hchange : ∀ ch : ChannelState, ch.client = some i → Stands ch sockets.clients →
      Inv ({ s with sockets := sockets }.set c ch) := by
    intro ch hclient hstands
    refine h.change hsockets (fun k hk _ => hframe.clients k ?_) hstands ?_ ?_ (Nat.le_refl _) ?_
    · rintro rfl
      exact hk hi
    · intro k hk hk'
      rw [hi, ← hclient] at hk
      exact absurd hk hk'
    · intro k hk
      exact Or.inl (hi.trans (hclient.symm.trans hk))
    · intro k hk
      rw [hclient] at hk
      cases hk
      exact hlt
  by_cases hidle : o.pc = .idle
  · by_cases hconnected : o.connected_ = true
    · refine ⟨_, by simp [goOn, hi, hstep, hobject, hidle, hconnected]; rfl, hchange _ rfl ?_, Frame.of_sockets hframe⟩
      exact ⟨o, hobject, hidle, ((hsockets.sound i o hobject).connected hconnected).1⟩
    · refine ⟨_, by simp [goOn, hi, hstep, hobject, hidle, hconnected]; rfl, hchange _ rfl ?_, Frame.of_sockets hframe⟩
      exact ⟨hconn, o, hobject, hidle⟩
  · have hsame : ({ s with sockets := sockets } : State) = { s with sockets := sockets }.set c (s.channels c) := by
      unfold State.set
      rw [Function.update_eq_self]
    refine ⟨{ s with sockets := sockets }.set c (s.channels c), ?_, hchange _ hi ?_, Frame.of_sockets hframe⟩
    · rw [← hsame]
      simp [goOn, hi, hstep, hobject, hidle]
    · unfold Stands
      rw [hpc, hi]
      exact ⟨hconn, o, hobject, hidle⟩

/-! ## The steps -/

/-- A step that is no channel's. -/
theorem Inv.elsewhere (h : Inv s) {e : Sockets.Event} (hallowed : Sockets.Allowed s.sockets e)
    (hclients : ∀ sockets, Sockets.step s.sockets e = some sockets → sockets.clients = s.sockets.clients) :
    ∃ s', (Sockets.step s.sockets e).map (fun sockets => { s with sockets := sockets }) = some s' ∧ Inv s' := by
  obtain ⟨sockets, hstep, hsockets⟩ := Sockets.step_of_allowed h.sockets hallowed
  have hsame := hclients sockets hstep
  refine ⟨{ s with sockets := sockets }, by rw [hstep]; rfl,
    hsockets, fun c => ?_, h.distinct, fun i o ho => ?_, fun i o ho => ?_⟩
  · show Stands (s.channels c) sockets.clients
    rw [hsame]
    exact h.stands c
  · exact h.owned i o (hsame ▸ ho)
  · exact h.fresh i o (hsame ▸ ho)

/-- A channel's function in the middle goes on. -/
theorem next_spec (h : Inv s) (hbusy : (s.channels c).pc ≠ .idle) (ok : Bool) :
    ∃ s', step s (.next c ok) = some s' ∧ Inv s' ∧ Frame s s' c := by
  have hstands := h.stands c
  unfold Stands at hstands
  cases hpc : (s.channels c).pc with
  | idle => exact absurd hpc hbusy
  | reset connect =>
    simp only [step, hpc]
    rw [hpc] at hstands
    cases hi : (s.channels c).client with
    | none =>
      rw [hi] at hstands
      exact hstands.elim
    | some i =>
      rw [hi] at hstands
      obtain ⟨s', hreset, hinv, hframe, -⟩ := reset_spec h hi hstands.2 hstands.1
        (p := if connect then .create else .idle) (by cases connect <;> simp)
      exact ⟨s', hreset, hinv, hframe⟩
  | create =>
    simp only [step, hpc]
    rw [hpc] at hstands
    cases hi : (s.channels c).client with
    | none =>
      rw [hi] at hstands
      exact create_spec h hi hstands
    | some i =>
      rw [hi] at hstands
      exact hstands.elim
  | connecting =>
    simp only [step, hpc]
    rw [hpc] at hstands
    cases hi : (s.channels c).client with
    | none =>
      rw [hi] at hstands
      exact hstands.elim
    | some i =>
      rw [hi] at hstands
      exact goOn_spec h hi hpc hstands.1 hstands.2 ok
  | drop =>
    simp only [step, hpc]
    rw [hpc] at hstands
    cases hi : (s.channels c).client with
    | none =>
      rw [hi] at hstands
      exact hstands.elim
    | some i =>
      rw [hi] at hstands
      obtain ⟨s', hreset, hinv, hframe, -⟩ := reset_spec h hi hstands.2 hstands.1 (p := .idle) (Or.inl rfl)
      exact ⟨s', hreset, hinv, hframe⟩

theorem disconnect_spec (h : Inv s) (hidle : (s.channels c).pc = .idle) (connect : Bool) :
    ∃ s', disconnect s c connect = some s' ∧ Inv s' := by
  cases hi : (s.channels c).client with
  | none =>
    obtain ⟨s', hs', hinv, -⟩ := disconnect_spec_none h hi connect
    exact ⟨s', hs', hinv⟩
  | some i =>
    obtain ⟨s', hs', hinv, -⟩ := disconnect_spec_some h hidle hi connect
    exact ⟨s', hs', hinv⟩

theorem step_of_allowed (h : Inv s) (hallowed : Allowed s e) : ∃ s', step s e = some s' ∧ Inv s' := by
  cases e with
  | connect c endpoint =>
    simp only [step, if_pos (show (s.channels c).pc = .idle from hallowed)]
    cases endpoint with
    | false => exact ⟨s, rfl, h⟩
    | true => exact disconnect_spec h hallowed true
  | disconnect c =>
    simp only [step, if_pos (show (s.channels c).pc = .idle from hallowed)]
    exact disconnect_spec h hallowed false
  | receive c r =>
    simp only [step, if_pos (show (s.channels c).pc = .idle from hallowed)]
    cases hi : (s.channels c).client with
    | none => exact ⟨s, rfl, h⟩
    | some i =>
      obtain ⟨o, ho, hpc, hfd⟩ := h.idle_client hallowed hi
      obtain ⟨sockets, hstep, hsockets⟩ := Sockets.step_of_allowed (e := .receive i r) h.sockets
        (Sockets.idle_isSome.mpr ⟨o, ho, hpc⟩)
      obtain ⟨hframe, o', o'', ho', ho'', hpc'', hfd''⟩ := Sockets.receive_frame hstep
      rw [ho, Option.some.injEq] at ho'
      subst ho'
      have hsame : ({ s with sockets := sockets } : State) = { s with sockets := sockets }.set c (s.channels c) := by
        unfold State.set
        rw [Function.update_eq_self]
      refine ⟨_, by dsimp only; rw [hstep]; rfl, ?_⟩
      dsimp only
      rw [hsame]
      refine h.change hsockets (fun k hk _ => hframe.clients k ?_) ?_ (fun k hk hk' => absurd hk hk')
        (fun k hk => Or.inl hk) (Nat.le_refl _) ?_
      · rintro rfl
        exact hk hi
      · unfold Stands
        rw [hi, show (s.channels c).pc = .idle from hallowed]
        exact ⟨o'', ho'', hpc'', hfd''.symm ▸ hfd⟩
      · intro k hk
        rw [hi] at hk
        cases hk
        exact h.fresh _ o ho
  | lost c =>
    refine ⟨_, if_pos hallowed, ?_⟩
    refine h.change h.sockets (fun _ _ _ => rfl) ?_ (fun k hk hk' => absurd hk hk') (fun k hk => Or.inl hk)
      (Nat.le_refl _) fun k hk => ?_
    · cases hi : (s.channels c).client with
      | none => rfl
      | some i => exact h.idle_client hallowed hi
    · obtain ⟨o, ho, -⟩ := h.idle_client hallowed hk
      exact h.fresh _ o ho
  | next c ok =>
    obtain ⟨s', hs', hinv, -⟩ := next_spec h hallowed ok
    exact ⟨s', hs', hinv⟩
  | isTcpPortInUse j resolved opened =>
    refine h.elsewhere (e := .isTcpPortInUse j resolved opened) hallowed fun sockets hstep => ?_
    rw [Sockets.step, if_pos (show s.sockets.probes j = none from hallowed)] at hstep
    split at hstep <;> cases hstep <;> rfl
  | closeProbe j =>
    refine h.elsewhere (e := .closeProbe j) hallowed fun sockets hstep => ?_
    obtain ⟨fd, -, hrest⟩ := Option.bind_eq_some_iff.mp hstep
    obtain ⟨table, -, heq⟩ := Option.bind_eq_some_iff.mp hrest
    cases heq
    rfl
  | othersOpen =>
    refine h.elsewhere (e := .othersOpen) hallowed fun sockets hstep => ?_
    cases hstep
    rfl
  | othersClose fd =>
    refine h.elsewhere (e := .othersClose fd) hallowed fun sockets hstep => ?_
    obtain ⟨table, -, heq⟩ := Option.map_eq_some_iff.mp hstep
    cases heq
    rfl

theorem allowed_of_step (hstep : step s e = some s') : Allowed s e := by
  cases e with
  | connect c endpoint =>
    by_contra hnot
    rw [step, if_neg (show ¬(s.channels c).pc = .idle from hnot)] at hstep
    cases hstep
  | disconnect c =>
    by_contra hnot
    rw [step, if_neg (show ¬(s.channels c).pc = .idle from hnot)] at hstep
    cases hstep
  | receive c r =>
    by_contra hnot
    rw [step, if_neg (show ¬(s.channels c).pc = .idle from hnot)] at hstep
    cases hstep
  | lost c =>
    by_contra hnot
    rw [step, if_neg (show ¬(s.channels c).pc = .idle from hnot)] at hstep
    cases hstep
  | next c ok =>
    intro hidle
    simp only [step, hidle] at hstep
    cases hstep
  | isTcpPortInUse j resolved opened =>
    obtain ⟨sockets, hsockets, -⟩ := Option.map_eq_some_iff.mp hstep
    exact Sockets.allowed_of_step hsockets
  | closeProbe j =>
    obtain ⟨sockets, hsockets, -⟩ := Option.map_eq_some_iff.mp hstep
    exact Sockets.allowed_of_step hsockets
  | othersOpen => trivial
  | othersClose fd =>
    obtain ⟨sockets, hsockets, -⟩ := Option.map_eq_some_iff.mp hstep
    exact Sockets.allowed_of_step hsockets

/-! ## Runs -/

theorem inv_step (s : State) (e : Event) (s' : State) (h : Inv s) (hstep : step s e = some s') : Inv s' := by
  obtain ⟨t, ht, hinv⟩ := step_of_allowed h (allowed_of_step hstep)
  rw [hstep, Option.some.injEq] at ht
  exact ht ▸ hinv

theorem step_isSome_iff (s : State) (e : Event) (h : Inv s) : (step s e).isSome ↔ Allowed s e := by
  constructor
  · intro hsome
    obtain ⟨s', hs'⟩ := Option.isSome_iff_exists.mp hsome
    exact allowed_of_step hs'
  · intro hallowed
    obtain ⟨s', hs', -⟩ := step_of_allowed h hallowed
    exact Option.isSome_of_eq_some hs'

/-- The channels use their clients as the class wants to be used, however their functions interleave. -/
theorem channels_go_through (events : List Event) :
    (run step .init events).isSome ↔ Guarded step Allowed .init events :=
  run_isSome_iff step_isSome_iff inv_step inv_init events

theorem inv_run {events : List Event} (hrun : run step .init events = some s) : Inv s :=
  run_preserves inv_step inv_init hrun

/-- A channel's sockets. -/
def Holds (s : State) (c : Channel) (fd : ℕ) : Prop :=
  ∃ i, (s.channels c).client = some i ∧ s.sockets.table.holder fd = some (.client i)

/-- Every socket of a client is one channel's; a channel has at most one, and one when it says that it is
connected. -/
structure OneSocket (s : State) : Prop where
  owned : ∀ fd i, s.sockets.table.holder fd = some (.client i) → ∃ c, Holds s c fd
  unshared : ∀ c c' fd, Holds s c fd → Holds s c' fd → c = c'
  single : ∀ c fd fd', Holds s c fd → Holds s c fd' → fd = fd'
  connected : ∀ c, (s.channels c).connected = true → ∃ fd, Holds s c fd

theorem one_socket_a_channel {events : List Event} (hrun : run step .init events = some s) : OneSocket s := by
  have h := inv_run hrun
  refine ⟨fun fd i hholder => ?_, ?_, ?_, fun c hconn => ?_⟩
  · obtain ⟨o, ho, -⟩ := (h.sockets.clients fd i).mp hholder
    obtain ⟨c, hc⟩ := h.owned i o ho
    exact ⟨c, i, hc, hholder⟩
  · rintro c c' fd ⟨i, hi, hholder⟩ ⟨i', hi', hholder'⟩
    rw [hholder, Option.some.injEq] at hholder'
    cases hholder'
    exact h.distinct c c' i hi hi'
  · rintro c fd fd' ⟨i, hi, hholder⟩ ⟨i', hi', hholder'⟩
    rw [hi, Option.some.injEq] at hi'
    subst hi'
    obtain ⟨o, ho, hfd⟩ := (h.sockets.clients fd i).mp hholder
    obtain ⟨o', ho', hfd'⟩ := (h.sockets.clients fd' i).mp hholder'
    rw [ho, Option.some.injEq] at ho'
    subst ho'
    omega
  · have hstands := h.stands c
    unfold Stands at hstands
    cases hpc : (s.channels c).pc with
    | idle =>
      rw [hpc] at hstands
      cases hi : (s.channels c).client with
      | none =>
        rw [hi, hconn] at hstands
        cases hstands
      | some i =>
        rw [hi] at hstands
        obtain ⟨o, ho, -, hfd⟩ := hstands
        exact ⟨o.socket_fd_.toNat, i, hi, h.sockets.holder ho hfd⟩
    | reset connect =>
      rw [hpc, hconn] at hstands
      cases hi : (s.channels c).client <;> rw [hi] at hstands <;> simp at hstands
    | create =>
      rw [hpc, hconn] at hstands
      cases hi : (s.channels c).client <;> rw [hi] at hstands <;> simp at hstands
    | connecting =>
      rw [hpc, hconn] at hstands
      cases hi : (s.channels c).client <;> rw [hi] at hstands <;> simp at hstands
    | drop =>
      rw [hpc, hconn] at hstands
      cases hi : (s.channels c).client <;> rw [hi] at hstands <;> simp at hstands

/-- Two channels connect at the same time; one of them fails. -/
theorem one_socket_a_channel_two :
    ∃ s, run step .init [.connect .img true, .connect .prvHst true, .next .img true, .next .prvHst true,
      .next .prvHst true, .next .img true, .next .img true, .next .prvHst true, .next .img true,
      .next .prvHst false, .next .prvHst true, .next .prvHst true] = some s ∧ OneSocket s := by
  have hsome : ∃ s, run step .init [.connect .img true, .connect .prvHst true, .next .img true, .next .prvHst true,
      .next .prvHst true, .next .img true, .next .img true, .next .prvHst true, .next .img true,
      .next .prvHst false, .next .prvHst true, .next .prvHst true] = some s := ⟨_, rfl⟩
  obtain ⟨s, hs⟩ := hsome
  exact ⟨s, hs, one_socket_a_channel hs⟩

/-! ## Shutting down -/

/-- A channel is disconnected, and its client is gone. -/
theorem disconnectCalls_spec (h : Inv s) (hidle : (s.channels c).pc = .idle) :
    ∃ s', run step s (disconnectCalls s c) = some s' ∧ Inv s' ∧ Frame s s' c ∧
      s'.channels c = ⟨false, none, .idle⟩ := by
  have hdisconnect : step s (.disconnect c) = disconnect s c false := if_pos hidle
  unfold disconnectCalls
  cases hi : (s.channels c).client with
  | none =>
    obtain ⟨s', hs', hinv, hframe, hch⟩ := disconnect_spec_none h hi false
    refine ⟨s', ?_, hinv, hframe, hch⟩
    rw [run_cons_of_some step (hdisconnect.trans hs')]
    rfl
  | some i =>
    obtain ⟨t, ht, hinv, hframe, hch⟩ := disconnect_spec_some h hidle hi false
    have hstands := hinv.stands c
    rw [hch] at hstands
    obtain ⟨s', hs', hinv', hframe', hch'⟩ := reset_spec hinv (p := .idle) (by rw [hch]) hstands.2
      (by rw [hch]) (Or.inl rfl)
    have hnext : step t (.next c true) = some s' := by
      simp only [step, hch]
      exact hs'
    refine ⟨s', ?_, hinv', ⟨fun c' hc' => ?_, ?_, fun fd => ?_⟩, hch'⟩
    · rw [run_cons_of_some step (hdisconnect.trans ht)]
      simp only [Option.isSome_some, if_true]
      rw [run_cons_of_some step hnext]
      rfl
    · exact (hframe'.channels c' hc').trans (hframe.channels c' hc')
    · exact hframe'.probes.trans hframe.probes
    · exact (hframe'.others fd).trans (hframe.others fd)

theorem disconnectAll_spec (cs : List Channel) (hnodup : cs.Nodup) (h : Inv s)
    (hidle : ∀ c, (s.channels c).pc = .idle) :
    ∃ s', run step s (cs.flatMap (disconnectCalls s)) = some s' ∧ Inv s' ∧
      s'.sockets.probes = s.sockets.probes ∧
      (∀ fd, s'.sockets.table.holder fd = some .other ↔ s.sockets.table.holder fd = some .other) ∧
      (∀ c, c ∉ cs → s'.channels c = s.channels c) ∧ ∀ c ∈ cs, s'.channels c = ⟨false, none, .idle⟩ := by
  induction cs generalizing s with
  | nil => exact ⟨s, rfl, h, rfl, fun _ => Iff.rfl, fun _ _ => rfl, by simp⟩
  | cons c cs ih =>
    obtain ⟨hc, hcs⟩ := List.nodup_cons.mp hnodup
    obtain ⟨t, ht, hinv, hframe, hch⟩ := disconnectCalls_spec h (hidle c)
    have hidle' : ∀ c', (t.channels c').pc = .idle := by
      intro c'
      by_cases hc' : c' = c
      · rw [hc', hch]
      · rw [hframe.channels c' hc']
        exact hidle c'
    have hcalls : cs.flatMap (disconnectCalls t) = cs.flatMap (disconnectCalls s) := by
      refine List.flatMap_congr fun c' hc' => ?_
      unfold disconnectCalls
      rw [hframe.channels c' fun heq => hc (heq ▸ hc')]
    obtain ⟨s', hs', hinv', hprobes, hothers, hkept, hgone⟩ := ih hcs hinv hidle'
    refine ⟨s', ?_, hinv', hprobes.trans hframe.probes, fun fd => (hothers fd).trans (hframe.others fd), ?_, ?_⟩
    · rw [List.flatMap_cons, run_append_of_some step ht, ← hcalls]
      exact hs'
    · intro c' hc'
      obtain ⟨hne, hnot⟩ := not_or.mp (mt List.mem_cons.mpr hc')
      exact (hkept c' hnot).trans (hframe.channels c' hne)
    · intro c' hc'
      rcases List.mem_cons.mp hc' with rfl | hmem
      · exact (hkept c' hc).trans hch
      · exact hgone c' hmem

/-- When the workers are joined and no probe is under way, shutting down leaves exactly the descriptors that belong to
other parts of the process. -/
theorem shutdown_releases {events : List Event} (hrun : run step .init events = some s)
    (hidle : ∀ c, (s.channels c).pc = .idle) (hprobes : ∀ j, s.sockets.probes j = none) :
    ∃ s', run step s (shutdownPortDriver s) = some s' ∧
      ∀ fd o, s'.sockets.table.holder fd = some o ↔ o = .other ∧ s.sockets.table.holder fd = some .other := by
  obtain ⟨s', hs', hinv, hsame, hothers, -, hgone⟩ := disconnectAll_spec [Channel.prvImg, .prvImg1, .img, .prvHst]
    (by decide) (inv_run hrun) hidle
  have hnone : ∀ i, s'.sockets.clients i = none := by
    intro i
    cases ho : s'.sockets.clients i with
    | none => rfl
    | some o =>
      obtain ⟨c, hc⟩ := hinv.owned i o ho
      rw [hgone c (by cases c <;> simp)] at hc
      cases hc
  refine ⟨s', hs', fun fd o => ?_⟩
  constructor
  · intro hholder
    cases o with
    | client i =>
      obtain ⟨o, ho, -⟩ := (hinv.sockets.clients fd i).mp hholder
      rw [hnone] at ho
      cases ho
    | probe j =>
      have hj := (hinv.sockets.probes fd j).mp hholder
      rw [hsame, hprobes] at hj
      cases hj
    | other => exact ⟨rfl, (hothers fd).mp hholder⟩
  · rintro ⟨rfl, hholder⟩
    exact (hothers fd).mpr hholder

/-- A connected channel and a file of somebody else's. -/
theorem shutdown_releases_one :
    ∃ s s', run step .init [.othersOpen, .connect .img true, .next .img true, .next .img true, .next .img true,
      .next .img true] = some s ∧ run step s (shutdownPortDriver s) = some s' ∧
      ∀ fd o, s'.sockets.table.holder fd = some o ↔ o = .other ∧ s.sockets.table.holder fd = some .other := by
  have hsome : ∃ s, run step .init [.othersOpen, .connect .img true, .next .img true, .next .img true,
      .next .img true, .next .img true] = some s ∧ (∀ c, (s.channels c).pc = .idle) ∧
      ∀ j, s.sockets.probes j = none :=
    ⟨_, rfl, fun c => by cases c <;> rfl, fun _ => rfl⟩
  obtain ⟨s, hs, hidle, hprobes⟩ := hsome
  obtain ⟨s', hs', hholder⟩ := shutdown_releases hs hidle hprobes
  exact ⟨s, s', hs, hs', hholder⟩

end ADTimePix3.Stream.Channels
