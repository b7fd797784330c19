import ADTimePix3.Stream.Sockets

/-!
# Who holds the sockets

In every interleaving a descriptor that a client or `isTcpPortInUse` closes is one that it opened and still holds:
none is closed twice, and none of the rest of the process is closed. An object holds at most one descriptor, no two
objects hold the same one, and when the objects are gone so are their descriptors.
-/

namespace ADTimePix3.Stream.Sockets

open Runs

variable {s s' : State} {i j fd : ℕ} {c : NetworkClient} {e : Event}

/-! ## The invariant -/

/-- A client with a connection has a socket, and one in the middle of `connect` has one from `socket()` on. -/
structure Sound (c : NetworkClient) : Prop where
  fd : -1 ≤ c.socket_fd_
  connected : c.connected_ = true → 0 ≤ c.socket_fd_ ∧ c.pc = .idle
  before : c.pc = .socket → c.socket_fd_ = -1
  after : c.pc = .resolve ∨ c.pc = .connect ∨ c.pc = .close → 0 ≤ c.socket_fd_

/-- What the table says that clients and probes hold is what they hold. -/
structure Inv (s : State) : Prop where
  clients : ∀ fd i, s.table.holder fd = some (.client i) ↔ ∃ c, s.clients i = some c ∧ c.socket_fd_ = fd
  probes : ∀ fd j, s.table.holder fd = some (.probe j) ↔ s.probes j = some fd
  sound : ∀ i c, s.clients i = some c → Sound c

theorem inv_init : Inv .init where
  clients fd i := by
    simp [State.init]
  probes fd j := by
    simp [State.init]
  sound i c hc := by
    cases hc

theorem sound_new : Sound .new where
  fd := Int.le_refl _
  connected h := by cases h
  before _ := rfl
  after h := by rcases h with h | h | h <;> cases h

theorem Sound.receive (h : Sound c) (r : Recv) : Sound (c.receive r) := by
  unfold NetworkClient.receive
  split
  · cases r with
    | bytes => exact h
    | again => exact h
    | closed => exact ⟨h.fd, fun hc => (Bool.false_ne_true hc).elim, h.before, h.after⟩
    | error => exact ⟨h.fd, fun hc => (Bool.false_ne_true hc).elim, h.before, h.after⟩
  · exact h

/-- A change of the objects `names` and of what they hold. -/
theorem Inv.change (h : Inv s) (names : ℕ → Prop) (hclients : ∀ i, ¬names i → s'.clients i = s.clients i)
    (hprobes : s'.probes = s.probes)
    (htable : ∀ fd o, (∀ i, names i → o ≠ .client i) → (s'.table.holder fd = some o ↔ s.table.holder fd = some o))
    (hnames : ∀ i, names i → ∀ fd,
      s'.table.holder fd = some (.client i) ↔ ∃ c, s'.clients i = some c ∧ c.socket_fd_ = fd)
    (hsound : ∀ i c, names i → s'.clients i = some c → Sound c) : Inv s' where
  clients fd i := by
    by_cases hi : names i
    · exact hnames i hi fd
    · rw [hclients i hi, ← h.clients]
      refine htable fd _ fun i' hi' heq => hi ?_
      cases heq
      exact hi'
  probes fd j := by
    rw [hprobes, ← h.probes]
    exact htable fd _ fun i' _ heq => by cases heq
  sound i c hc := by
    by_cases hi : names i
    · exact hsound i c hi hc
    · exact h.sound i c (hclients i hi ▸ hc)

/-- A change of one object. -/
theorem Inv.set (h : Inv s) {t : Descriptors Holder} {c' : Option NetworkClient}
    (htable : ∀ fd o, o ≠ .client i → (t.holder fd = some o ↔ s.table.holder fd = some o))
    (hi : ∀ fd, t.holder fd = some (.client i) ↔ ∃ c, c' = some c ∧ c.socket_fd_ = fd)
    (hsound : ∀ c, c' = some c → Sound c) : Inv ({ s with table := t }.set i c') := by
  refine h.change (· = i) ?_ rfl ?_ ?_ ?_
  · intro k hk
    exact State.clients_set_of_ne _ hk _
  · intro fd o ho
    exact htable fd o (ho i rfl)
  · rintro k rfl fd
    rw [State.table_set, State.clients_set_self]
    exact hi fd
  · rintro k c rfl hc
    rw [State.clients_set_self] at hc
    exact hsound c hc

theorem idle_eq_some : s.idle i = some c ↔ s.clients i = some c ∧ c.pc = .idle := by
  simp [State.idle, Option.filter_eq_some_iff]

theorem idle_isSome : (s.idle i).isSome ↔ ∃ c, s.clients i = some c ∧ c.pc = .idle := by
  rw [Option.isSome_iff_exists]
  exact exists_congr fun c => idle_eq_some

/-- What an object holds, in the kernel's numbers. -/
theorem Inv.holder (h : Inv s) (hc : s.clients i = some c) (hfd : 0 ≤ c.socket_fd_) :
    s.table.holder c.socket_fd_.toNat = some (.client i) :=
  (h.clients _ _).mpr ⟨c, hc, (Int.toNat_of_nonneg hfd).symm⟩

theorem Inv.not_holder (h : Inv s) (hc : s.clients i = some c) (hfd : c.socket_fd_ ≠ fd) :
    s.table.holder fd ≠ some (.client i) := by
  intro hholder
  obtain ⟨c', hc', hfd'⟩ := (h.clients _ _).mp hholder
  rw [hc] at hc'
  cases hc'
  exact hfd hfd'

/-! ## The calls -/

/-- An object closes its own descriptor. -/
theorem closeBy_spec (h : Inv s) (hc : s.clients i = some c) (hfd : 0 ≤ c.socket_fd_) :
    ∃ table, s.table.closeBy (.client i) c.socket_fd_.toNat = some table ∧
      (∀ fd o, o ≠ .client i → (table.holder fd = some o ↔ s.table.holder fd = some o)) ∧
      ∀ fd, table.holder fd ≠ some (.client i) := by
  have hholder := h.holder hc hfd
  obtain ⟨table, heq, htable⟩ := Descriptors.closeBy_of_holder hholder
  refine ⟨table, heq, fun fd o ho => Descriptors.closeBy_of_ne hholder htable ho fd, fun fd hfd' => ?_⟩
  obtain ⟨hne, hold⟩ := (htable fd _).mp hfd'
  exact h.not_holder hc (by omega) hold

theorem closeSocket_spec (h : Inv s) (hc : s.clients i = some c) :
    ∃ table, closeSocket s.table i c = some (table, { c with socket_fd_ := -1, connected_ := false }) ∧
      (∀ fd o, o ≠ .client i → (table.holder fd = some o ↔ s.table.holder fd = some o)) ∧
      ∀ fd, table.holder fd ≠ some (.client i) := by
  unfold closeSocket
  split
  case isTrue hfd =>
    obtain ⟨table, heq, htable⟩ := closeBy_spec h hc hfd
    exact ⟨table, by rw [heq]; rfl, htable⟩
  case isFalse hfd =>
    have hneg : c.socket_fd_ = -1 := by
      have := (h.sound i c hc).fd
      omega
    refine ⟨s.table, by rw [← hneg], fun fd o _ => Iff.rfl, fun fd => h.not_holder hc (by omega)⟩

/-- An object that holds nothing takes over what another one holds. -/
theorem passSocket_spec (h : Inv s) (hi : ∀ fd, s.table.holder fd ≠ some (.client i)) (hne : i ≠ j)
    (hc : s.clients j = some c) :
    ∃ table, passSocket s.table i j c = some table ∧
      Inv (({ s with table := table }.set i (some c)).set j (some .new)) := by
  obtain ⟨table, heq, hothers, hiff, hnone⟩ : ∃ table, passSocket s.table i j c = some table ∧
      (∀ fd o, o ≠ .client i → o ≠ .client j → (table.holder fd = some o ↔ s.table.holder fd = some o)) ∧
      (∀ fd : ℕ, table.holder fd = some (.client i) ↔ c.socket_fd_ = fd) ∧
      ∀ fd, table.holder fd ≠ some (.client j) := by
    unfold passSocket
    split
    case isTrue hfd =>
      have hholder := h.holder hc hfd
      obtain ⟨table, heq, htable⟩ := Descriptors.passBy_of_holder hholder (.client i)
      refine ⟨table, heq, fun fd o hoi hoj => ?_, fun fd => ?_, fun fd => ?_⟩
      · rw [htable]
        split
        case isTrue hfd' =>
          rw [hfd', hholder]
          simp [hoi.symm, hoj.symm]
        case isFalse => rfl
      · rw [htable]
        split
        · simp
          omega
        · simp only [hi, false_iff]
          omega
      · rw [htable]
        split
        · simp [hne]
        · exact h.not_holder hc (by omega)
    case isFalse hfd =>
      refine ⟨s.table, rfl, fun fd o _ _ => Iff.rfl, fun fd => ?_, fun fd => h.not_holder hc (by omega)⟩
      simp only [hi, false_iff]
      omega
  refine ⟨table, heq, h.change (fun k => k = i ∨ k = j) ?_ rfl ?_ ?_ ?_⟩
  · intro k hk
    obtain ⟨hki, hkj⟩ := not_or.mp hk
    rw [State.clients_set_of_ne _ hkj, State.clients_set_of_ne _ hki]
  · intro fd o ho
    exact hothers fd o (ho i (Or.inl rfl)) (ho j (Or.inr rfl))
  · rintro k (rfl | rfl) fd
    · rw [State.table_set, State.table_set, State.clients_set_of_ne _ hne, State.clients_set_self, hiff]
      simp
    · rw [State.table_set, State.table_set, State.clients_set_self]
      simp only [hnone, Option.some.injEq, exists_eq_left', false_iff]
      show (-1 : ℤ) ≠ fd
      omega
  · rintro k c' (rfl | rfl) hc'
    · rw [State.clients_set_of_ne _ hne, State.clients_set_self] at hc'
      exact Option.some.inj hc' ▸ h.sound _ c hc
    · rw [State.clients_set_self] at hc'
      exact Option.some.inj hc' ▸ sound_new

/-- The system call of `connect` goes through, and the object holds what it says. -/
theorem advance_spec (h : Inv s) (hc : s.clients i = some c) (hpc : c.pc ≠ .idle) (ok : Bool) :
    ∃ table c', advance s.table i c ok = some (table, c') ∧ Inv ({ s with table := table }.set i (some c')) := by
  have hsound := h.sound i c hc
  have hnot : c.connected_ ≠ true := fun hconn => hpc (hsound.connected hconn).2
  -- a step that changes fields of the object only
  have hlocal : ∀ c' : NetworkClient, c'.socket_fd_ = c.socket_fd_ → Sound c' →
      Inv ({ s with table := s.table }.set i (some c')) := by
    intro c' hfd hc'
    refine h.set (fun _ _ _ => Iff.rfl) (fun fd => ?_) fun c'' heq => Option.some.inj heq ▸ hc'
    rw [h.clients, hc]
    simp [hfd]
  unfold advance
  cases hp : c.pc with
  | idle => exact absurd hp hpc
  | socket =>
    cases ok with
    | false =>
      refine ⟨_, _, rfl, hlocal _ (hsound.before hp).symm ⟨Int.le_refl _, fun hconn => absurd hconn hnot, ?_, ?_⟩⟩
      · intro hidle
        cases hidle
      · rintro (hidle | hidle | hidle) <;> cases hidle
    | true =>
      refine ⟨_, _, rfl, h.set (fun fd o ho => Descriptors.holder_openBy_of_ne ho fd) (fun fd => ?_) fun c' hc' => ?_⟩
      · rw [Descriptors.holder_openBy]
        split
        case isTrue hfd =>
          simp [hfd]
        case isFalse hfd =>
          have hnot : s.table.holder fd ≠ some (.client i) := h.not_holder hc (by rw [hsound.before hp]; omega)
          simp only [hnot, Option.some.injEq, exists_eq_left', false_iff]
          omega
      · rw [← Option.some.inj hc']
        refine ⟨?_, fun hconn => absurd hconn hnot, fun hidle => ?_, fun _ => ?_⟩
        · have := Int.natCast_nonneg s.table.lowest
          dsimp only
          omega
        · cases hidle
        · exact Int.natCast_nonneg _
  | resolve =>
    have hfd := hsound.after (Or.inl hp)
    refine ⟨_, _, rfl, hlocal _ rfl ⟨hsound.fd, fun hconn => absurd hconn hnot, ?_, fun _ => hfd⟩⟩
    intro hsocket
    cases ok <;> cases hsocket
  | connect =>
    have hfd := hsound.after (Or.inr (Or.inl hp))
    cases ok with
    | false =>
      refine ⟨_, _, rfl, hlocal _ rfl ⟨hsound.fd, fun hconn => absurd hconn hnot, ?_, fun _ => hfd⟩⟩
      intro hsocket
      cases hsocket
    | true =>
      refine ⟨_, _, rfl, hlocal _ rfl ⟨hsound.fd, fun _ => ⟨hfd, rfl⟩, ?_, fun _ => hfd⟩⟩
      intro hsocket
      cases hsocket
  | close =>
    have hfd := hsound.after (Or.inr (Or.inr hp))
    obtain ⟨table, heq, hothers, hnone⟩ := closeBy_spec h hc hfd
    refine ⟨_, _, by rw [heq]; rfl, h.set hothers (fun fd => ?_) fun c' hc' => ?_⟩
    · simp only [hnone, Option.some.injEq, exists_eq_left', false_iff]
      omega
    · rw [← Option.some.inj hc']
      refine ⟨Int.le_refl _, fun hconn => absurd hconn hnot, fun hidle => ?_, ?_⟩
      · cases hidle
      · rintro (hidle | hidle | hidle) <;> cases hidle

/-! ## The steps -/

/-- What is left after `closeSocket`, when the object goes on or goes away. -/
theorem Inv.closed (h : Inv s) {table : Descriptors Holder}
    (hothers : ∀ fd o, o ≠ .client i → (table.holder fd = some o ↔ s.table.holder fd = some o))
    (hnone : ∀ fd, table.holder fd ≠ some (.client i)) {o : Option NetworkClient}
    (ho : ∀ c, o = some c → c.socket_fd_ = -1 ∧ c.connected_ = false ∧ (c.pc = .idle ∨ c.pc = .socket)) :
    Inv ({ s with table := table }.set i o) := by
  refine h.set hothers (fun fd => ?_) fun c heq => ?_
  · simp only [hnone, false_iff]
    rintro ⟨c, heq, hfd⟩
    rw [(ho c heq).1] at hfd
    omega
  · obtain ⟨hfd, hconn, hpc⟩ := ho c heq
    refine ⟨by omega, fun h => absurd h (by rw [hconn]; exact Bool.false_ne_true), fun _ => hfd, ?_⟩
    intro hafter
    rcases hpc with hpc | hpc <;> rw [hpc] at hafter <;> rcases hafter with h | h | h <;> cases h

/-- A change of what the others or a probe hold. -/
theorem Inv.others (h : Inv s) {table : Descriptors Holder} {probes : ℕ → Option ℕ}
    (hclients : ∀ fd i, table.holder fd = some (.client i) ↔ s.table.holder fd = some (.client i))
    (hprobes : ∀ fd j, table.holder fd = some (.probe j) ↔ probes j = some fd) :
    Inv { s with table := table, probes := probes } where
  clients fd i := (hclients fd i).trans (h.clients fd i)
  probes := hprobes
  sound := h.sound

/-- Where the discipline is kept, a step goes through. -/
theorem step_of_allowed (h : Inv s) (hallowed : Allowed s e) : ∃ s', step s e = some s' ∧ Inv s' := by
  cases e with
  | construct i =>
    have hnone : s.clients i = none := hallowed
    refine ⟨_, if_pos hnone, h.set (fun _ _ _ => Iff.rfl) (fun fd => ?_) fun c hc => ?_⟩
    · rw [h.clients, hnone]
      simp [NetworkClient.new]
    · exact Option.some.inj hc ▸ sound_new
  | moveConstruct i src =>
    obtain ⟨hnone, hsrc⟩ := hallowed
    obtain ⟨c, hc, hpc⟩ := idle_isSome.mp hsrc
    have hfree : ∀ fd, s.table.holder fd ≠ some (.client i) := by
      intro fd hholder
      obtain ⟨c', hc', -⟩ := (h.clients fd i).mp hholder
      rw [hnone] at hc'
      cases hc'
    have hne : i ≠ src := by
      rintro rfl
      rw [hnone] at hc
      cases hc
    obtain ⟨table, hpass, hinv⟩ := passSocket_spec h hfree hne hc
    refine ⟨_, ?_, hinv⟩
    simp [step, hnone, idle_eq_some.mpr ⟨hc, hpc⟩, hpass]
  | moveAssign i src =>
    obtain ⟨hi, hsrc⟩ := hallowed
    obtain ⟨c, hc, hpc⟩ := idle_isSome.mp hi
    obtain ⟨other, hother, hpco⟩ := idle_isSome.mp hsrc
    by_cases hne : i = src
    · refine ⟨s, ?_, h⟩
      subst hne
      simp [step, idle_eq_some.mpr ⟨hc, hpc⟩]
    · obtain ⟨table, hclose, hothers, hnone⟩ := closeSocket_spec h hc
      have hclosed : Inv ({ s with table := table }.set i (some { c with socket_fd_ := -1, connected_ := false })) :=
        h.closed hothers hnone fun c' hc' => by cases hc'; exact ⟨rfl, rfl, Or.inl hpc⟩
      obtain ⟨table', hpass, hinv⟩ := passSocket_spec hclosed hnone hne
        ((State.clients_set_of_ne _ (Ne.symm hne) _).trans hother)
      refine ⟨_, ?_, hinv⟩
      rw [State.table_set] at hpass
      simp [step, idle_eq_some.mpr ⟨hc, hpc⟩, idle_eq_some.mpr ⟨hother, hpco⟩, hne, hclose, hpass, State.set]
  | connect i =>
    obtain ⟨c, hc, hpc⟩ := idle_isSome.mp hallowed
    obtain ⟨table, hclose, hothers, hnone⟩ := closeSocket_spec h hc
    refine ⟨{ s with table := table }.set i (some ⟨-1, false, .socket⟩),
      by simp [step, idle_eq_some.mpr ⟨hc, hpc⟩, hclose], ?_⟩
    refine h.closed hothers hnone fun c' hc' => ?_
    cases hc'
    exact ⟨rfl, rfl, Or.inr rfl⟩
  | advance i ok =>
    obtain ⟨c, hc, hpc⟩ := hallowed
    obtain ⟨table, c', hadvance, hinv⟩ := advance_spec h hc hpc ok
    exact ⟨_, by simp [step, hc, hadvance], hinv⟩
  | disconnect i =>
    obtain ⟨c, hc, hpc⟩ := idle_isSome.mp hallowed
    obtain ⟨table, hclose, hothers, hnone⟩ := closeSocket_spec h hc
    refine ⟨{ s with table := table }.set i (some ⟨-1, false, c.pc⟩),
      by simp [step, idle_eq_some.mpr ⟨hc, hpc⟩, hclose], ?_⟩
    refine h.closed hothers hnone fun c' hc' => ?_
    cases hc'
    exact ⟨rfl, rfl, Or.inl hpc⟩
  | receive i r =>
    obtain ⟨c, hc, hpc⟩ := idle_isSome.mp hallowed
    refine ⟨s.set i (some (c.receive r)), by simp [step, idle_eq_some.mpr ⟨hc, hpc⟩], ?_⟩
    refine h.set (t := s.table) (fun _ _ _ => Iff.rfl) (fun fd => ?_) fun c' hc' => ?_
    · have hfd : (c.receive r).socket_fd_ = c.socket_fd_ := by
        unfold NetworkClient.receive
        split <;> cases r <;> rfl
      rw [h.clients, hc]
      simp [hfd]
    · exact Option.some.inj hc' ▸ (h.sound i c hc).receive r
  | destroy i =>
    obtain ⟨c, hc, hpc⟩ := idle_isSome.mp hallowed
    obtain ⟨table, hclose, hothers, hnone⟩ := closeSocket_spec h hc
    refine ⟨_, ?_, h.closed (o := none) hothers hnone fun c' hc' => by cases hc'⟩
    simp [step, idle_eq_some.mpr ⟨hc, hpc⟩, hclose]
  | isTcpPortInUse j resolved opened =>
    have hnone : s.probes j = none := hallowed
    simp only [step, if_pos hnone]
    split
    · refine ⟨_, rfl, h.others (fun fd i => Descriptors.holder_openBy_of_ne (by simp) fd) fun fd j' => ?_⟩
      by_cases hj : j' = j
      · subst hj
        have hold : s.table.holder fd ≠ some (.probe j') := by
          rw [ne_eq, h.probes, hnone]
          simp
        rw [Function.update_self, Descriptors.holder_openBy]
        split
        case isTrue hfd => simp [hfd]
        case isFalse hfd => simp [hold, Ne.symm hfd]
      · rw [Function.update_of_ne hj, ← h.probes]
        exact Descriptors.holder_openBy_of_ne (fun heq => hj (Holder.probe.inj heq)) fd
    · exact ⟨s, rfl, h⟩
  | closeProbe j =>
    obtain ⟨fd, hfd⟩ := Option.isSome_iff_exists.mp hallowed
    have hholder := (h.probes fd j).mpr hfd
    obtain ⟨table, hclose, htable⟩ := Descriptors.closeBy_of_holder hholder
    refine ⟨{ s with table := table }.setProbe j none, by simp [step, hfd, hclose], ?_⟩
    refine h.others (fun fd i => Descriptors.closeBy_of_ne hholder htable (by simp) fd) fun fd' j' => ?_
    by_cases hj : j' = j
    · subst hj
      rw [Function.update_self, htable, h.probes, hfd, Option.some.injEq]
      simp [eq_comm]
    · rw [Function.update_of_ne hj, ← h.probes]
      exact Descriptors.closeBy_of_ne hholder htable (fun heq => hj (Holder.probe.inj heq)) fd'
  | othersOpen =>
    exact ⟨_, rfl, h.others (fun fd i => Descriptors.holder_openBy_of_ne (by simp) fd) fun fd j =>
      (Descriptors.holder_openBy_of_ne (by simp) fd).trans (h.probes fd j)⟩
  | othersClose fd =>
    have hholder : s.table.holder fd = some .other := hallowed
    obtain ⟨table, hclose, htable⟩ := Descriptors.closeBy_of_holder hholder
    refine ⟨{ s with table := table }, by simp [step, hclose], ?_⟩
    exact h.others (fun fd i => Descriptors.closeBy_of_ne hholder htable (by simp) fd) fun fd' j =>
      (Descriptors.closeBy_of_ne hholder htable (by simp) fd').trans (h.probes fd' j)

/-- Only what the discipline allows goes through. -/
theorem allowed_of_step (hstep : step s e = some s') : Allowed s e := by
  cases e with
  | construct i =>
    by_cases hnone : s.clients i = none
    · exact hnone
    · rw [step, if_neg hnone] at hstep
      cases hstep
  | moveConstruct i src =>
    by_cases hnone : s.clients i = none
    · rw [step, if_pos hnone] at hstep
      obtain ⟨c, hc, -⟩ := Option.bind_eq_some_iff.mp hstep
      exact ⟨hnone, Option.isSome_of_eq_some hc⟩
    · rw [step, if_neg hnone] at hstep
      cases hstep
  | moveAssign i src =>
    obtain ⟨c, hc, hrest⟩ := Option.bind_eq_some_iff.mp hstep
    obtain ⟨other, hother, -⟩ := Option.bind_eq_some_iff.mp hrest
    exact ⟨Option.isSome_of_eq_some hc, Option.isSome_of_eq_some hother⟩
  | connect i =>
    obtain ⟨c, hc, -⟩ := Option.bind_eq_some_iff.mp hstep
    exact Option.isSome_of_eq_some hc
  | advance i ok =>
    obtain ⟨c, hc, hrest⟩ := Option.bind_eq_some_iff.mp hstep
    refine ⟨c, hc, fun hpc => ?_⟩
    rw [Sockets.advance, hpc] at hrest
    cases hrest
  | disconnect i =>
    obtain ⟨c, hc, -⟩ := Option.bind_eq_some_iff.mp hstep
    exact Option.isSome_of_eq_some hc
  | receive i r =>
    obtain ⟨c, hc, -⟩ := Option.bind_eq_some_iff.mp hstep
    exact Option.isSome_of_eq_some hc
  | destroy i =>
    obtain ⟨c, hc, -⟩ := Option.bind_eq_some_iff.mp hstep
    exact Option.isSome_of_eq_some hc
  | isTcpPortInUse j resolved opened =>
    by_cases hnone : s.probes j = none
    · exact hnone
    · rw [step, if_neg hnone] at hstep
      cases hstep
  | closeProbe j =>
    obtain ⟨fd, hfd, -⟩ := Option.bind_eq_some_iff.mp hstep
    exact Option.isSome_of_eq_some hfd
  | othersOpen => trivial
  | othersClose fd =>
    by_cases hholder : s.table.holder fd = some .other
    · exact hholder
    · rw [step, Descriptors.closeBy, if_neg hholder] at hstep
      cases hstep

/-! ## What a step leaves -/

/-- A call leaves the other objects, the probes and what others hold. -/
structure Frame (s s' : State) (i : ℕ) : Prop where
  clients : ∀ k, k ≠ i → s'.clients k = s.clients k
  probes : s'.probes = s.probes
  others : ∀ fd, s'.table.holder fd = some .other ↔ s.table.holder fd = some .other

theorem Frame.of_table {table : Descriptors Holder} {c' : Option NetworkClient}
    (hothers : ∀ fd, table.holder fd = some .other ↔ s.table.holder fd = some .other) :
    Frame s ({ s with table := table }.set i c') i :=
  ⟨fun _ hk => State.clients_set_of_ne _ hk _, rfl, hothers⟩

/-- What `closeSocket` finds, for the calls that begin with it. -/
theorem closeSocket_frame (h : Inv s) (hc : s.clients i = some c) {table : Descriptors Holder} {c' : NetworkClient}
    (heq : closeSocket s.table i c = some (table, c')) :
    c' = { c with socket_fd_ := -1, connected_ := false } ∧
      ∀ fd, table.holder fd = some .other ↔ s.table.holder fd = some .other := by
  obtain ⟨table', heq', hothers, -⟩ := closeSocket_spec h hc
  rw [heq, Option.some.injEq, Prod.mk.injEq] at heq'
  obtain ⟨rfl, rfl⟩ := heq'
  exact ⟨rfl, fun fd => hothers fd .other (by simp)⟩

theorem disconnect_frame (h : Inv s) (hstep : step s (.disconnect i) = some s') :
    Frame s s' i ∧ s'.clients i = some ⟨-1, false, .idle⟩ := by
  obtain ⟨c, hidle, hrest⟩ := Option.bind_eq_some_iff.mp hstep
  obtain ⟨hc, hpc⟩ := idle_eq_some.mp hidle
  obtain ⟨⟨table, c'⟩, hclose, hs'⟩ := Option.bind_eq_some_iff.mp hrest
  obtain ⟨rfl, hothers⟩ := closeSocket_frame h hc hclose
  cases hs'
  refine ⟨Frame.of_table hothers, ?_⟩
  rw [State.clients_set_self, hpc]

theorem connect_frame (h : Inv s) (hstep : step s (.connect i) = some s') :
    Frame s s' i ∧ s'.clients i = some ⟨-1, false, .socket⟩ := by
  obtain ⟨c, hidle, hrest⟩ := Option.bind_eq_some_iff.mp hstep
  obtain ⟨hc, hpc⟩ := idle_eq_some.mp hidle
  obtain ⟨⟨table, c'⟩, hclose, hs'⟩ := Option.bind_eq_some_iff.mp hrest
  obtain ⟨rfl, hothers⟩ := closeSocket_frame h hc hclose
  cases hs'
  exact ⟨Frame.of_table hothers, State.clients_set_self ..⟩

theorem destroy_frame (h : Inv s) (hstep : step s (.destroy i) = some s') :
    Frame s s' i ∧ s'.clients i = none := by
  obtain ⟨c, hidle, hrest⟩ := Option.bind_eq_some_iff.mp hstep
  obtain ⟨hc, hpc⟩ := idle_eq_some.mp hidle
  obtain ⟨⟨table, c'⟩, hclose, hs'⟩ := Option.bind_eq_some_iff.mp hrest
  obtain ⟨-, hothers⟩ := closeSocket_frame h hc hclose
  cases hs'
  exact ⟨Frame.of_table hothers, State.clients_set_self ..⟩

theorem construct_frame (hstep : step s (.construct i) = some s') : Frame s s' i ∧ s'.clients i = some .new := by
  have hnone : s.clients i = none := allowed_of_step hstep
  rw [step, if_pos hnone] at hstep
  cases hstep
  exact ⟨⟨fun _ hk => State.clients_set_of_ne _ hk _, rfl, fun _ => Iff.rfl⟩, State.clients_set_self ..⟩

theorem receive_frame {r : Recv} (hstep : step s (.receive i r) = some s') :
    Frame s s' i ∧ ∃ c c', s.clients i = some c ∧ s'.clients i = some c' ∧ c'.pc = .idle ∧
      c'.socket_fd_ = c.socket_fd_ := by
  obtain ⟨c, hidle, hs'⟩ := Option.bind_eq_some_iff.mp hstep
  obtain ⟨hc, hpc⟩ := idle_eq_some.mp hidle
  cases hs'
  refine ⟨⟨fun _ hk => State.clients_set_of_ne _ hk _, rfl, fun _ => Iff.rfl⟩, c, c.receive r, hc,
    State.clients_set_self .., ?_⟩
  unfold NetworkClient.receive
  split <;> cases r <;> exact ⟨hpc, rfl⟩

theorem advance_frame (h : Inv s) {ok : Bool} (hstep : step s (.advance i ok) = some s') :
    Frame s s' i ∧ ∃ c, s'.clients i = some c := by
  obtain ⟨c, hc, hrest⟩ := Option.bind_eq_some_iff.mp hstep
  obtain ⟨⟨table, c'⟩, hadvance, hs'⟩ := Option.bind_eq_some_iff.mp hrest
  cases hs'
  refine ⟨Frame.of_table fun fd => ?_, c', State.clients_set_self ..⟩
  have hsound := h.sound i c hc
  unfold advance at hadvance
  cases hp : c.pc with
  | idle =>
    rw [hp] at hadvance
    cases hadvance
  | socket =>
    rw [hp] at hadvance
    cases ok with
    | false =>
      cases hadvance
      rfl
    | true =>
      cases hadvance
      exact Descriptors.holder_openBy_of_ne (by simp) fd
  | resolve =>
    rw [hp] at hadvance
    cases hadvance
    rfl
  | connect =>
    rw [hp] at hadvance
    cases hadvance
    rfl
  | close =>
    rw [hp] at hadvance
    obtain ⟨table', heq, hothers, -⟩ := closeBy_spec h hc (hsound.after (Or.inr (Or.inr hp)))
    dsimp only at hadvance
    rw [heq] at hadvance
    cases hadvance
    exact hothers fd .other (by simp)

/-! ## Runs -/

theorem inv_step (s : State) (e : Event) (s' : State) (h : Inv s) (hstep : step s e = some s') : Inv s' := by
  obtain ⟨t, ht, hinv⟩ := step_of_allowed h (allowed_of_step hstep)
  rw [hstep, Option.some.injEq] at ht
  exact ht ▸ hinv

theorem step_isSome_iff (s : State) (e : Event) (h : Inv s) : (step s e).isSome ↔ Allowed s e := by
  constructor
  · intro hsome
    obtain ⟨s', hs'⟩ := Option.isSome_iff_exists.mp hsome
    exact allowed_of_step hs'
  · intro hallowed
    obtain ⟨s', hs', -⟩ := step_of_allowed h hallowed
    exact Option.isSome_of_eq_some hs'

/-- As long as calls are made on objects that are there, one at a time, nothing is closed by anyone who does not
hold it. -/
theorem closes_own_descriptors (events : List Event) :
    (run step .init events).isSome ↔ Guarded step Allowed .init events :=
  run_isSome_iff step_isSome_iff inv_step inv_init events

theorem inv_run {events : List Event} (hrun : run step .init events = some s) : Inv s :=
  run_preserves inv_step inv_init hrun

/-- Who holds what after any run: an object what its `socket_fd_` says, and a connected one always has a socket. No
two objects hold the same one; and when no object and no probe is left, all that is open belongs to others. -/
structure Accounted (s : State) : Prop where
  held : ∀ fd i, s.table.holder fd = some (.client i) ↔ ∃ c, s.clients i = some c ∧ c.socket_fd_ = fd
  connected : ∀ i c, s.clients i = some c → c.connected_ = true →
    ∃ fd : ℕ, c.socket_fd_ = fd ∧ s.table.holder fd = some (.client i)
  distinct : ∀ i j c c', s.clients i = some c → s.clients j = some c' → 0 ≤ c.socket_fd_ →
    c.socket_fd_ = c'.socket_fd_ → i = j
  released : (∀ i, s.clients i = none) → (∀ j, s.probes j = none) →
    ∀ fd o, s.table.holder fd = some o → o = .other

theorem accounted_run {events : List Event} (hrun : run step .init events = some s) : Accounted s := by
  have h := inv_run hrun
  refine ⟨h.clients, fun i c hc hconn => ?_, fun i j c c' hc hc' hfd heq => ?_, fun hclients hprobes fd o ho => ?_⟩
  · have hfd := ((h.sound i c hc).connected hconn).1
    exact ⟨c.socket_fd_.toNat, (Int.toNat_of_nonneg hfd).symm, h.holder hc hfd⟩
  · have hi := h.holder hc hfd
    have hj := h.holder hc' (heq ▸ hfd)
    rw [← heq, hi, Option.some.injEq] at hj
    exact Holder.client.inj hj
  · cases o with
    | client i =>
      obtain ⟨c, hc, -⟩ := (h.clients fd i).mp ho
      rw [hclients] at hc
      cases hc
    | probe j =>
      have hj := (h.probes fd j).mp ho
      rw [hprobes] at hj
      cases hj
    | other => rfl

/-- A client connects, is moved into another object, and the first one connects again while others open a file. -/
theorem accounted_run_moved :
    ∃ s, run step .init [.construct 0, .connect 0, .advance 0 true, .advance 0 true, .advance 0 true,
      .moveConstruct 1 0, .othersOpen, .connect 0, .advance 0 true, .receive 1 .closed, .destroy 1] = some s ∧
      Accounted s := by
  have hsome : ∃ s, run step .init [.construct 0, .connect 0, .advance 0 true, .advance 0 true, .advance 0 true,
      .moveConstruct 1 0, .othersOpen, .connect 0, .advance 0 true, .receive 1 .closed, .destroy 1] = some s :=
    ⟨_, rfl⟩
  obtain ⟨s, hs⟩ := hsome
  exact ⟨s, hs, accounted_run hs⟩

end ADTimePix3.Stream.Sockets
