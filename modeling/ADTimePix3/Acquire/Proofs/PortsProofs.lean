import ADTimePix3.Acquire.Ports
import ADTimePix3.Acquire.Proofs.StoiProofs
import ADTimePix3.Lib.Probing

/-!
# Proofs: ports of the preview channels

The loop is linear probing: a channel whose port is in use is placed at the next free port above it, any other
channel keeps its port, whether or not an earlier channel has been moved there. So two channels end on one port
exactly when the ports below the later one's are too crowded (`Roomy`). When all channels are moved no port is
chosen twice.

Main result: `portsKept_iff_roomy`.
-/

namespace ADTimePix3.Acquire

open Probing

/-! ## Paths -/

theorem splitFirst_append {c : Char} {pre : List Char} (h : c ∉ pre) (post : List Char) :
    splitFirst c (pre ++ c :: post) = some (pre, post) := by
  have hpre : ∀ x ∈ pre, decide (x ≠ c) = true := by
    intro x hx
    refine decide_eq_true ?_
    rintro rfl
    exact h hx
  unfold splitFirst
  rw [if_pos (by simp), List.takeWhile_append_of_pos hpre, List.dropWhile_append_of_pos hpre]
  simp

theorem splitFirst_not_mem {c : Char} {s pre post : List Char} (h : splitFirst c s = some (pre, post)) :
    c ∉ pre := by
  unfold splitFirst at h
  by_cases hc : c ∈ s
  · rw [if_pos hc] at h
    obtain ⟨rfl, -⟩ := Prod.mk.inj (Option.some.inj h)
    intro hmem
    simpa using List.mem_takeWhile_imp hmem
  · rw [if_neg hc] at h
    cases h

theorem parseHostPort_spec {remaining : List Char} {e : Endpoint} (h : parseHostPort remaining = some e) :
    ':' ∉ e.host ∧ 1 ≤ e.port ∧ e.port ≤ 65535 := by
  unfold parseHostPort at h
  split at h
  · cases h
  · rename_i host port_str hcolon
    split at h
    · cases h
    · split at h
      · cases h
      · obtain rfl := Option.some.inj h
        refine ⟨splitFirst_not_mem hcolon, ?_, ?_⟩
        · show 1 ≤ Int.toNat _
          omega
        · show Int.toNat _ ≤ 65535
          omega

theorem parseTcpPath_spec {filePath : List Char} {e : Endpoint} (h : parseTcpPath filePath = some e) :
    ':' ∉ e.host ∧ 1 ≤ e.port ∧ e.port ≤ 65535 := by
  unfold parseTcpPath at h
  split at h
  · exact parseHostPort_spec h
  · cases h

/-- A path that is made is read back. -/
theorem parseTcpPath_makeListenTcpPath {host : List Char} {port : ℕ} (hhost : ':' ∉ host) (hpos : 1 ≤ port)
    (hle : port ≤ 65535) : parseTcpPath (makeListenTcpPath host port) = some ⟨host, port⟩ := by
  have hprefix : "tcp://".toList.isPrefixOf (makeListenTcpPath host port) = true := by
    rw [List.isPrefixOf_iff_prefix]
    exact ⟨"listen@".toList ++ host ++ ':' :: toString port, rfl⟩
  have hdrop : (makeListenTcpPath host port).drop 6 =
      "listen".toList ++ '@' :: (host ++ ':' :: toString port) := rfl
  have hstoi : stoi (toString port) = some (port : ℤ) := stoi_toString (by omega)
  have hskip : skipListen ("listen".toList ++ '@' :: (host ++ ':' :: toString port)) =
      host ++ ':' :: toString port := by
    unfold skipListen
    rw [splitFirst_append (by decide)]
  unfold parseTcpPath
  rw [if_pos hprefix, hdrop, hskip]
  unfold parseHostPort
  simp only [splitFirst_append hhost, hstoi]
  rw [if_neg (by omega)]
  rfl

/-! ## One channel -/

section Channel

variable {isTcpPortInUse : List Char → ℕ → Bool} {forceRotate : Bool} {reserved reserved' : List ℕ}
  {c c' : PreviewTcpChannel} {e : Endpoint}

theorem nextFreeTcpPort_spec {host : List Char} {start q : ℕ}
    (h : nextFreeTcpPort isTcpPortInUse host start reserved = some q) :
    start ≤ q ∧ q ≤ 65535 ∧ q ∉ reserved ∧ isTcpPortInUse host q = false ∧
      ∀ y, start ≤ y → y < q → isTcpPortInUse host y = false → y ∈ reserved := by
  unfold nextFreeTcpPort at h
  rw [List.find?_range'_eq_some] at h
  obtain ⟨hq, hrange, hbelow⟩ := h
  rw [List.mem_range'_1] at hrange
  simp only [Bool.and_eq_true, Bool.not_eq_true', List.contains_eq_mem, decide_eq_false_iff_not] at hq
  refine ⟨hrange.1, by omega, hq.1, hq.2, ?_⟩
  intro y hy hyq hfree
  have hnot := hbelow y hy hyq
  simpa [hfree] using hnot

theorem endpoint_spec (h : c.endpoint = some e) :
    c.writeParam ≠ 0 ∧ parseTcpPath c.baseParam = some e := by
  unfold PreviewTcpChannel.endpoint at h
  split at h
  · cases h
  · rename_i hwrite
    exact ⟨hwrite, h⟩

theorem endpoint_moved (h : c.endpoint = some e) {q : ℕ} (hpos : 1 ≤ q) (hle : q ≤ 65535) :
    ({ c with baseParam := makeListenTcpPath e.host q } : PreviewTcpChannel).endpoint = some ⟨e.host, q⟩ := by
  obtain ⟨hwrite, hparse⟩ := endpoint_spec h
  obtain ⟨hhost, -, -⟩ := parseTcpPath_spec hparse
  have hmade := parseTcpPath_makeListenTcpPath hhost hpos hle
  unfold PreviewTcpChannel.endpoint
  rw [if_neg hwrite]
  exact hmade

/-- What a turn of the loop can do: leave a channel alone, keep its port, or move it. -/
theorem ensureChannel_cases (h : ensureChannel isTcpPortInUse forceRotate reserved c = some (reserved', c')) :
    (c.endpoint = none ∧ c' = c ∧ reserved' = reserved) ∨
      ∃ e, c.endpoint = some e ∧
        ((forceRotate = false ∧ isTcpPortInUse e.host e.port = false ∧ c' = c ∧
            reserved' = e.port :: reserved) ∨
          (forceRotate = true ∨ isTcpPortInUse e.host e.port = true) ∧
            ∃ q, nextFreeTcpPort isTcpPortInUse e.host (e.port + 1) (e.port :: reserved) = some q ∧
              c' = { c with baseParam := makeListenTcpPath e.host q } ∧
              reserved' = q :: e.port :: reserved) := by
  unfold ensureChannel at h
  unfold PreviewTcpChannel.endpoint
  by_cases hwrite : c.writeParam = 0
  · rw [if_pos hwrite] at h
    obtain ⟨rfl, rfl⟩ := Prod.mk.inj (Option.some.inj h)
    exact Or.inl ⟨if_pos hwrite, rfl, rfl⟩
  rw [if_neg hwrite] at h
  rw [if_neg hwrite]
  cases hparse : parseTcpPath c.baseParam with
  | none =>
    rw [hparse] at h
    obtain ⟨rfl, rfl⟩ := Prod.mk.inj (Option.some.inj h)
    exact Or.inl ⟨rfl, rfl, rfl⟩
  | some e =>
    rw [hparse] at h
    refine Or.inr ⟨e, rfl, ?_⟩
    by_cases hkeep : (!forceRotate && !isTcpPortInUse e.host e.port) = true
    · simp only [hkeep, if_true] at h
      obtain ⟨rfl, rfl⟩ := Prod.mk.inj (Option.some.inj h)
      rw [Bool.and_eq_true, Bool.not_eq_true', Bool.not_eq_true'] at hkeep
      exact Or.inl ⟨hkeep.1, hkeep.2, rfl, rfl⟩
    · have hmove : forceRotate = true ∨ isTcpPortInUse e.host e.port = true := by
        rw [Bool.and_eq_true, Bool.not_eq_true', Bool.not_eq_true', not_and_or, Bool.not_eq_false,
          Bool.not_eq_false] at hkeep
        exact hkeep
      have hfrom : (if forceRotate = true then e.port + 1
          else if isTcpPortInUse e.host e.port = true then e.port + 1 else e.port) = e.port + 1 := by
        rcases hmove with hforce | hbusy
        · rw [if_pos hforce]
        · rw [if_pos hbusy, ite_self]
      simp only [hkeep, Bool.false_eq_true, if_false, hfrom] at h
      refine Or.inr ⟨hmove, ?_⟩
      cases hnext : nextFreeTcpPort isTcpPortInUse e.host (e.port + 1) (e.port :: reserved) with
      | none =>
        rw [hnext] at h
        cases h
      | some q =>
        have hne : q ≠ e.port := by
          have := (nextFreeTcpPort_spec hnext).1
          omega
        rw [hnext] at h
        simp only [if_neg hne] at h
        obtain ⟨rfl, rfl⟩ := Prod.mk.inj (Option.some.inj h)
        exact ⟨q, rfl, rfl, rfl⟩

/-- A channel is kept as it should be, whatever becomes of the others. -/
theorem ensureChannel_kept (h : ensureChannel isTcpPortInUse forceRotate reserved c = some (reserved', c')) :
    ChannelKept isTcpPortInUse forceRotate c c' := by
  rcases ensureChannel_cases h with ⟨hnone, rfl, -⟩ | ⟨e, he, ⟨-, -, rfl, -⟩ | ⟨hmove, q, hnext, rfl, -⟩⟩
  · refine ⟨rfl, fun _ => rfl, ?_⟩
    intro e he
    rw [hnone] at he
    cases he
  · refine ⟨rfl, fun _ => rfl, fun e' he' => ⟨e', he', rfl, fun hne => absurd rfl hne, fun _ _ => rfl⟩⟩
  · obtain ⟨hlt, hle, -, hfree, -⟩ := nextFreeTcpPort_spec hnext
    constructor
    · rfl
    · intro hnone
      rw [he] at hnone
      cases hnone
    · intro e' he'
      obtain rfl := Option.some.inj (he.symm.trans he')
      refine ⟨⟨e.host, q⟩, endpoint_moved he (by omega) hle, rfl, fun _ => hfree, ?_⟩
      intro hforce hbusy
      rcases hmove with hmove | hmove
      · rw [hforce] at hmove
        cases hmove
      · rw [hbusy] at hmove
        cases hmove

end Channel

/-! ## The loop -/

section Loop

variable {isTcpPortInUse : List Char → ℕ → Bool} {forceRotate : Bool} {reserved : List ℕ}
  {c : PreviewTcpChannel} {channels : List PreviewTcpChannel}

theorem ports_cons_none (h : c.endpoint = none) : ports (c :: channels) = ports channels := by
  simp [ports, h]

theorem ports_cons_some {e : Endpoint} (h : c.endpoint = some e) :
    ports (c :: channels) = e.port :: ports channels := by
  simp [ports, h]

theorem ensureChannels_cons
    (h : (ensureChannels isTcpPortInUse forceRotate reserved (c :: channels)).2 = none) :
    ∃ reserved' c', ensureChannel isTcpPortInUse forceRotate reserved c = some (reserved', c') ∧
      (ensureChannels isTcpPortInUse forceRotate reserved' channels).2 = none ∧
      (ensureChannels isTcpPortInUse forceRotate reserved (c :: channels)).1 =
        c' :: (ensureChannels isTcpPortInUse forceRotate reserved' channels).1 := by
  cases hc : ensureChannel isTcpPortInUse forceRotate reserved c with
  | none =>
    rw [ensureChannels, hc] at h
    cases h
  | some r =>
    have hstep : ensureChannels isTcpPortInUse forceRotate reserved (c :: channels) =
        (r.2 :: (ensureChannels isTcpPortInUse forceRotate r.1 channels).1,
          (ensureChannels isTcpPortInUse forceRotate r.1 channels).2) := by
      rw [ensureChannels, hc]
    rw [hstep] at h ⊢
    exact ⟨r.1, r.2, rfl, h, rfl⟩

theorem ensureChannels_kept
    (h : (ensureChannels isTcpPortInUse forceRotate reserved channels).2 = none) :
    List.Forall₂ (ChannelKept isTcpPortInUse forceRotate) channels
      (ensureChannels isTcpPortInUse forceRotate reserved channels).1 := by
  induction channels generalizing reserved with
  | nil => exact List.Forall₂.nil
  | cons c channels ih =>
    obtain ⟨reserved', c', hc, hrest, heq⟩ := ensureChannels_cons h
    rw [heq]
    exact List.Forall₂.cons (ensureChannel_kept hc) (ih hrest)

/-- When all channels are moved, each gets a port that has not been reserved. -/
theorem ensureChannels_rotated (h : (ensureChannels isTcpPortInUse true reserved channels).2 = none) :
    (ports (ensureChannels isTcpPortInUse true reserved channels).1).Nodup ∧
      ∀ q ∈ ports (ensureChannels isTcpPortInUse true reserved channels).1, q ∉ reserved := by
  induction channels generalizing reserved with
  | nil => exact ⟨List.nodup_nil, fun q hq => absurd hq List.not_mem_nil⟩
  | cons c channels ih =>
    obtain ⟨reserved', c', hc, hrest, heq⟩ := ensureChannels_cons h
    obtain ⟨hnodup, hfresh⟩ := ih hrest
    rw [heq]
    rcases ensureChannel_cases hc with ⟨hnone, rfl, rfl⟩ | ⟨e, he, ⟨hforce, -⟩ | ⟨-, q, hnext, rfl, rfl⟩⟩
    · rw [ports_cons_none hnone]
      exact ⟨hnodup, hfresh⟩
    · cases hforce
    · obtain ⟨hlt, hle, hnot, -⟩ := nextFreeTcpPort_spec hnext
      rw [ports_cons_some (endpoint_moved he (by omega) hle), List.nodup_cons, List.forall_mem_cons]
      refine ⟨⟨fun hmem => hfresh q hmem (List.mem_cons_self ..), hnodup⟩, ?_, ?_⟩
      · exact fun hmem => hnot (List.mem_cons_of_mem _ hmem)
      · intro q' hq' hmem
        exact hfresh q' hq' (List.mem_cons_of_mem _ (List.mem_cons_of_mem _ hmem))

/-! ## Channels that are kept in place -/

/-- `Roomy` behind the ports `before`, the last one first. -/
def RoomyAfter (inUse : ℕ → Bool) (before : List ℕ) : List ℕ → Prop
  | [] => True
  | port :: ports =>
    (inUse port = false →
      ∀ a ≤ port, (before.countP fun p => a ≤ p ∧ p < port) < freePorts inUse a port) ∧
    RoomyAfter inUse (port :: before) ports

theorem roomyAfter_iff {inUse : ℕ → Bool} (before ports : List ℕ) :
    RoomyAfter inUse before ports ↔
      ∀ between port after, ports = between ++ port :: after → inUse port = false →
        ∀ a ≤ port, ((between.reverse ++ before).countP fun p => a ≤ p ∧ p < port) <
          freePorts inUse a port := by
  induction ports generalizing before with
  | nil =>
    refine ⟨fun _ between port after h => ?_, fun _ => trivial⟩
    simp at h
  | cons port ports ih =>
    rw [RoomyAfter, ih]
    constructor
    · rintro ⟨hhead, htail⟩ between port' after heq
      cases between with
      | nil =>
        obtain ⟨rfl, rfl⟩ := List.cons.inj heq
        exact hhead
      | cons p between =>
        obtain ⟨rfl, rfl⟩ := List.cons.inj heq
        rw [List.reverse_cons, List.append_assoc]
        exact htail between port' after rfl
    · intro h
      refine ⟨h [] port ports rfl, ?_⟩
      intro between port' after heq
      have hport := h (port :: between) port' after (by rw [heq, List.cons_append])
      rwa [List.reverse_cons, List.append_assoc] at hport

theorem roomy_iff {inUse : ℕ → Bool} (ports : List ℕ) : Roomy inUse ports ↔ RoomyAfter inUse [] ports := by
  rw [roomyAfter_iff]
  simp only [List.append_nil, List.countP_reverse]
  rfl

/-- One placement: what is known of the channels behind it, with the placement in the history, says it with
the placement in front of them. -/
theorem nodup_placed_iff {inUse : ℕ → Bool} {history : List (ℕ × ℕ)} {port q : ℕ} {slots ports : List ℕ}
    (hplaces : Places (fun p => inUse p = false) history)
    (hplaced : PlacedAt (fun p => inUse p = false) history port q) (hkey : port ∉ history.map Prod.fst)
    (hrest : (slots ++ q :: history.map Prod.snd).Nodup ↔
      (q :: history.map Prod.snd).Nodup ∧ RoomyAfter inUse (port :: history.map Prod.fst) ports) :
    ((q :: slots) ++ history.map Prod.snd).Nodup ↔
      (history.map Prod.snd).Nodup ∧ RoomyAfter inUse (history.map Prod.fst) (port :: ports) := by
  rw [List.cons_append, ← List.perm_middle.nodup_iff, hrest, List.nodup_cons, RoomyAfter]
  constructor
  · rintro ⟨⟨hfresh, hnodup⟩, hroomy⟩
    refine ⟨hnodup, fun hfree a ha => ?_, hroomy⟩
    have hroom := (placed_fresh_iff hplaces hplaced hnodup hkey).mp hfresh hfree a ha
    rwa [length_keysIn] at hroom
  · rintro ⟨hnodup, hroom, hroomy⟩
    refine ⟨⟨(placed_fresh_iff hplaces hplaced hnodup hkey).mpr fun hfree a ha => ?_, hnodup⟩, hroomy⟩
    rw [length_keysIn]
    exact hroom hfree a ha

/-- Behind a history without a port taken twice, one is taken twice exactly when there is no room. -/
theorem ensureChannels_nodup {host : List Char} (hhost : ∀ c ∈ channels, ∀ e ∈ c.endpoint, e.host = host)
    {history : List (ℕ × ℕ)} (hplaces : Places (fun p => isTcpPortInUse host p = false) history)
    (hreserved : ∀ y, y ∈ reserved ↔ y ∈ history.map Prod.fst ∨ y ∈ history.map Prod.snd)
    (hdistinct : (ports channels ++ history.map Prod.fst).Nodup)
    (h : (ensureChannels isTcpPortInUse false reserved channels).2 = none) :
    (ports (ensureChannels isTcpPortInUse false reserved channels).1 ++ history.map Prod.snd).Nodup ↔
      (history.map Prod.snd).Nodup ∧
        RoomyAfter (isTcpPortInUse host) (history.map Prod.fst) (ports channels) := by
  induction channels generalizing reserved history with
  | nil => simp [ensureChannels, ports, RoomyAfter]
  | cons c channels ih =>
    obtain ⟨reserved', c', hc, hrest, heq⟩ := ensureChannels_cons h
    have hhost' : ∀ c ∈ channels, ∀ e ∈ c.endpoint, e.host = host := fun c hc =>
      hhost c (List.mem_cons_of_mem _ hc)
    -- what the induction says once the channel has been placed
    have hplace : ∀ e q, c.endpoint = some e → (c'.endpoint.map Endpoint.port = some q) →
        PlacedAt (fun p => isTcpPortInUse host p = false) history e.port q →
        (∀ y, y ∈ reserved' ↔ y ∈ ((e.port, q) :: history).map Prod.fst ∨
          y ∈ ((e.port, q) :: history).map Prod.snd) →
        ((ports (c' :: (ensureChannels isTcpPortInUse false reserved' channels).1) ++
          history.map Prod.snd).Nodup ↔
        (history.map Prod.snd).Nodup ∧
          RoomyAfter (isTcpPortInUse host) (history.map Prod.fst) (ports (c :: channels))) := by
      intro e q he hq hplaced hreserved'
      obtain ⟨e', he', rfl⟩ := Option.map_eq_some_iff.mp hq
      rw [ports_cons_some he] at hdistinct ⊢
      rw [ports_cons_some he']
      have hkey : e.port ∉ history.map Prod.fst := by
        intro hmem
        exact (List.nodup_cons.mp hdistinct).1 (List.mem_append_right _ hmem)
      have hdistinct' : (ports channels ++ ((e.port, e'.port) :: history).map Prod.fst).Nodup :=
        List.perm_middle.nodup_iff.mpr hdistinct
      have hplaces' : Places (fun p => isTcpPortInUse host p = false) ((e.port, e'.port) :: history) :=
        ⟨hplaced, hplaces⟩
      exact nodup_placed_iff hplaces hplaced hkey (ih hhost' hplaces' hreserved' hdistinct' hrest)
    rw [heq]
    rcases ensureChannel_cases hc with ⟨hnone, rfl, rfl⟩ |
      ⟨e, he, ⟨-, hfree, rfl, rfl⟩ | ⟨hbusy, q, hnext, rfl, rfl⟩⟩
    · rw [ports_cons_none hnone] at hdistinct ⊢
      rw [ports_cons_none hnone]
      exact ih hhost' hplaces hreserved hdistinct hrest
    · -- the channel keeps its port
      obtain rfl : e.host = host := hhost c' (List.mem_cons_self ..) e he
      refine hplace e e.port he (by rw [he]; rfl) ?_ ?_
      · exact ⟨fun _ => rfl, fun hnot => absurd hfree hnot, fun y hy hlt => absurd hy (by omega)⟩
      · intro y
        simp only [List.mem_cons, List.map_cons, hreserved y]
        tauto
    · -- the channel is moved to the next port that is neither reserved nor in use
      obtain rfl : e.host = host := hhost c (List.mem_cons_self ..) e he
      obtain ⟨hlt, hle, hnot, hfree, hbetween⟩ := nextFreeTcpPort_spec hnext
      have hbusy : isTcpPortInUse e.host e.port = true := by
        rcases hbusy with hforce | hbusy
        · cases hforce
        · exact hbusy
      refine hplace e q he (by rw [endpoint_moved he (by omega) hle]; rfl) ?_ ?_
      · constructor
        · intro hown
          rw [hbusy] at hown
          cases hown
        · intro _
          refine ⟨by omega, hfree, fun hmem => hnot (List.mem_cons_of_mem _ ?_)⟩
          exact (hreserved q).mpr (Or.inr hmem)
        · intro y hy hyq hyfree
          have hne : y ≠ e.port := by
            rintro rfl
            rw [hbusy] at hyfree
            cases hyfree
          rcases List.mem_cons.mp (hbetween y (by omega) hyq hyfree) with heq | hmem
          · exact absurd heq hne
          · rcases (hreserved y).mp hmem with hkey | htaken
            · exact hplaces.taken_of_key hyfree hkey
            · exact htaken
      · intro y
        simp only [List.mem_cons, List.map_cons, hreserved y]
        tauto

end Loop

/-! ## The result -/

/-- When the loop finds a port for every channel it moves, the ports are distinct again exactly when all
channels are moved, or there is room below every port that is kept. -/
theorem portsKept_iff_roomy (isTcpPortInUse : List Char → ℕ → Bool) (forceRotate : Bool)
    (channels : PreviewTcpChannels) (host : List Char)
    (hhost : ∀ c ∈ channels.toList, ∀ e ∈ c.endpoint, e.host = host) (hdistinct : (ports channels.toList).Nodup)
    (hdone : (ensurePreviewTcpPortsFree isTcpPortInUse forceRotate channels).2 = none) :
    PortsKept isTcpPortInUse forceRotate channels.toList
        (ensurePreviewTcpPortsFree isTcpPortInUse forceRotate channels).1 ↔
      forceRotate = true ∨ Roomy (isTcpPortInUse host) (ports channels.toList) := by
  have hkept := ensureChannels_kept hdone
  have hiff : PortsKept isTcpPortInUse forceRotate channels.toList
      (ensurePreviewTcpPortsFree isTcpPortInUse forceRotate channels).1 ↔
      (ports (ensurePreviewTcpPortsFree isTcpPortInUse forceRotate channels).1).Nodup :=
    ⟨fun h => h.distinct, fun h => ⟨h, hkept⟩⟩
  rw [hiff]
  cases forceRotate with
  | true => exact ⟨fun _ => Or.inl rfl, fun _ => (ensureChannels_rotated hdone).1⟩
  | false =>
    have hplaces : Places (fun p => isTcpPortInUse host p = false) [] := trivial
    have hnodup := ensureChannels_nodup hhost hplaces (by simp) (by simpa using hdistinct) hdone
    rw [List.map_nil, List.map_nil, List.append_nil] at hnodup
    unfold ensurePreviewTcpPortsFree
    rw [hnodup, roomy_iff]
    simp

/-! ## Two calls -/

/-- PrvImg and PrvImg1 on the given ports of one host; the other channels are not enabled. -/
def previewChannels (prvImgPort prvImg1Port : ℕ) : PreviewTcpChannels where
  prvImg := ⟨1, makeListenTcpPath "localhost".toList prvImgPort⟩
  prvImg1 := ⟨1, makeListenTcpPath "localhost".toList prvImg1Port⟩
  img := ⟨0, []⟩
  prvHst := ⟨0, []⟩

/-- Port 8088 is in use. -/
def busy8088 (_ : List Char) (port : ℕ) : Bool := port == 8088

theorem freePorts_pos {inUse : ℕ → Bool} {a port : ℕ} (hfree : inUse port = false) (ha : a ≤ port) :
    0 < freePorts inUse a port := by
  refine Finset.card_pos.mpr ⟨port, ?_⟩
  rw [Finset.mem_filter, Finset.mem_Icc]
  exact ⟨⟨ha, le_refl port⟩, hfree⟩

/-- PrvImg1 is moved past the port of PrvImg. -/
theorem portsKept_later_moved :
    PortsKept busy8088 false (previewChannels 8089 8088).toList
      (ensurePreviewTcpPortsFree busy8088 false (previewChannels 8089 8088)).1 := by
  have hports : ports (previewChannels 8089 8088).toList = [8089, 8088] := by decide +kernel
  have hhost : ∀ c ∈ (previewChannels 8089 8088).toList, ∀ e ∈ c.endpoint, e.host = "localhost".toList := by
    decide +kernel
  have hdone : (ensurePreviewTcpPortsFree busy8088 false (previewChannels 8089 8088)).2 = none := by
    decide +kernel
  refine (portsKept_iff_roomy busy8088 false (previewChannels 8089 8088) "localhost".toList hhost
    (by rw [hports]; decide) hdone).mpr (Or.inr ?_)
  rw [hports, roomy_iff]
  refine ⟨fun hfree a ha => ?_, fun hfree => absurd hfree (by decide), trivial⟩
  exact freePorts_pos hfree ha

/-- With its port in use, PrvImg is moved to the port of PrvImg1. -/
theorem ports_collide :
    (∀ c ∈ (previewChannels 8088 8089).toList, ∀ e ∈ c.endpoint, e.host = "localhost".toList) ∧
      (ports (previewChannels 8088 8089).toList).Nodup ∧
      (ensurePreviewTcpPortsFree busy8088 false (previewChannels 8088 8089)).2 = none ∧
      ¬ PortsKept busy8088 false (previewChannels 8088 8089).toList
        (ensurePreviewTcpPortsFree busy8088 false (previewChannels 8088 8089)).1 := by
  have hports : ports (ensurePreviewTcpPortsFree busy8088 false (previewChannels 8088 8089)).1 =
      [8089, 8089] := by
    decide +kernel
  refine ⟨by decide +kernel, by decide +kernel, by decide +kernel, fun h => ?_⟩
  have hdistinct := h.distinct
  rw [hports] at hdistinct
  exact absurd hdistinct (by decide)

end ADTimePix3.Acquire
