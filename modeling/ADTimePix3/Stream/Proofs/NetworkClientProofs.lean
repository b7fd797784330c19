import ADTimePix3.Stream.NetworkClient

/-!
# What the network client receives

`Ready` clients are connected and still deliver some data. A `receive` delivers a beginning of it,
`receive_exact` as much of it as asked for; neither loses a cut of the data that lies further on.
-/

namespace ADTimePix3.Stream

open Chunks

namespace NetworkClient

/-- The client is connected and will deliver the data `xs`. -/
structure Ready (client : NetworkClient) (xs : List UInt8) : Prop where
  connected : client.connected = true
  delivers : Delivers client.pending xs

/-- The cuts of the data from position `n` on are still there, `n` bytes later. -/
def KeepsCuts (client : NetworkClient) (n : ℕ) (client' : NetworkClient) : Prop :=
  ∀ m, n ≤ m → Ends m client.pending → Ends (m - n) client'.pending

variable {client client' client'' : NetworkClient} {xs : List UInt8} {n m size : ℕ}

theorem KeepsCuts.refl (client : NetworkClient) : KeepsCuts client 0 client := fun _ _ h => h

theorem KeepsCuts.trans (h : KeepsCuts client n client') (h' : KeepsCuts client' m client'') :
    KeepsCuts client (n + m) client'' := by
  intro k hk hends
  have hends' := h' (k - n) (by omega) (h k (by omega) hends)
  rwa [Nat.sub_sub] at hends'

theorem receive_of_connected (h : client.connected = true) (max_size : ℕ) :
    client.receive max_size =
      (some (next max_size client.pending).1,
        { connected := !(next max_size client.pending).1.isEmpty
          pending := (next max_size client.pending).2 }) := by
  rw [receive, if_pos h]

theorem length_receive_le {max_size : ℕ} {bytes : List UInt8}
    (h : client.receive max_size = (some bytes, client')) : bytes.length ≤ max_size := by
  unfold NetworkClient.receive at h
  by_cases hcon : client.connected = true
  · rw [if_pos hcon] at h
    have hbytes := Option.some.inj (congrArg Prod.fst h)
    rw [← hbytes]
    exact length_next_le max_size client.pending
  · rw [if_neg hcon] at h
    cases congrArg Prod.fst h

/-- A receive delivers a non-empty beginning of the data, and does not cross a cut. -/
theorem Ready.receive (h : Ready client xs) (hxs : xs ≠ []) (max_size : ℕ) (hmax : 0 < max_size) :
    ∃ bytes zs client', client.receive max_size = (some bytes, client') ∧ bytes ≠ [] ∧
      bytes.length ≤ max_size ∧ xs = bytes ++ zs ∧ Ready client' zs ∧
      KeepsCuts client bytes.length client' ∧ ∀ n, 0 < n → Ends n client.pending → bytes.length ≤ n := by
  obtain ⟨hne, hlen, zs, hzs, hdel⟩ := h.delivers.next hxs hmax
  refine ⟨_, zs, _, receive_of_connected h.connected max_size, hne, hlen, hzs, ⟨?_, hdel⟩, ?_, ?_⟩
  · show (!(next max_size client.pending).1.isEmpty) = true
    rw [Bool.not_eq_true', List.isEmpty_eq_false_iff]
    exact hne
  · intro k hk hends
    have hpos : 0 < k := Nat.lt_of_lt_of_le (List.length_pos_iff.mpr hne) hk
    exact (hends.next hpos).2
  · intro k hk hends
    exact (hends.next hk).1

/-- When all data has been received the next receive finds the connection closed. -/
theorem Ready.receive_nil (h : Ready client []) (max_size : ℕ) :
    ∃ client', client.receive max_size = (some [], client') := by
  refine ⟨⟨false, []⟩, ?_⟩
  rw [receive_of_connected h.connected, h.delivers.eq_nil]
  rfl

/-- With at least as many turns as bytes, the loop receives them all. -/
theorem Ready.receiveLoop {turns : ℕ} (hturns : size ≤ turns) (h : Ready client xs)
    (hsize : size ≤ xs.length) :
    ∃ client', receiveLoop turns size client = (some (xs.take size), client') ∧
      Ready client' (xs.drop size) ∧ KeepsCuts client size client' := by
  induction turns generalizing client xs size with
  | zero =>
    obtain rfl : size = 0 := by omega
    exact ⟨client, by rw [NetworkClient.receiveLoop, List.take_zero], h, KeepsCuts.refl client⟩
  | succ turns ih =>
    cases size with
    | zero => exact ⟨client, by rw [NetworkClient.receiveLoop, List.take_zero], h, KeepsCuts.refl client⟩
    | succ size =>
      have hxs : xs ≠ [] := List.ne_nil_of_length_pos (by omega)
      obtain ⟨bytes, zs, c, hrecv, hne, hlen, rfl, hready, hcuts, -⟩ :=
        h.receive hxs (size + 1) (Nat.succ_pos size)
      obtain ⟨b, bytes, rfl⟩ := List.exists_cons_of_ne_nil hne
      have hpos : 0 < (b :: bytes).length := List.length_pos_iff.mpr hne
      rw [List.length_append] at hsize
      obtain ⟨client', hloop, hready', hcuts'⟩ :=
        ih (show size + 1 - (b :: bytes).length ≤ turns by omega) hready (by omega)
      refine ⟨client', ?_, ?_, ?_⟩
      · rw [NetworkClient.receiveLoop, hrecv]
        show (Option.map _ (NetworkClient.receiveLoop turns (size + 1 - (b :: bytes).length) c).1, _) = _
        rw [hloop, Option.map_some, List.take_append, List.take_of_length_le hlen]
      · rw [List.drop_append, List.drop_of_length_le hlen, List.nil_append]
        exact hready'
      · have hcuts'' := hcuts.trans hcuts'
        rwa [Nat.add_sub_cancel' hlen] at hcuts''

/-- `receive_exact` delivers the bytes asked for, and leaves the rest. -/
theorem Ready.receive_exact {tail : List UInt8} (h : Ready client (xs ++ tail)) :
    ∃ client', client.receive_exact xs.length = (some xs, client') ∧ Ready client' tail ∧
      KeepsCuts client xs.length client' := by
  have hle : xs.length ≤ (xs ++ tail).length := by rw [List.length_append]; omega
  obtain ⟨client', hloop, hready, hcuts⟩ := h.receiveLoop (Nat.le_refl xs.length) hle
  rw [List.take_left] at hloop
  rw [List.drop_left] at hready
  exact ⟨client', hloop, hready, hcuts⟩

/-- What takes from a client exactly as many bytes as it asks for. -/
def TakesExactly (take : NetworkClient → ℕ → Option (List UInt8) × NetworkClient) : Prop :=
  ∀ {client : NetworkClient} {xs tail : List UInt8}, Ready client (xs ++ tail) →
    ∃ client', take client xs.length = (some xs, client') ∧ Ready client' tail ∧
      KeepsCuts client xs.length client'

/-- A function that asks for nothing when it needs nothing, and else calls `receive_exact`. -/
theorem takesExactly_of_receive_exact {take : NetworkClient → ℕ → Option (List UInt8) × NetworkClient}
    (hzero : ∀ client, take client 0 = (some [], client))
    (hpos : ∀ client size, client.connected = true → 0 < size → take client size = client.receive_exact size) :
    TakesExactly take := by
  intro client xs tail h
  rcases Nat.eq_zero_or_pos xs.length with hnil | hne
  · obtain rfl : xs = [] := List.length_eq_zero_iff.mp hnil
    exact ⟨client, hzero client, h, KeepsCuts.refl client⟩
  · rw [hpos client xs.length h.connected hne]
    exact h.receive_exact

end NetworkClient

end ADTimePix3.Stream
