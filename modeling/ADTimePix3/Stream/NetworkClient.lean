import ADTimePix3.Lib.Chunks

/-!
# The network client

`NetworkClient::receive` and `NetworkClient::receive_exact` (`network_client.cpp`). The peer's data comes in
pieces, one for each time `recv` finds something to return; when no piece is left the peer has closed the
connection. For the read loops an error of `recv` is the same as a close, and is not modelled apart.
-/

namespace ADTimePix3.Stream

/-- A connected socket with the pieces of data still to come. -/
structure NetworkClient where
  connected : Bool
  pending : List (List UInt8)

namespace NetworkClient

/-- `receive`: the bytes `recv` returned, none of them when it returned 0, and `none` when it returned -1. -/
def receive (client : NetworkClient) (max_size : ℕ) : Option (List UInt8) × NetworkClient :=
  if client.connected then
    let (bytes, pending) := Chunks.next max_size client.pending
    -- recv returns 0 when the peer has closed, and when nothing was asked for
    (some bytes, { connected := !bytes.isEmpty, pending := pending })
  else (none, client)

/-- The loop of `receive_exact` with `size` bytes to go, at least one of them received by each turn. -/
def receiveLoop : (turns size : ℕ) → NetworkClient → Option (List UInt8) × NetworkClient
  | _, 0, client => (some [], client)
  | 0, _ + 1, client => (none, client)
  | turns + 1, size + 1, client =>
    match client.receive (size + 1) with
    | (some (b :: bytes), client) =>
      let (rest, client) := receiveLoop turns (size + 1 - (b :: bytes).length) client
      (rest.map ((b :: bytes) ++ ·), client)
    | (_, client) => (none, client)

/-- `receive_exact`: `none` is a return value of `false`. -/
def receive_exact (client : NetworkClient) (size : ℕ) : Option (List UInt8) × NetworkClient :=
  receiveLoop size size client

end NetworkClient

end ADTimePix3.Stream
