import ADTimePix3.Acquire.TcpPath
import Mathlib.Order.Interval.Finset.Nat

/-!
# Ports of the preview channels

`ADTimePix::ensurePreviewTcpPortsFree` (`acquire.cpp`): channels whose port is in use, or all of them, get
another one. Which ports are in use is a parameter, fixed during the call.

Left out: what follows the loop (`syncTcpStreamEndpoints`, `fileWriter`), which reads the paths only.
-/

namespace ADTimePix3.Acquire

/-- A row of the table in `ensurePreviewTcpPortsFree`: the values of its two parameters. -/
structure PreviewTcpChannel where
  writeParam : ℤ
  baseParam : List Char
deriving DecidableEq

/-- The table, in its order. -/
structure PreviewTcpChannels where
  prvImg : PreviewTcpChannel
  prvImg1 : PreviewTcpChannel
  img : PreviewTcpChannel
  prvHst : PreviewTcpChannel

def PreviewTcpChannels.toList (c : PreviewTcpChannels) : List PreviewTcpChannel :=
  [c.prvImg, c.prvImg1, c.img, c.prvHst]

section Loop

variable (isTcpPortInUse : List Char → ℕ → Bool) (forceRotate : Bool)

def nextFreeTcpPort (host : List Char) (startPort : ℕ) (reserved : List ℕ) : Option ℕ :=
  (List.range' startPort (65536 - startPort)).find? fun port =>
    !reserved.contains port && !isTcpPortInUse host port

/-- One turn of the loop: the reserved ports and the channel after it; none when there is no free port. -/
def ensureChannel (reservedPorts : List ℕ) (channel : PreviewTcpChannel) :
    Option (List ℕ × PreviewTcpChannel) :=
  if channel.writeParam = 0 then some (reservedPorts, channel)
  else
    match parseTcpPath channel.baseParam with
    | none => some (reservedPorts, channel)
    | some ⟨host, port⟩ =>
      let reservedPorts := port :: reservedPorts
      let portBusy := isTcpPortInUse host port
      if !forceRotate && !portBusy then some (reservedPorts, channel)
      else
        let searchFrom := if forceRotate then port + 1 else if portBusy then port + 1 else port
        match nextFreeTcpPort isTcpPortInUse host searchFrom reservedPorts with
        | none => none
        | some candidate =>
          if candidate = port then some (candidate :: reservedPorts, channel)
          else
            some (candidate :: reservedPorts, { channel with baseParam := makeListenTcpPath host candidate })

/-- The channels after the loop, and the status message of the error that ended it. -/
def ensureChannels : List ℕ → List PreviewTcpChannel → List PreviewTcpChannel × Option String
  | _, [] => ([], none)
  | reservedPorts, channel :: channels =>
    match ensureChannel isTcpPortInUse forceRotate reservedPorts channel with
    | none =>
      (channel :: channels,
        some "Preview TCP ports in use; restart Serval or choose different preview ports")
    | some (reservedPorts, channel') =>
      let rest := ensureChannels reservedPorts channels
      (channel' :: rest.1, rest.2)

def ensurePreviewTcpPortsFree (channels : PreviewTcpChannels) : List PreviewTcpChannel × Option String :=
  ensureChannels isTcpPortInUse forceRotate [] channels.toList

end Loop

/-! ## What the ports should be -/

/-- Host and port of an enabled TCP channel. -/
def PreviewTcpChannel.endpoint (c : PreviewTcpChannel) : Option Endpoint :=
  if c.writeParam = 0 then none else parseTcpPath c.baseParam

/-- The ports of the enabled TCP channels, in the order of the table. -/
def ports (channels : List PreviewTcpChannel) : List ℕ :=
  channels.filterMap fun c => c.endpoint.map Endpoint.port

/-- A channel that is moved gets a port that is not in use; unless all are moved, one whose port is not in use
keeps it. Nothing else of a channel changes. -/
structure ChannelKept (isTcpPortInUse : List Char → ℕ → Bool) (forceRotate : Bool)
    (c c' : PreviewTcpChannel) : Prop where
  writeParam : c'.writeParam = c.writeParam
  other : c.endpoint = none → c' = c
  moved : ∀ e ∈ c.endpoint, ∃ e' ∈ c'.endpoint, e'.host = e.host ∧
    (e'.port ≠ e.port → isTcpPortInUse e'.host e'.port = false) ∧
    (forceRotate = false → isTcpPortInUse e.host e.port = false → c' = c)

structure PortsKept (isTcpPortInUse : List Char → ℕ → Bool) (forceRotate : Bool)
    (channels channels' : List PreviewTcpChannel) : Prop where
  distinct : (ports channels').Nodup
  kept : List.Forall₂ (ChannelKept isTcpPortInUse forceRotate) channels channels'

/-- The number of ports from `a` to `port` that are not in use. -/
def freePorts (inUse : ℕ → Bool) (a port : ℕ) : ℕ := ((Finset.Icc a port).filter fun p => inUse p = false).card

/-- Up to a channel's port that is not in use there are always more such ports than channels before it: from any
port `a` on, fewer channels before it have a port from `a` on below its own than there are ports from `a` to its
own that are not in use. -/
def Roomy (inUse : ℕ → Bool) (ports : List ℕ) : Prop :=
  ∀ before port after, ports = before ++ port :: after → inUse port = false →
    ∀ a ≤ port, (before.countP fun p => a ≤ p ∧ p < port) < freePorts inUse a port

end ADTimePix3.Acquire
