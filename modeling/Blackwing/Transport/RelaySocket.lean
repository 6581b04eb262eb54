import Blackwing.Relay.System
import Blackwing.Relay.Wire

/-!
# The relayed socket

`bw-transport/src/relay_socket.rs`: the UDP socket under Quinn. It puts the relay token in
front of a packet for the relay and takes 32 bytes off a packet from the relay; other traffic
passes as it is. Between two such sockets stands the loop of `run_relay`, which takes any
datagram that begins with `CONTROL_MAGIC` for a control message. The token is random and may
begin so.

* `RelayUdpSocket.trySend`, `RelayUdpSocket.pollRecv`: the two calls of Quinn.
* `pollRecv_relayed`: what the receiving side hands to Quinn.
* `relay_transparent_iff`: a packet passes the relay unchanged unless its token begins with
  the marker.
-/

namespace Blackwing.Transport

open Blackwing.Relay

/-- `MAX_RELAY_PAYLOAD`. -/
def maxRelayPayload : Nat := 1200

/-- `MAX_RELAY_PACKET`. -/
def maxRelayPacket : Nat := 1232

/-- `io::ErrorKind`, as far as it is told apart. -/
inductive IoErrorKind where
  | wouldBlock
  | other
deriving DecidableEq

/-- `Poll`. -/
inductive Poll (α : Type) where
  | ready (a : α)
  | pending
deriving DecidableEq

/-- `Transmit`. -/
structure Transmit where
  destination : SocketAddr
  contents : List UInt8

/-- `RecvMeta`. -/
structure RecvMeta where
  addr : SocketAddr
  len : Nat
  stride : Nat
deriving DecidableEq

/-- The buffers of Quinn and what it is told about them: `bufs` and `meta`. -/
structure RecvBuffers where
  bufs : List (List UInt8)
  metas : List RecvMeta
deriving DecidableEq

/-- The first datagram that Quinn finds in the buffers, with its source. -/
def RecvBuffers.yielded (b : RecvBuffers) : Option (SocketAddr × List UInt8) :=
  match b.bufs, b.metas with
  | buf :: _, m :: _ => some (m.addr, buf.take m.len)
  | _, _ => none

/-- There is a first buffer, with its metadata, for a packet of `n` bytes. -/
def RecvBuffers.Fits (n : Nat) (b : RecvBuffers) : Prop :=
  ∃ buf bufs m metas, b = ⟨buf :: bufs, m :: metas⟩ ∧ n ≤ buf.length

/-- The datagrams that the inner socket has sent. -/
abbrev Sent : Type := List (SocketAddr × List UInt8)

/-- `UdpSocket::try_send_to`, with the error it reports, if any. -/
def trySendTo (error : Option IoErrorKind) (buf : List UInt8) (dest : SocketAddr) :
    Call Sent IoErrorKind Unit :=
  match error with
  | some e => Call.fail e
  | none => Call.update fun sent => sent ++ [(dest, buf)]

/-- `RelayUdpSocket`, without its inner socket. -/
structure RelayUdpSocket where
  relayAddr : SocketAddr
  relayToken : RelayToken

namespace RelayUdpSocket

/-- `RelayUdpSocket::try_send`. An error keeps its kind. -/
def trySend (sock : RelayUdpSocket) (error : Option IoErrorKind) (transmit : Transmit) :
    Call Sent IoErrorKind Unit :=
  if transmit.destination = sock.relayAddr then
    -- a packet that is too large is dropped without an error
    if transmit.contents.length > maxRelayPayload then pure ()
    else trySendTo error (sock.relayToken.toList ++ transmit.contents) transmit.destination
  else trySendTo error transmit.contents transmit.destination

/-- `meta[0] = RecvMeta { addr, len, stride: len, .. }`. -/
def setMeta (addr : SocketAddr) (len : Nat) : Call RecvBuffers IoErrorKind Unit := do
  let b ← Call.getState
  let metas ← Call.ofOutcome (Outcome.store b.metas 0 ⟨addr, len, len⟩)
  Call.update fun b => { b with metas := metas }

/-- The packet is copied into Quinn's first buffer, or dropped if the buffer is too small. -/
def handOver (addr : SocketAddr) (buf : List UInt8) (bufs : List (List UInt8))
    (payload : List UInt8) : Call RecvBuffers IoErrorKind (Poll Nat) :=
  if buf.length < payload.length then do
    setMeta addr 0
    pure (.ready 1)
  else do
    Call.update fun b => { b with bufs := (payload ++ buf.drop payload.length) :: bufs }
    setMeta addr payload.length
    pure (.ready 1)

/-- `RelayUdpSocket::poll_recv`, with the result of `poll_recv_from` on the inner socket. A datagram
longer than the temporary buffer is cut. -/
def pollRecv (sock : RelayUdpSocket)
    (received : Poll (Except IoErrorKind (SocketAddr × List UInt8))) :
    Call RecvBuffers IoErrorKind (Poll Nat) := do
  let b ← Call.getState
  match b.bufs, received with
  | [], _ => pure (.ready 0)
  | _ :: _, .pending => pure .pending
  | _ :: _, .ready (.error e) => Call.fail e
  | buf :: bufs, .ready (.ok (addr, datagram)) =>
    let tmp := datagram.take maxRelayPacket
    if addr = sock.relayAddr then
      if tmp.length < relayHeaderLen then do
        setMeta addr 0
        pure (.ready 1)
      else handOver addr buf bufs (tmp.drop relayHeaderLen)
    else handOver addr buf bufs tmp

end RelayUdpSocket

/-! ## From one socket to the other -/

/-- `run_relay` takes the datagram for data. -/
def ClassifiedAsData (datagram : List UInt8) : Prop :=
  (datagram.take maxDatagram).take controlMagic.length ≠ controlMagic

instance (datagram : List UInt8) : Decidable (ClassifiedAsData datagram) :=
  inferInstanceAs (Decidable (_ ≠ _))

/-- The relay passes the packet on: the datagram that the sender writes is taken for data, and if
the lookup admits it, the relay forwards it and the socket of the other end, wherever that one
reaches the relay, hands exactly the packet to Quinn. -/
def Transparent (C : RelayCrypto) (W : MessageSerde) (env : Env) (s : RelayServer)
    (sock : RelayUdpSocket) (src : SocketAddr) (payload : List UInt8) : Prop :=
  ∃ datagram, sock.trySend none ⟨sock.relayAddr, payload⟩ [] = (.ok (), [(sock.relayAddr, datagram)]) ∧
    ClassifiedAsData datagram ∧
    ∀ destination, (ForwardingTable.getDestination env sock.relayToken src
        (UInt64.ofNat datagram.length) s.forwarding).1 = .ok destination →
      (handleDatagram C W env src datagram s).1 = some (destination, datagram) ∧
      ∀ (other : RelayUdpSocket) (buffers : RecvBuffers), buffers.Fits payload.length → ∃ after,
        other.pollRecv (.ready (.ok (other.relayAddr, datagram))) buffers = (.ok (.ready 1), after) ∧
        after.yielded = some (other.relayAddr, payload)

namespace RelaySocketLemmas

variable {sock : RelayUdpSocket} {payload : List UInt8}

theorem trySend_relayed (h : payload.length ≤ maxRelayPayload) (sent : Sent) :
    sock.trySend none ⟨sock.relayAddr, payload⟩ sent =
      (.ok (), sent ++ [(sock.relayAddr, sock.relayToken.toList ++ payload)]) := by
  rw [RelayUdpSocket.trySend, if_pos rfl, if_neg (Nat.not_lt.mpr h)]
  rfl

theorem handOver_fits {addr : SocketAddr} {buf : List UInt8} {bufs : List (List UInt8)} {m : RecvMeta}
    {metas : List RecvMeta} (h : payload.length ≤ buf.length) :
    RelayUdpSocket.handOver addr buf bufs payload ⟨buf :: bufs, m :: metas⟩ =
      (.ok (.ready 1), ⟨(payload ++ buf.drop payload.length) :: bufs,
        ⟨addr, payload.length, payload.length⟩ :: metas⟩) := by
  rw [RelayUdpSocket.handOver, if_neg (Nat.not_lt.mpr h)]
  rfl

/-- A datagram from the relay reaches Quinn without its first 32 bytes. -/
theorem pollRecv_relayed {token : RelayToken} {buffers : RecvBuffers}
    (hlen : payload.length ≤ maxRelayPayload) (hfits : buffers.Fits payload.length) :
    ∃ after, sock.pollRecv (.ready (.ok (sock.relayAddr, token.toList ++ payload))) buffers =
        (.ok (.ready 1), after) ∧ after.yielded = some (sock.relayAddr, payload) := by
  obtain ⟨buf, bufs, m, metas, rfl, hbuf⟩ := hfits
  have hwhole : (token.toList ++ payload).take maxRelayPacket = token.toList ++ payload := by
    refine List.take_of_length_le ?_
    rw [List.length_append, Bytes.length_toList]
    exact Nat.add_le_add_left hlen 32
  have hstrip : (token.toList ++ payload).drop relayHeaderLen = payload :=
    List.drop_left' token.length_toList
  have hcall : sock.pollRecv (.ready (.ok (sock.relayAddr, token.toList ++ payload)))
      ⟨buf :: bufs, m :: metas⟩ = (.ok (.ready 1), ⟨(payload ++ buf.drop payload.length) :: bufs,
        ⟨sock.relayAddr, payload.length, payload.length⟩ :: metas⟩) := by
    rw [RelayUdpSocket.pollRecv, Call.getState_bind]
    dsimp only
    rw [hwhole, if_pos rfl, if_neg, hstrip]
    · exact handOver_fits hbuf
    · rw [List.length_append, Bytes.length_toList]
      exact Nat.not_lt.mpr (Nat.le_add_right _ _)
  exact ⟨_, hcall, by simp [RecvBuffers.yielded]⟩

/-- The marker is shorter than the token, so the payload does not matter. -/
theorem classified_iff (token : RelayToken) (payload : List UInt8) :
    ClassifiedAsData (token.toList ++ payload) ↔ ¬ controlMagic <+: token.toList := by
  have hshort : controlMagic.length ≤ token.toList.length := by
    rw [Bytes.length_toList]
    decide
  rw [ClassifiedAsData, List.take_take, List.take_append_of_le_length
    (Nat.le_trans (Nat.min_le_left _ _) hshort), Nat.min_eq_left (by decide), List.prefix_iff_eq_take,
    eq_comm]

/-- What the relay does with data whose lookup succeeds. -/
theorem handleDatagram_forwards {C : RelayCrypto} {W : MessageSerde} {env : Env} {s : RelayServer}
    {src destination : SocketAddr} {token : RelayToken} (hlen : payload.length ≤ maxRelayPayload)
    (hdata : ClassifiedAsData (token.toList ++ payload))
    (hdest : (ForwardingTable.getDestination env token src
      (UInt64.ofNat (token.toList ++ payload).length) s.forwarding).1 = .ok destination) :
    (handleDatagram C W env src (token.toList ++ payload) s).1 =
      some (destination, token.toList ++ payload) := by
  have hwhole : (token.toList ++ payload).take maxDatagram = token.toList ++ payload := by
    refine List.take_of_length_le ?_
    rw [List.length_append, Bytes.length_toList]
    exact Nat.le_trans (Nat.add_le_add_left hlen 32) (by decide)
  have htoken : Bytes.ofList? relayHeaderLen ((token.toList ++ payload).take relayHeaderLen) =
      some token := by
    have htake : (token.toList ++ payload).take relayHeaderLen = token.toList :=
      List.take_left' token.length_toList
    rw [htake]
    exact Bytes.ofList?_toList token
  rw [ClassifiedAsData, hwhole] at hdata
  have hfound : (handleData env src (token.toList ++ payload) s).1 = some destination := by
    rw [handleData, htoken]
    dsimp only
    rcases hcall : ForwardingTable.getDestination env token src
      (UInt64.ofNat (token.toList ++ payload).length) s.forwarding with ⟨r, f⟩
    rw [hcall] at hdest
    cases hdest
    rfl
  rw [handleDatagram]
  dsimp only
  rw [hwhole, if_neg hdata]
  dsimp only
  rw [hfound]
  rfl

end RelaySocketLemmas

open RelaySocketLemmas

/-- A packet of at most 1200 bytes passes the relay unchanged exactly if the token of its session
does not begin with the marker of control messages. -/
theorem relay_transparent_iff (C : RelayCrypto) (W : MessageSerde) (env : Env) (s : RelayServer)
    (sock : RelayUdpSocket) (src : SocketAddr) {payload : List UInt8}
    (hlen : payload.length ≤ maxRelayPayload) :
    Transparent C W env s sock src payload ↔ ¬ controlMagic <+: sock.relayToken.toList := by
  have hsent := @trySend_relayed sock payload hlen []
  constructor
  · rintro ⟨datagram, hsent', hdata, -⟩
    rw [hsent] at hsent'
    cases hsent'
    exact (classified_iff _ _).mp hdata
  · intro hmagic
    have hdata := (classified_iff sock.relayToken payload).mpr hmagic
    refine ⟨_, hsent, hdata, fun destination hdest => ?_⟩
    exact ⟨handleDatagram_forwards hlen hdata hdest, fun _ _ hfits => pollRecv_relayed hlen hfits⟩

/-- A pair of devices with the given token, both bound to their addresses. -/
def relayedSession (token : RelayToken) : List Op :=
  plainPairing 1 2 (Bytes.fill 16 7) token 5 ++
    [.message ((plainClient 1).request (.establishRelay (Bytes.fill 16 7) 5))
        (some (.v4 (Bytes.fill 4 1) 1001)) (.at 5 none),
      .message ((plainClient 2).request (.establishRelay (Bytes.fill 16 7) 5))
        (some (.v4 (Bytes.fill 4 2) 1002)) (.at 5 none)]

theorem short_packet_transparent :
    Transparent .plain .canonical (.at 6 none)
      (relayAfter .plain rateLimitBytesPerSec sessionExpiryMs (relayedSession (Bytes.fill 32 9)))
      ⟨.v4 (Bytes.fill 4 3) 9999, Bytes.fill 32 9⟩ (.v4 (Bytes.fill 4 1) 1001) [1, 2, 3] :=
  (relay_transparent_iff .plain .canonical (.at 6 none) _ ⟨_, Bytes.fill 32 9⟩ _ (by decide)).mpr
    (by decide)

/-- A token that begins with the marker. -/
def markedToken : RelayToken := ⟨controlMagic ++ List.replicate 26 0, rfl⟩

/-- The relay has issued the token, the session is active and the lookup would forward the packet,
but the relay takes it for a control message and drops it. -/
theorem marked_token_taken_for_control :
    ((relayAfter .plain rateLimitBytesPerSec sessionExpiryMs
        (relayedSession markedToken)).forwarding.contexts.lookup (Bytes.fill 16 7)).map
          ForwardingContext.state = some .relayActive ∧
      (ForwardingTable.getDestination (.at 6 none) markedToken (.v4 (Bytes.fill 4 1) 1001)
        (UInt64.ofNat (markedToken.toList ++ [1, 2, 3]).length)
        (relayAfter .plain rateLimitBytesPerSec sessionExpiryMs
          (relayedSession markedToken)).forwarding).1 = .ok (.v4 (Bytes.fill 4 2) 1002) ∧
      ¬ ClassifiedAsData (markedToken.toList ++ [1, 2, 3]) ∧
      (handleDatagram .plain .canonical (.at 6 none) (.v4 (Bytes.fill 4 1) 1001)
        (markedToken.toList ++ [1, 2, 3]) (relayAfter .plain rateLimitBytesPerSec sessionExpiryMs
          (relayedSession markedToken))).1 = none := by
  decide +kernel

end Blackwing.Transport
