import Blackwing.Lib.Cbor
import Blackwing.Relay.Server

/-!
# Datagrams of the relay

The loop of `run_relay` (`bw-relay/src/bin/relay.rs`) for one datagram, without the
development mode: a datagram that begins with `CONTROL_MAGIC` carries a control message
in CBOR and is answered, any other one is forwarded by its token.

`ciborium` at `RelayMessage` is a parameter (`MessageSerde`), of which only
`MessageSerde.Specified` is assumed: the encodings of a poll and of its answer, that
both are decoded, and that an answer that is cut is not. `MessageSerde.canonical` is an
instance.

* `handleDatagram`: what the relay does with a datagram.
* `length_pendingCodec`: the size of an answer to a poll.
* `canonical_specified`: the assumptions hold of the codecs.
-/

namespace Blackwing.Relay

open Cbor RelayServer

/-- `CONTROL_MAGIC`, the bytes of `BWCTL` and a 1. -/
def controlMagic : List UInt8 := [0x42, 0x57, 0x43, 0x54, 0x4c, 0x01]

/-- `RELAY_HEADER_LEN`. -/
def relayHeaderLen : Nat := 32

/-- `MAX_DATAGRAM`. -/
def maxDatagram : Nat := 1400

/-- `Display` of a `RelayError`. -/
def RelayError.display : RelayError → String
  | .authFailed reason => "Authentication failed: " ++ reason
  | .notFound => "Device not found"
  | .internal reason => "Internal error: " ++ reason

/-! ## Encodings -/

/-- The encoding of a `DeviceId`: a byte string. -/
def deviceIdCodec : Codec DeviceId :=
  Codec.byteString.imap Bytes.toList (Bytes.ofList? 32) Bytes.ofList?_toList

/-- The encoding of `PendingIntentInfo`. -/
def PendingIntentInfo.codec : Codec PendingIntentInfo :=
  Codec.imap
    (.record 2 (.seq (.field (utf8 "from") deviceIdCodec) (.field (utf8 "intent_id") .bytes)))
    (fun i => (i.sender, i.intentId)) (fun p => some ⟨p.1, p.2⟩) fun _ => rfl

/-- The encoding of `RelayMessage::PollPendingIntents`. -/
def pollCodec : Codec DeviceId :=
  .record 1 (.field (utf8 "PollPendingIntents") (.record 1 (.field (utf8 "device_id") deviceIdCodec)))

/-- The encoding of `RelayMessage::PendingIntents`. -/
def pendingCodec : Codec (List PendingIntentInfo) :=
  .record 1 (.field (utf8 "PendingIntents")
    (.record 1 (.field (utf8 "intents") (.array PendingIntentInfo.codec))))

/-- `ciborium` at `RelayMessage`. -/
structure MessageSerde where
  encode : RelayMessage → List UInt8
  decode : List UInt8 → Option RelayMessage

/-- What is assumed of `ciborium`. -/
structure MessageSerde.Specified (W : MessageSerde) : Prop where
  encode_poll : ∀ deviceId, W.encode (.pollPendingIntents deviceId) = pollCodec.encode deviceId
  decode_poll : ∀ deviceId,
    W.decode (W.encode (.pollPendingIntents deviceId)) = some (.pollPendingIntents deviceId)
  encode_pending : ∀ intents, W.encode (.pendingIntents intents) = pendingCodec.encode intents
  decode_pending : ∀ intents, pendingCodec.Fits intents →
    W.decode (W.encode (.pendingIntents intents)) = some (.pendingIntents intents)
  decode_cut :
    ∀ intents n, pendingCodec.Fits intents → n < (W.encode (.pendingIntents intents)).length →
    W.decode ((W.encode (.pendingIntents intents)).take n) = none

/-- The codecs of the poll and of its answer. -/
def MessageSerde.canonical : MessageSerde where
  encode
    | .pollPendingIntents deviceId => pollCodec.encode deviceId
    | .pendingIntents intents => pendingCodec.encode intents
    | _ => []
  decode := fun l =>
    match pollCodec.read l with
    | some deviceId => some (.pollPendingIntents deviceId)
    | none => (pendingCodec.read l).map .pendingIntents

/-! ## One datagram -/

section Datagram

variable (C : RelayCrypto) (W : MessageSerde) (env : Env) (src : SocketAddr)

/-- The control plane: the answer to the body of a control datagram, if there is one. -/
def handleControl (body : List UInt8) (s : RelayServer) : Option (List UInt8) × RelayServer :=
  match W.decode body with
  | none => (none, s)
  | some msg =>
    match handleMessageFrom C env msg (some src) s with
    | (.ok r, s') => (some (controlMagic ++ W.encode r), s')
    | (.err e, s') => (some (controlMagic ++ W.encode (.errorResponse e.display)), s')
    | (.panicked, s') => (none, s')

/-- The data plane: where the packet is forwarded, if it is. -/
def handleData (packet : List UInt8) (s : RelayServer) : Option SocketAddr × RelayServer :=
  match Bytes.ofList? relayHeaderLen (packet.take relayHeaderLen) with
  | none => (none, s)
  | some token =>
    match ForwardingTable.getDestination env token src (UInt64.ofNat packet.length) s.forwarding with
    | (.ok dest, f) => (some dest, { s with forwarding := f })
    | (_, f) => (none, { s with forwarding := f })

/-- A pass of the loop of `run_relay`: the datagram that it sends, and to whom. -/
def handleDatagram (datagram : List UInt8) (s : RelayServer) :
    Option (SocketAddr × List UInt8) × RelayServer :=
  let packet := datagram.take maxDatagram
  if packet.take controlMagic.length = controlMagic then
    let (answer, s') := handleControl C W env src (packet.drop controlMagic.length) s
    (answer.map fun out => (src, out), s')
  else
    let (dest, s') := handleData env src packet s
    (dest.map fun dest => (dest, packet), s')

end Datagram

/-! ## Sizes -/

namespace WireLemmas

theorem length_deviceIdCodec (deviceId : DeviceId) : (deviceIdCodec.encode deviceId).length = 34 := by
  show (head 2 deviceId.toList.length ++ deviceId.toList).length = 34
  rw [List.length_append, length_head, Bytes.length_toList]
  rfl

theorem length_pollCodec (deviceId : DeviceId) : (pollCodec.encode deviceId).length = 65 := by
  show (head 5 1 ++ (Codec.text.encode (utf8 "PollPendingIntents") ++ (head 5 1 ++
    (Codec.text.encode (utf8 "device_id") ++ deviceIdCodec.encode deviceId)))).length = 65
  have hname : (Codec.text.encode (utf8 "PollPendingIntents")).length = 19 := by decide
  have hfield : (Codec.text.encode (utf8 "device_id")).length = 10 := by decide
  rw [List.length_append, List.length_append, List.length_append, List.length_append, hname, hfield,
    length_deviceIdCodec]
  rfl

theorem length_intentCodec (i : PendingIntentInfo) :
    (PendingIntentInfo.codec.encode i).length =
      50 + headSize i.intentId.length + weight i.intentId := by
  show (head 5 2 ++ ((Codec.text.encode (utf8 "from") ++ deviceIdCodec.encode i.sender) ++
    (Codec.text.encode (utf8 "intent_id") ++ Codec.bytes.encode i.intentId))).length = _
  have hfrom : (Codec.text.encode (utf8 "from")).length = 5 := by decide
  have hid : (Codec.text.encode (utf8 "intent_id")).length = 10 := by decide
  rw [List.length_append, List.length_append, List.length_append, List.length_append, hfrom, hid,
    length_deviceIdCodec, length_encode_bytes, ← Nat.add_assoc, ← Nat.add_assoc, ← Nat.add_assoc]
  rfl

/-- The size of an answer to a poll. -/
theorem length_pendingCodec (intents : List PendingIntentInfo) :
    (pendingCodec.encode intents).length =
      25 + headSize intents.length +
        (intents.map fun i => 50 + headSize i.intentId.length + weight i.intentId).sum := by
  show (head 5 1 ++ (Codec.text.encode (utf8 "PendingIntents") ++ (head 5 1 ++
    (Codec.text.encode (utf8 "intents") ++
      (head 4 intents.length ++ intents.flatMap PendingIntentInfo.codec.encode))))).length = _
  have hname : (Codec.text.encode (utf8 "PendingIntents")).length = 15 := by decide
  have hfield : (Codec.text.encode (utf8 "intents")).length = 8 := by decide
  have hitems : (intents.flatMap PendingIntentInfo.codec.encode).length =
      (intents.map fun i => 50 + headSize i.intentId.length + weight i.intentId).sum := by
    rw [List.length_flatMap]
    exact congrArg List.sum (List.map_congr_left fun i _ => length_intentCodec i)
  rw [List.length_append, List.length_append, List.length_append, List.length_append,
    List.length_append, hname, hfield, hitems, length_head 4, ← Nat.add_assoc, ← Nat.add_assoc,
    ← Nat.add_assoc, ← Nat.add_assoc]
  rfl

/-! ## The instance -/

theorem extends_deviceIdCodec : deviceIdCodec.Extends :=
  Codec.extends_imap Codec.extends_byteString _ _ _

theorem extends_pollCodec : pollCodec.Extends :=
  Codec.extends_after (Codec.extends_after (Codec.extends_after
    (Codec.extends_after extends_deviceIdCodec _) _) _) _

theorem extends_pendingCodec : pendingCodec.Extends := by
  have hintent : PendingIntentInfo.codec.Extends :=
    Codec.extends_imap (Codec.extends_after (Codec.extends_seq
      (Codec.extends_after extends_deviceIdCodec _) (Codec.extends_after Codec.extends_bytes _))
        _) _ _ _
  exact Codec.extends_after (Codec.extends_after (Codec.extends_after
    (Codec.extends_after (Codec.extends_array hintent) _) _) _) _

/-- The name of the variant tells an answer from a poll. -/
theorem pollCodec_decode_pending (intents : List PendingIntentInfo) :
    pollCodec.decode (pendingCodec.encode intents) = none := by
  rfl

theorem pollCodec_read_cut (intents : List PendingIntentInfo) (n : Nat) :
    pollCodec.read ((pendingCodec.encode intents).take n) = none := by
  rw [Codec.read, Option.map_eq_none_iff, Option.eq_none_iff_forall_ne_some]
  rintro ⟨deviceId, rest⟩ h
  have hwhole := extends_pollCodec _ _ _ h ((pendingCodec.encode intents).drop n)
  rw [List.take_append_drop, pollCodec_decode_pending] at hwhole
  cases hwhole

theorem deviceIdCodec_fits (deviceId : DeviceId) : deviceIdCodec.Fits deviceId := by
  show deviceId.toList.length < 2 ^ 64
  rw [Bytes.length_toList]
  decide

end WireLemmas

open WireLemmas

/-- The codecs meet what is assumed of `ciborium`. -/
theorem canonical_specified : MessageSerde.canonical.Specified where
  encode_poll := fun _ => rfl
  decode_poll := fun deviceId => by
    show (match pollCodec.read (pollCodec.encode deviceId) with
      | some deviceId => some (RelayMessage.pollPendingIntents deviceId)
      | none => _) = _
    rw [Codec.read_encode pollCodec (deviceIdCodec_fits deviceId)]
  encode_pending := fun _ => rfl
  decode_pending := fun intents hfits => by
    have hpoll := pollCodec_read_cut intents (pendingCodec.encode intents).length
    rw [List.take_length] at hpoll
    show (match pollCodec.read (pendingCodec.encode intents) with
      | some deviceId => some (RelayMessage.pollPendingIntents deviceId)
      | none => (pendingCodec.read (pendingCodec.encode intents)).map RelayMessage.pendingIntents) = _
    rw [hpoll, Codec.read_encode pendingCodec hfits]
    rfl
  decode_cut := fun intents n hfits hn => by
    show (match pollCodec.read ((pendingCodec.encode intents).take n) with
      | some deviceId => some (RelayMessage.pollPendingIntents deviceId)
      | none =>
        (pendingCodec.read ((pendingCodec.encode intents).take n)).map RelayMessage.pendingIntents) = _
    rw [pollCodec_read_cut, Codec.read_cut extends_pendingCodec hfits hn]
    rfl

end Blackwing.Relay
