import Blackwing.Relay.Invariants
import Blackwing.Relay.Wire

/-!
# Polling for intents

A server polls the relay for the intents that wait for it (`poll_pending_intents` of
`relay_client.rs`) and accepts the first one (`RendezvousDriver` of
`bw-server/src/rendezvous.rs`). The answer lists every pending intent, and the client
receives it into a buffer of 4096 bytes. A datagram that is longer is cut there.

* `pollPendingIntents`: the request, the pass of `run_relay` that answers it, and what the
  client makes of the answer.
* `nextSessionToken`, `driverRun`: the driver, and the error with which it stops.
* `replySize`: the size of the answer, from the intents that are pending.
* `poll_served_iff`: when the client gets the pending intents. The bound is on their
  number and ids, which other devices choose.
-/

namespace Blackwing.Relay

open RelayServer Cbor

/-! ## The client -/

/-- The texts of `RelayClientError::Protocol`. -/
inductive ResponseFault where
  | missingMagic
  | unexpected (other : RelayMessage)
deriving DecidableEq

/-- `RelayClientError`. -/
inductive RelayClientError where
  | io
  | rejected (reason : String)
  | cbor
  | protocol (fault : ResponseFault)
deriving DecidableEq

/-- The length of the receive buffer of `send_recv`. -/
def recvBufferLen : Nat := 4096

/-- `send_recv` from the arrival of the response on. -/
def receiveResponse (W : MessageSerde) (datagram : List UInt8) :
    Except RelayClientError RelayMessage :=
  let respBytes := datagram.take recvBufferLen
  if respBytes.take controlMagic.length ≠ controlMagic then .error (.protocol .missingMagic)
  else
    match W.decode (respBytes.drop controlMagic.length) with
    | some msg => .ok msg
    | none => .error .cbor

/-- An intent id copied into an array, as far as it goes. -/
def idArr (intentId : List UInt8) : IntentId := ⟨resize 16 intentId, length_resize 16 intentId⟩

/-- What `poll_pending_intents` makes of the response. -/
def pendingOfResponse : RelayMessage → Except RelayClientError (List (IntentId × DeviceId))
  | .pendingIntents intents => .ok (intents.map fun invite => (idArr invite.intentId, invite.sender))
  | .errorResponse reason => .error (.rejected reason)
  | other => .error (.protocol (.unexpected other))

/-- `RelayControlClient::poll_pending_intents` and the pass of `run_relay` that answers it; `none`
when no response comes. -/
def pollPendingIntents {C : RelayCrypto} (W : MessageSerde) (env : Env)
    (client : RelayControlClient C) (src : SocketAddr) (s : RelayServer) :
    Option (Except RelayClientError (List (IntentId × DeviceId))) × RelayServer :=
  let packet := controlMagic ++ W.encode (client.request .pollPendingIntents)
  match handleDatagram C W env src packet s with
  | (some (dest, response), s') =>
    (if dest = src then some (receiveResponse W response >>= pendingOfResponse) else none, s')
  | (none, s') => (none, s')

/-! ## The driver -/

/-- What the control plane answers in one pass of the driver. -/
structure Cycle where
  poll : Except RelayClientError (List (IntentId × DeviceId))
  accept : IntentId → DeviceId → Except RelayClientError RelayToken

/-- `RendezvousDriver::next_session_token`. -/
def nextSessionToken (c : Cycle) : Except RelayClientError (Option RelayToken) := do
  let intents ← c.poll
  match intents with
  | [] => .ok none
  | (intentId, initiator) :: _ =>
    match c.accept intentId initiator with
    | .ok token => .ok (some token)
    | .error (.rejected _) => .ok none
    | .error (.protocol _) => .ok none
    | .error e => .error e

/-- The error with which `RendezvousDriver::run` has returned after these passes, if it has. -/
def driverRun : List Cycle → Option RelayClientError
  | [] => none
  | c :: cs =>
    match nextSessionToken c with
    | .ok _ => driverRun cs
    | .error e => some e

/-- An answer to an acceptance that is no failure of the control plane. -/
def Cycle.Answered (accept : IntentId → DeviceId → Except RelayClientError RelayToken) : Prop :=
  ∀ intentId initiator,
    accept intentId initiator ≠ .error .io ∧ accept intentId initiator ≠ .error .cbor

/-! ## Serving a poll -/

/-- The size of the answer that lists these intents. -/
def replySize (pending : List (IntentId × DeviceId)) : Nat :=
  31 + headSize pending.length + (pending.map fun p => 51 + weight p.1.toList).sum

/-- The client gets exactly the intents that are pending for it, and its driver goes on. -/
structure PollServed {C : RelayCrypto} (W : MessageSerde) (env : Env) (client : RelayControlClient C)
    (src : SocketAddr) (s : RelayServer) : Prop where
  returns : (pollPendingIntents W env client src s).1 =
    some (.ok (s.rendezvous.pendingFor (env.clock 0) client.deviceId))
  goesOn : ∀ poll, (pollPendingIntents W env client src s).1 = some poll →
    ∀ accept, Cycle.Answered accept → driverRun [⟨poll, accept⟩] = none

namespace PollingLemmas

open WireLemmas

variable {C : RelayCrypto} {W : MessageSerde} {env : Env} {client : RelayControlClient C}
  {src : SocketAddr} {s : RelayServer}

/-- What the relay lists for a device. -/
def listed (pending : List (IntentId × DeviceId)) : List PendingIntentInfo :=
  pending.map fun p => ⟨p.2, p.1.toList⟩

theorem handlePoll_registered (hreg : s.isRegistered client.deviceId = true) :
    handleMessageFrom C env (client.request .pollPendingIntents) (some src) s =
      (.ok (.pendingIntents
        (listed (s.rendezvous.pendingFor (env.clock 0) client.deviceId))), s) := by
  show handlePollPendingIntents env client.deviceId s = _
  rw [handlePollPendingIntents, Call.getState_bind, Call.rejectIf_bind, hreg,
    if_neg Bool.noConfusion]
  rfl

/-- The relay answers a poll with the list, whatever its size. -/
theorem handleDatagram_poll (hW : W.Specified) (hreg : s.isRegistered client.deviceId = true) :
    handleDatagram C W env src (controlMagic ++ W.encode (client.request .pollPendingIntents)) s =
      (some (src, controlMagic ++ W.encode (.pendingIntents
        (listed (s.rendezvous.pendingFor (env.clock 0) client.deviceId)))), s) := by
  have hlen : (controlMagic ++ W.encode (client.request .pollPendingIntents)).length ≤
      maxDatagram := by
    rw [List.length_append, RelayControlClient.request, hW.encode_poll, length_pollCodec]
    decide
  rw [handleDatagram]
  dsimp only
  rw [List.take_of_length_le hlen, List.take_left, if_pos rfl, List.drop_left, handleControl,
    RelayControlClient.request, hW.decode_poll]
  dsimp only
  rw [← RelayControlClient.request, handlePoll_registered hreg]
  rfl

theorem length_listed (hW : W.Specified) (pending : List (IntentId × DeviceId)) :
    (controlMagic ++ W.encode (.pendingIntents (listed pending))).length = replySize pending := by
  have hitems : (listed pending).map (fun i => 50 + headSize i.intentId.length + weight i.intentId) =
      pending.map fun p => 51 + weight p.1.toList := by
    rw [listed, List.map_map]
    refine List.map_congr_left fun p _ => ?_
    show 50 + headSize p.1.toList.length + weight p.1.toList = 51 + weight p.1.toList
    rw [Bytes.length_toList]
    rfl
  rw [List.length_append, hW.encode_pending, length_pendingCodec, hitems, listed, List.length_map,
    ← Nat.add_assoc, ← Nat.add_assoc]
  rfl

theorem idArr_toList (id : IntentId) : idArr id.toList = id := by
  refine Bytes.toList_injective ?_
  show resize 16 id.toList = id.toList
  have h := resize_length id.toList
  rwa [Bytes.length_toList] at h

/-- The client undoes the listing. -/
theorem pendingOfResponse_listed (pending : List (IntentId × DeviceId)) :
    pendingOfResponse (.pendingIntents (listed pending)) = .ok pending := by
  rw [pendingOfResponse, listed, List.map_map]
  refine congrArg Except.ok ((List.map_congr_left fun p _ => ?_).trans (List.map_id pending))
  exact Prod.ext (idArr_toList p.1) rfl

theorem listed_fits {pending : List (IntentId × DeviceId)} (h : pending.length < 2 ^ 64) :
    pendingCodec.Fits (listed pending) := by
  refine ⟨by rwa [listed, List.length_map], fun i hi => ?_⟩
  obtain ⟨p, -, rfl⟩ := List.mem_map.mp hi
  refine ⟨deviceIdCodec_fits p.2, Codec.bytes_fits ?_⟩
  rw [Bytes.length_toList]
  decide

/-- The response fits the buffer and is decoded, or it is cut and is not. -/
theorem receiveResponse_listed (hW : W.Specified) {pending : List (IntentId × DeviceId)}
    (hfits : pending.length < 2 ^ 64) :
    receiveResponse W (controlMagic ++ W.encode (.pendingIntents (listed pending))) =
      if replySize pending ≤ recvBufferLen then .ok (.pendingIntents (listed pending))
      else .error .cbor := by
  have htake : (controlMagic ++ W.encode (.pendingIntents (listed pending))).take recvBufferLen =
      controlMagic ++ (W.encode (.pendingIntents (listed pending))).take
        (recvBufferLen - controlMagic.length) := by
    rw [List.take_append, List.take_of_length_le (by decide)]
  have hlen := length_listed hW pending
  rw [List.length_append] at hlen
  rw [receiveResponse, htake, List.take_left, if_neg (not_not_intro rfl), List.drop_left, ← hlen]
  by_cases hle : controlMagic.length + (W.encode (.pendingIntents (listed pending))).length ≤
      recvBufferLen
  · rw [if_pos hle, List.take_of_length_le (Nat.le_sub_of_add_le' hle),
      hW.decode_pending _ (listed_fits hfits)]
  · rw [if_neg hle, hW.decode_cut _ _ (listed_fits hfits)
      (Nat.sub_lt_left_of_lt_add (by decide) (Nat.not_le.mp hle))]

/-- A poll of a registered device. -/
theorem poll_eq (hW : W.Specified) (hreg : s.isRegistered client.deviceId = true)
    (hcap : HashMap.size s.rendezvous ≤ maxIntents) :
    (pollPendingIntents W env client src s).1 =
      if replySize (s.rendezvous.pendingFor (env.clock 0) client.deviceId) ≤ recvBufferLen then
        some (.ok (s.rendezvous.pendingFor (env.clock 0) client.deviceId))
      else some (.error .cbor) := by
  have hfits : (s.rendezvous.pendingFor (env.clock 0) client.deviceId).length < 2 ^ 64 :=
    calc (s.rendezvous.pendingFor (env.clock 0) client.deviceId).length
        ≤ HashMap.size s.rendezvous := List.length_filterMap_le _ _
      _ ≤ maxIntents := hcap
      _ < 2 ^ 64 := by decide
  rw [pollPendingIntents, handleDatagram_poll hW hreg]
  dsimp only
  rw [if_pos rfl, receiveResponse_listed hW hfits]
  split
  · exact congrArg some (pendingOfResponse_listed _)
  · rfl

theorem driverRun_of_polled {accept : IntentId → DeviceId → Except RelayClientError RelayToken}
    (hanswered : Cycle.Answered accept) (pending : List (IntentId × DeviceId)) :
    driverRun [⟨.ok pending, accept⟩] = none := by
  cases pending with
  | nil => rfl
  | cons p pending =>
    obtain ⟨hio, hcbor⟩ := hanswered p.1 p.2
    rw [driverRun, nextSessionToken]
    show (match (match accept p.1 p.2 with
      | .ok token => .ok (some token)
      | .error (.rejected _) => .ok none
      | .error (.protocol _) => .ok none
      | .error e => .error e : Except RelayClientError (Option RelayToken)) with
      | .ok _ => driverRun []
      | .error e => some e) = none
    cases haccept : accept p.1 p.2 with
    | ok token => rfl
    | error e =>
      cases e with
      | io => exact absurd haccept hio
      | rejected reason => rfl
      | cbor => exact absurd haccept hcbor
      | protocol fault => rfl

end PollingLemmas

open PollingLemmas

/-- A poll of a registered device returns exactly the intents that are pending for it, and leaves
its driver running, exactly when the answer fits the receive buffer. Otherwise it fails, and the
driver stops with that failure. -/
theorem poll_served_iff {C : RelayCrypto} {W : MessageSerde} (hW : W.Specified)
    (rateLimitBytesPerSec sessionExpiryMs : UInt64) (ops : List Op) (client : RelayControlClient C)
    (hreg : (relayAfter C rateLimitBytesPerSec sessionExpiryMs ops).isRegistered
      client.deviceId = true)
    (env : Env) (src : SocketAddr) :
    (PollServed W env client src (relayAfter C rateLimitBytesPerSec sessionExpiryMs ops) ↔
      replySize ((relayAfter C rateLimitBytesPerSec sessionExpiryMs ops).rendezvous.pendingFor
        (env.clock 0) client.deviceId) ≤ recvBufferLen) ∧
    (recvBufferLen < replySize ((relayAfter C rateLimitBytesPerSec sessionExpiryMs
        ops).rendezvous.pendingFor (env.clock 0) client.deviceId) →
      (pollPendingIntents W env client src
          (relayAfter C rateLimitBytesPerSec sessionExpiryMs ops)).1 = some (.error .cbor) ∧
      ∀ accept rest, driverRun (⟨.error .cbor, accept⟩ :: rest) = some .cbor) := by
  have hpoll := @poll_eq C W env client src _ hW hreg
    (reachable_withinCapacity C rateLimitBytesPerSec sessionExpiryMs ops).intents
  refine ⟨⟨fun hserved => ?_, fun hle => ?_⟩, fun hgt => ⟨?_, fun _ _ => rfl⟩⟩
  · by_contra hgt
    rw [if_neg hgt, hserved.returns] at hpoll
    cases hpoll
  · rw [if_pos hle] at hpoll
    refine ⟨hpoll, fun poll hret accept hanswered => ?_⟩
    rw [hpoll] at hret
    cases hret
    exact driverRun_of_polled hanswered _
  · rw [hpoll, if_neg (Nat.not_le.mpr hgt)]

/-- Devices 1 and 2 register, and device 1 asks for device 2 under `n` different ids. -/
def askedFor (n : Nat) : List Op :=
  let a := plainClient 1
  let b := plainClient 2
  ([a.request (.register 1000), b.request (.register 1000)] ++
    (List.range n).map fun i =>
      a.request (.connectIntent b.deviceId
        ⟨UInt8.ofNat (24 + i) :: List.replicate 15 24, by simp⟩ [] 1000)).map
    fun m => .message m none (.at 1000 none)

/-- One intent is polled. -/
theorem poll_served_one_intent :
    (relayAfter .plain rateLimitBytesPerSec sessionExpiryMs (askedFor 1)).isRegistered
        (plainClient 2).deviceId = true ∧
      PollServed .canonical (.at 2000 none) (plainClient 2) (.v4 (Bytes.fill 4 10) 9999)
        (relayAfter .plain rateLimitBytesPerSec sessionExpiryMs (askedFor 1)) := by
  have hreg : (relayAfter .plain rateLimitBytesPerSec sessionExpiryMs (askedFor 1)).isRegistered
      (plainClient 2).deviceId = true := by decide +kernel
  exact ⟨hreg, (poll_served_iff canonical_specified rateLimitBytesPerSec sessionExpiryMs (askedFor 1)
    (plainClient 2) hreg (.at 2000 none) (.v4 (Bytes.fill 4 10) 9999)).1.mpr (by decide +kernel)⟩

/-- With 49 intents of one other device the answer has 4100 bytes, the poll fails, and the driver
stops. -/
theorem flooded_poll_stops_driver :
    (relayAfter .plain rateLimitBytesPerSec sessionExpiryMs (askedFor 49)).isRegistered
        (plainClient 2).deviceId = true ∧
    replySize ((relayAfter .plain rateLimitBytesPerSec sessionExpiryMs
      (askedFor 49)).rendezvous.pendingFor 2000 (plainClient 2).deviceId) = 4100 ∧
    (pollPendingIntents .canonical (.at 2000 none) (plainClient 2) (.v4 (Bytes.fill 4 10) 9999)
      (relayAfter .plain rateLimitBytesPerSec sessionExpiryMs (askedFor 49))).1 =
        some (.error .cbor) ∧
    ∀ accept rest, driverRun (⟨.error .cbor, accept⟩ :: rest) = some .cbor := by
  have hstate : (relayAfter .plain rateLimitBytesPerSec sessionExpiryMs (askedFor 49)).isRegistered
        (plainClient 2).deviceId = true ∧
      replySize ((relayAfter .plain rateLimitBytesPerSec sessionExpiryMs
        (askedFor 49)).rendezvous.pendingFor 2000 (plainClient 2).deviceId) = 4100 := by
    decide +kernel
  obtain ⟨hreg, hsize⟩ := hstate
  refine ⟨hreg, hsize, ?_, fun _ _ => rfl⟩
  rw [poll_eq canonical_specified hreg
    (reachable_withinCapacity .plain rateLimitBytesPerSec sessionExpiryMs (askedFor 49)).intents]
  refine if_neg fun hle => ?_
  rw [show (Env.at 2000 none).clock 0 = 2000 from rfl, hsize] at hle
  exact absurd hle (by decide)

end Blackwing.Relay
