import Blackwing.Lib.Utf8
import Blackwing.Relay.Message
import Blackwing.Session.Establish

/-!
# The source of an envelope

`handle_session` of `bw-server/src/main.rs`: after the login, every message of the client is put
into a `MessageEnvelope` whose source is made of the identifier. The identifier is converted to a
string, with U+FFFD for what is not UTF-8, and its bytes are copied to the front of 32 zeros.

The copy needs as many bytes on both sides. A string of more than 32 bytes panics, at the first
message that arrives. Two identifiers of which nothing differs but ill-formed bytes, or zeros at the
end, have one source.

* `clientId_of_le`, `clientId_of_lt`: what the copy makes of a string.
* `envelope_sources_sound_iff`: the identifiers for which no message panics and which are told
  apart.
-/

namespace Blackwing.Server

open Protocol Session Shared
open Relay (DeviceId)

/-! ## Envelopes -/

/-- `NodeId`. -/
structure NodeId where
  deviceId : DeviceId
deriving DecidableEq

/-- `Route`. -/
inductive Route where
  | direct
  | broadcast
  | loopback
  | relay (via : NodeId)
deriving DecidableEq

/-- `MessageEnvelope`. -/
structure MessageEnvelope where
  source : NodeId
  destination : NodeId
  sessionId : Protocol.SessionId
  route : Route
  message : ProtocolMessage
  routingFlags : UInt16
deriving DecidableEq

/-- `bytes[..n].copy_from_slice(src)`. Slices of different lengths panic. -/
def copyFromSlice {k : Nat} (bytes : Bytes k) (n : Nat) (src : List UInt8) :
    Outcome EstablishError (Bytes k) :=
  if h : n ≤ k ∧ src.length = n then
    .ok ⟨src ++ bytes.toList.drop n, by
      rw [List.length_append, List.length_drop, bytes.length_toList, h.2, Nat.add_sub_cancel' h.1]⟩
  else .panicked

/-- The device id that stands for a client. -/
def clientId (identifier : List UInt8) : Outcome EstablishError DeviceId :=
  copyFromSlice (Bytes.fill 32 0) (min identifier.length 32) identifier

/-- The envelope around a message. -/
def envelope (clientId server : DeviceId) (sessionId : Protocol.SessionId) (message : ProtocolMessage) :
    MessageEnvelope where
  source := ⟨clientId⟩
  destination := ⟨server⟩
  sessionId := sessionId
  route := .direct
  message := message
  routingFlags := 0

/-- The receiver loop: `recv_message` returns the messages of `inbound` and then fails. The
envelopes are those given to the dispatcher, whose errors are only printed. -/
def receiveLoop (identifier : List UInt8) (server : DeviceId) (sessionId : Protocol.SessionId)
    (failure : WireError) : List ProtocolMessage → Outcome EstablishError Unit × List MessageEnvelope
  | [] => (.err (.wire failure), [])
  | message :: inbound =>
    match clientId identifier with
    | .ok id =>
      let r := receiveLoop identifier server sessionId failure inbound
      (r.1, envelope id server sessionId message :: r.2)
    | .err e => (.err e, [])
    | .panicked => (.panicked, [])

/-! ## Sessions -/

/-- A connection that the server accepted: its streams, the manager, and what `OsRandom` gives for
the handshake and for the id of the session. -/
structure Incoming (τ : Type) where
  adapter : τ
  sessionManager : SessionManager
  nonce : Option (Bytes 16)
  sessionBytes : Bytes 16

section Sessions

variable {τ R L : Type} (O : OpaqueServer R L) (store : EnrollmentStore R) (P : Primitives)
  (A : Adapter τ)

/-- The identifier with which `server_establish` returns. -/
def authenticatedAs (s : Incoming τ) : Outcome EstablishError (List UInt8) :=
  (serverEstablish O store P A s.nonce s.adapter s.sessionManager).1 >>= fun session => .ok session.2

/-- `handle_session`: how it ends, and the envelopes it dispatches. -/
def handleSession (server : DeviceId) (s : Incoming τ) (inbound : List ProtocolMessage)
    (failure : WireError) : Outcome EstablishError Unit × List MessageEnvelope :=
  match authenticatedAs O store P A s with
  | .ok identifier => receiveLoop (Utf8.lossy identifier) server s.sessionBytes failure inbound
  | .err e => (.err e, [])
  | .panicked => (.panicked, [])

end Sessions

/-! ### A server that accepts every password -/

def acceptAll : OpaqueServer Unit Unit :=
  ⟨fun _ => true, fun _ _ _ => some ((), []), fun _ _ => some [5]⟩

def enrolling (identifiers : List (List UInt8)) : EnrollmentStore Unit :=
  ⟨identifiers.foldl (fun m identifier => m.insert identifier ()) ∅⟩

/-- A client that logs in with an identifier. -/
def login (identifier : List UInt8) : Incoming (List OwnedProtocolFrame) where
  adapter := [authFrame (toBE 2 identifier.length ++ identifier), authFrame [],
    handshakeFrame (Bytes.fill 16 2)]
  sessionManager := SessionManager.new
  nonce := some (Bytes.fill 16 1)
  sessionBytes := Bytes.fill 16 3

/-! ## Which identifiers are carried and told apart -/

/-- The loop ends only when no message comes any more, with one envelope for each that came. -/
def CarriesAll (inbound : List ProtocolMessage) (failure : WireError)
    (r : Outcome EstablishError Unit × List MessageEnvelope) : Prop :=
  r.1 = .err (.wire failure) ∧ r.2.map (·.message) = inbound

/-- Each identifier, as it is shown, has at most 32 bytes; different ones differ in what is shown
before the zeros at the end. -/
def Apart (a b : List UInt8) : Prop :=
  ∃ ps qs, Utf8.Reads a ps ∧ Utf8.Reads b qs ∧
    (ps.flatMap Utf8.Piece.shown).length ≤ 32 ∧ (qs.flatMap Utf8.Piece.shown).length ≤ 32 ∧
    (a ≠ b → dropZeros (ps.flatMap Utf8.Piece.shown) ≠ dropZeros (qs.flatMap Utf8.Piece.shown))

namespace EnvelopeLemmas

variable {identifier : List UInt8} {server id : DeviceId} {sessionId : Protocol.SessionId}
  {failure : WireError} {message : ProtocolMessage} {inbound : List ProtocolMessage}

theorem clientId_of_le (h : identifier.length ≤ 32) :
    clientId identifier = .ok ⟨resize 32 identifier, length_resize 32 identifier⟩ := by
  rw [clientId, copyFromSlice, dif_pos ⟨Nat.min_le_right _ _, (Nat.min_eq_left h).symm⟩]
  refine congrArg Outcome.ok (Subtype.ext ?_)
  show identifier ++ (List.replicate 32 0).drop (min identifier.length 32) = resize 32 identifier
  rw [resize, List.take_of_length_le h, List.drop_replicate, Nat.min_eq_left h]

theorem clientId_of_lt (h : 32 < identifier.length) :
    clientId identifier = .panicked := by
  rw [clientId, copyFromSlice, dif_neg]
  rintro ⟨-, hlen⟩
  rw [Nat.min_eq_right (Nat.le_of_lt h)] at hlen
  exact Nat.ne_of_gt h hlen

theorem receiveLoop_of_ok (h : clientId identifier = .ok id) (inbound : List ProtocolMessage) :
    receiveLoop identifier server sessionId failure inbound =
      (.err (.wire failure), inbound.map (envelope id server sessionId)) := by
  induction inbound with
  | nil => rfl
  | cons message inbound ih =>
    rw [receiveLoop, h]
    dsimp only
    rw [ih]
    rfl

theorem receiveLoop_of_panicked (h : clientId identifier = .panicked) :
    receiveLoop identifier server sessionId failure (message :: inbound) = (.panicked, []) := by
  rw [receiveLoop, h]

/-- No message panics exactly if the string has at most 32 bytes. -/
theorem carriesAll_iff :
    (∀ inbound failure,
      CarriesAll inbound failure (receiveLoop identifier server sessionId failure inbound)) ↔
      identifier.length ≤ 32 := by
  constructor
  · intro h
    by_contra hlong
    have hone := h [⟨.ping, 0, 0, []⟩] .fragmentOutOfOrder
    rw [receiveLoop_of_panicked (clientId_of_lt (Nat.not_le.mp hlong))] at hone
    exact nomatch hone.1
  · intro hle inbound failure
    rw [receiveLoop_of_ok (clientId_of_le hle)]
    refine ⟨rfl, ?_⟩
    rw [List.map_map]
    exact List.map_id _

theorem handleSession_of_authenticated {τ R L : Type} {O : OpaqueServer R L} {store : EnrollmentStore R}
    {P : Primitives} {A : Adapter τ} {s : Incoming τ}
    (h : authenticatedAs O store P A s = .ok identifier) (inbound : List ProtocolMessage)
    (failure : WireError) :
    handleSession O store P A server s inbound failure =
      receiveLoop (Utf8.lossy identifier) server s.sessionBytes failure inbound := by
  rw [handleSession, h]

/-- Strings of at most 32 bytes that differ before the zeros at their end have different ids. -/
theorem sources_differ_iff {text text' : List UInt8} {sessionId' : Protocol.SessionId}
    (hle : text.length ≤ 32) (hle' : text'.length ≤ 32) :
    (∀ inbound inbound' failure failure',
      ∀ e ∈ (receiveLoop text server sessionId failure inbound).2,
        ∀ e' ∈ (receiveLoop text' server sessionId' failure' inbound').2, e.source ≠ e'.source) ↔
      dropZeros text ≠ dropZeros text' := by
  rw [Ne, ← resize_eq_iff hle hle']
  constructor
  · intro h heq
    let ping : ProtocolMessage := ⟨.ping, 0, 0, []⟩
    have hone := h [ping] [ping] .fragmentOutOfOrder .fragmentOutOfOrder
    rw [receiveLoop_of_ok (clientId_of_le hle), receiveLoop_of_ok (clientId_of_le hle')] at hone
    refine hone _ List.mem_cons_self _ List.mem_cons_self ?_
    exact congrArg NodeId.mk (Subtype.ext heq)
  · intro hne inbound inbound' failure failure' e he e' he' hsource
    rw [receiveLoop_of_ok (clientId_of_le hle)] at he
    rw [receiveLoop_of_ok (clientId_of_le hle')] at he'
    obtain ⟨_, -, rfl⟩ := List.mem_map.mp he
    obtain ⟨_, -, rfl⟩ := List.mem_map.mp he'
    exact hne (congrArg Subtype.val (NodeId.mk.inj hsource))

theorem apart_iff {a b : List UInt8} :
    Apart a b ↔ (Utf8.lossy a).length ≤ 32 ∧ (Utf8.lossy b).length ≤ 32 ∧
      (a ≠ b → dropZeros (Utf8.lossy a) ≠ dropZeros (Utf8.lossy b)) := by
  constructor
  · rintro ⟨ps, qs, hps, hqs, h⟩
    rw [Utf8.lossy_of_reads hps, Utf8.lossy_of_reads hqs]
    exact h
  · exact fun h => ⟨_, _, Utf8.reads_pieces a, Utf8.reads_pieces b, h⟩

end EnvelopeLemmas

open EnvelopeLemmas

/-- For any two sessions that were authenticated: every message of either is put into an envelope,
and those of different identifiers have different sources, exactly if the identifiers are apart. -/
theorem envelope_sources_sound_iff {τ R L : Type} (O : OpaqueServer R L) (store : EnrollmentStore R)
    (P : Primitives) (A : Adapter τ) (server : DeviceId) (s t : Incoming τ) {a b : List UInt8}
    (hs : authenticatedAs O store P A s = .ok a) (ht : authenticatedAs O store P A t = .ok b) :
    (∀ inbound inbound' failure failure',
      CarriesAll inbound failure (handleSession O store P A server s inbound failure) ∧
      CarriesAll inbound' failure' (handleSession O store P A server t inbound' failure') ∧
      (a ≠ b → ∀ e ∈ (handleSession O store P A server s inbound failure).2,
        ∀ e' ∈ (handleSession O store P A server t inbound' failure').2, e.source ≠ e'.source)) ↔
      Apart a b := by
  simp only [handleSession_of_authenticated hs, handleSession_of_authenticated ht]
  rw [apart_iff]
  constructor
  · intro h
    have hle := carriesAll_iff.mp fun inbound failure => (h inbound [] failure failure).1
    have hle' := carriesAll_iff.mp fun inbound failure => (h [] inbound failure failure).2.1
    exact ⟨hle, hle', fun hne => (sources_differ_iff hle hle').mp
      fun inbound inbound' failure failure' => (h inbound inbound' failure failure').2.2 hne⟩
  · rintro ⟨hle, hle', hdiffer⟩ inbound inbound' failure failure'
    refine ⟨carriesAll_iff.mpr hle _ _, carriesAll_iff.mpr hle' _ _, fun hne => ?_⟩
    exact (sources_differ_iff hle hle').mpr (hdiffer hne) inbound inbound' failure failure'

/-- Two clients with the identifiers `a` and `b`. -/
theorem envelope_sources_sound_a_b :
    authenticatedAs acceptAll (enrolling [[0x61], [0x62]]) .plain queueAdapter (login [0x61]) =
        .ok [0x61] ∧
      (handleSession acceptAll (enrolling [[0x61], [0x62]]) .plain queueAdapter (Bytes.fill 32 9)
        (login [0x61]) [⟨.ping, 0, 0, []⟩] .fragmentOutOfOrder).1 =
          .err (.wire .fragmentOutOfOrder) := by
  have hs : authenticatedAs acceptAll (enrolling [[0x61], [0x62]]) .plain queueAdapter (login [0x61]) =
      .ok [0x61] := by decide +kernel
  have ht : authenticatedAs acceptAll (enrolling [[0x61], [0x62]]) .plain queueAdapter (login [0x62]) =
      .ok [0x62] := by decide +kernel
  refine ⟨hs, ?_⟩
  have hapart : Apart [0x61] [0x62] := apart_iff.mpr (by decide +kernel)
  exact ((envelope_sources_sound_iff acceptAll _ _ queueAdapter (Bytes.fill 32 9) (login [0x61])
    (login [0x62]) hs ht).mpr hapart [_] [] _ .fragmentOutOfOrder).1.1

/-- An identifier of 33 bytes panics at the first message, and the identifiers `FE` and `FF` have
one source. -/
theorem envelope_sources_unsound :
    let store := enrolling [List.replicate 33 0x61, [0xFE], [0xFF]]
    let received (identifier : List UInt8) := handleSession acceptAll store .plain queueAdapter
      (Bytes.fill 32 9) (login identifier) [⟨.ping, 0, 0, []⟩] .fragmentOutOfOrder
    received (List.replicate 33 0x61) = (.panicked, []) ∧
      (received [0xFE]).2.map (·.source) = [⟨⟨resize 32 [0xEF, 0xBF, 0xBD], by decide⟩⟩] ∧
      (received [0xFF]).2.map (·.source) = [⟨⟨resize 32 [0xEF, 0xBF, 0xBD], by decide⟩⟩] := by
  decide +kernel

end Blackwing.Server
