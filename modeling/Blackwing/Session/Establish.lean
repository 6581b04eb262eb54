import Blackwing.Session.Shared

/-!
# The server side of a login

`server_establish` of `bw-session/src/wire.rs`: the client names an identifier, proves with OPAQUE
that it knows the password enrolled for it, and the connection makes its handshake with the key of
the login. The OPAQUE library is a parameter; `EnrollmentStore` of `bw-auth/src/store.rs` looks the
identifier up.
-/

namespace Blackwing.Session

open Protocol Shared

/-- `StoreError`, the variants that a login returns. -/
inductive StoreError where
  | auth
  | notEnrolled
deriving DecidableEq, Repr

/-- The server side of the OPAQUE library, with the password files `R` and the logins `L`. -/
structure OpaqueServer (R L : Type) where
  /-- `CredentialRequest::deserialize` succeeds. -/
  isRequest : List UInt8 → Bool
  /-- `server::start_login`: password file, request and identifier. -/
  startLogin : R → List UInt8 → List UInt8 → Option (L × List UInt8)
  /-- `CredentialFinalization::deserialize` and `server::finish_login`. -/
  finishLogin : L → List UInt8 → Option (List UInt8)

/-- `EnrollmentStore`. -/
structure EnrollmentStore (R : Type) where
  enrollments : HashMap (List UInt8) R

section Store

variable {R L : Type} (O : OpaqueServer R L)

/-- `EnrollmentStore::start_login`. -/
def EnrollmentStore.startLogin (store : EnrollmentStore R) (identifier credentialRequest : List UInt8) :
    Outcome StoreError (L × List UInt8) :=
  if O.isRequest credentialRequest = true then do
    let passwordFile ← Outcome.okOr .notEnrolled (store.enrollments.lookup identifier)
    Outcome.okOr .auth (O.startLogin passwordFile credentialRequest identifier)
  else .err .auth

/-- `EnrollmentStore::finish_login`. -/
def EnrollmentStore.finishLogin (login : L) (finalization : List UInt8) :
    Outcome StoreError (List UInt8) :=
  .okOr .auth (O.finishLogin login finalization)

end Store

/-- `WireError`, with the variants that only `server_establish` returns. -/
inductive EstablishError where
  | wire (e : WireError)
  | adapter (e : AdapterError)
  | store (e : StoreError)
  | session (e : HandshakeError)
  | unexpectedFrame
  | malformedRequest
deriving DecidableEq, Repr

/-- `PACKET_TYPE_AUTH`. -/
def packetTypeAuth : UInt16 := 0x03

/-- `auth_frame`. -/
def authFrame (payload : List UInt8) : OwnedProtocolFrame where
  header :=
    { magic := protocolMagic
      schemaVersion := currentVersion.toU16
      flags := 0
      packetType := packetTypeAuth
      payloadLength := UInt16.ofNat payload.length
      sequenceNumber := 0
      sessionEpoch := 0
      monotonicTimestamp := 0 }
  payload := payload

theorem length_resize_key (key : List UInt8) : (resize 16 key).length = 16 := length_resize 16 key

/-- `session_id_from_key`. -/
def sessionIdFromKey (key : List UInt8) : SessionId := ⟨resize 16 key, length_resize_key key⟩

/-- The identifier and the credential request in the first frame: two bytes of length, the
identifier, and the rest. -/
def parseRequest (payload : List UInt8) : Outcome EstablishError (List UInt8 × List UInt8) :=
  if payload.length < 2 then .err .malformedRequest
  else
    let idLen := fromBE (payload.take 2)
    if payload.length < 2 + idLen then .err .malformedRequest
    else do
      let identifier ← Outcome.slice payload 2 (2 + idLen)
      let request ← Outcome.slice payload (2 + idLen) payload.length
      pure (identifier, request)

section Establish

variable {τ R L : Type} (O : OpaqueServer R L) (store : EnrollmentStore R) (P : Primitives)
  (A : Adapter τ)

/-- The payload of the next frame, which has to be one of the login. -/
def recvAuth : Call τ EstablishError (List UInt8) := do
  let frame ← A.recvFrame.mapErr .adapter
  Call.rejectIf (frame.header.packetType ≠ packetTypeAuth) .unexpectedFrame
  pure frame.payload

/-- The login: the identifier of the client and the key that both sides have. -/
def authenticate : Call τ EstablishError (List UInt8 × List UInt8) := do
  let payload ← recvAuth A
  let request ← Call.ofOutcome (parseRequest payload)
  let started ← Call.ofOutcome ((store.startLogin O request.1 request.2).mapErr .store)
  (A.sendFrame (authFrame started.2)).mapErr .adapter
  let finalization ← recvAuth A
  let sessionKey ← Call.ofOutcome ((EnrollmentStore.finishLogin O started.1 finalization).mapErr .store)
  pure (request.1, sessionKey)

/-- `server_establish`: the connection and the identifier, and the manager after it. -/
def serverEstablish (nonce : Option (Bytes 16)) (adapter : τ) (sessionManager : SessionManager) :
    Outcome EstablishError (SecureConnection τ × List UInt8) × SessionManager :=
  match authenticate O store A adapter with
  | (.ok (identifier, sessionKey), adapter) =>
    let secure := SecureConnection.new adapter sessionManager (sessionIdFromKey sessionKey)
    let (established, secure) := SecureConnection.serverHandshake P A nonce sessionKey secure
    ((established.mapErr .session) >>= fun _ => .ok (secure, identifier), secure.sessionManager)
  | (.err e, _) => (.err e, sessionManager)
  | (.panicked, _) => (.panicked, sessionManager)

variable {O store P A}

end Establish

end Blackwing.Session
