import Blackwing.Lib.Duplex
import Blackwing.Session.Establish

/-!
# A login from both sides

`client_establish` and `server_establish` of `bw-session/src/wire.rs` against each other: the
credential request, the response and the finalization of OPAQUE, then the two nonces of the
handshake, each side sending as soon as it can and waiting for the other one. The client side of the
OPAQUE library is a parameter, as the server side is.

* `clientParty`, `serverParty`: the two functions as what they send and wait for, and
  `clientEstablish_eq_runOver`, `serverEstablish_eq_runOver`: that is what they do over any
  transport.
* `login_in_turn`: the order of steps in which each side answers at once.
* `login_agrees`: every order of steps ends as this one does, with the same session on both sides.
* `login_delivers`: that session carries messages in either direction.
-/

namespace Blackwing.Session

open Protocol Shared

/-! ## The client -/

/-- The client side of the OPAQUE library, with the states `S` of its logins. -/
structure OpaqueClient (S : Type) where
  /-- `client::start_login`: the state and the serialized request. -/
  startLogin : List UInt8 → Option (S × List UInt8)
  /-- `deserialize_credential_response` succeeds. -/
  isResponse : List UInt8 → Bool
  /-- `client::finish_login`: the serialized finalization and the session key. -/
  finishLogin : S → List UInt8 → List UInt8 → Option (List UInt8 × List UInt8)

/-- `WireError`, with the variants that `client_establish` returns. -/
inductive LoginError where
  | auth
  | establish (e : EstablishError)
deriving DecidableEq, Repr

/-- The payload of the first frame. The length of the identifier is cut to two bytes. -/
def requestPayload (identifier request : List UInt8) : List UInt8 :=
  toBE 2 identifier.length ++ identifier ++ request

section Client

variable {τ S : Type} (O : OpaqueClient S) (P : Primitives) (A : Adapter τ)
  (identifier password : List UInt8)

/-- The login: the key that both sides have. -/
def clientAuthenticate : Call τ LoginError (List UInt8) := do
  let loginStart ← Call.ofOutcome (.okOr .auth (O.startLogin password))
  (A.sendFrame (authFrame (requestPayload identifier loginStart.2))).mapErr fun e =>
    .establish (.adapter e)
  let response ← (recvAuth A).mapErr .establish
  Call.rejectIf (O.isResponse response = false) .auth
  let loginFinish ← Call.ofOutcome (.okOr .auth (O.finishLogin loginStart.1 response password))
  (A.sendFrame (authFrame loginFinish.1)).mapErr fun e => .establish (.adapter e)
  pure loginFinish.2

/-- `client_establish`: the connection, and the manager after it. -/
def clientEstablish (nonce : Option (Bytes 16)) (adapter : τ) (sessionManager : SessionManager) :
    Outcome LoginError (SecureConnection τ) × SessionManager :=
  match clientAuthenticate O A identifier password adapter with
  | (.ok sessionKey, adapter) =>
    let secure := SecureConnection.new adapter sessionManager (sessionIdFromKey sessionKey)
    let (established, secure) := SecureConnection.clientHandshake P A nonce sessionKey secure
    ((established.mapErr fun e => .establish (.session e)) >>= fun _ => .ok secure,
      secure.sessionManager)
  | (.err e, _) => (.err e, sessionManager)
  | (.panicked, _) => (.panicked, sessionManager)

end Client

/-! ## The two sides as parties -/

/-- What a side has in the end: its result, and its manager. -/
abbrev Ended (ε α : Type) : Type := Outcome ε α × SessionManager

/-- The end of a side that fails: the manager is as it was. -/
def Ended.failed {ε ε' α : Type} (m : SessionManager) (f : ε → ε') : Option ε → Ended ε' α
  | some e => (.err (f e), m)
  | none => (.panicked, m)

/-- The payload of a frame of the login. -/
def authPayload (frame : OwnedProtocolFrame) : Outcome EstablishError (List UInt8) :=
  if frame.header.packetType ≠ packetTypeAuth then .err .unexpectedFrame else .ok frame.payload

section Parties

variable {S R L : Type} (O : OpaqueClient S) (O' : OpaqueServer R L) (store : EnrollmentStore R)
  (P : Primitives) (identifier password : List UInt8) (nonce : Option (Bytes 16))
  (m : SessionManager)

/-- The registration of the client's session. -/
def clientRegister (sessionKey : List UInt8) (clientNonce serverNonce : Bytes 16) :
    Ended HandshakeError Unit :=
  match masterSecret P sessionKey with
  | .ok secret =>
    let (r, m) := SessionManager.createSessionFromHandshake P (sessionIdFromKey sessionKey) secret
      clientNonce serverNonce (.counter 10000) m
    (r.mapErr fun e => .secure (.protocol e), m)
  | .err e => (.err e, m)
  | .panicked => (.panicked, m)

/-- The registration of the server's session. -/
def serverRegister (sessionKey : List UInt8) (clientNonce serverNonce : Bytes 16) :
    Ended HandshakeError Unit :=
  match masterSecret P sessionKey >>= fun secret =>
    (deriveSessionKeys P secret clientNonce serverNonce).mapErr fun e => .secure (.protocol e) with
  | .ok clientKeys =>
    let (r, m) := SessionManager.createSessionWithContext (sessionIdFromKey sessionKey)
      (EncryptionContext.new clientKeys.swapped (.counter 10000)) m
    (r.mapErr fun e => .secure (.protocol e), m)
  | .err e => (.err e, m)
  | .panicked => (.panicked, m)

/-- The client, as what it sends and waits for. -/
def clientParty : Party OwnedProtocolFrame AdapterError (Ended LoginError SessionId) :=
  .branch (Ended.failed m id) (.okOr .auth (O.startLogin password)) fun loginStart =>
  .sends (authFrame (requestPayload identifier loginStart.2))
    (Ended.failed m fun e => .establish (.adapter e)) <|
  .waits (Ended.failed m fun e => .establish (.adapter e)) fun frame =>
  .branch (Ended.failed m .establish) (authPayload frame) fun response =>
  .branch (Ended.failed m id)
    (if O.isResponse response = false then .err .auth
      else .okOr .auth (O.finishLogin loginStart.1 response password)) fun loginFinish =>
  .sends (authFrame loginFinish.1) (Ended.failed m fun e => .establish (.adapter e)) <|
  .branch (Ended.failed m fun e => .establish (.session e)) (.okOr .nonceFailed nonce)
    fun clientNonce =>
  .sends (handshakeFrame clientNonce)
    (Ended.failed m fun e => .establish (.session (.secure (.adapter e)))) <|
  .waits (Ended.failed m fun e => .establish (.session (.secure (.adapter e)))) fun frame =>
  .branch (Ended.failed m fun e => .establish (.session e))
    (handshakeNonce frame) fun serverNonce =>
  let (r, m) := clientRegister P m loginFinish.2 clientNonce serverNonce
  .stopped ((r.mapErr fun e => .establish (.session e)) >>= fun _ =>
    .ok (sessionIdFromKey loginFinish.2), m)

/-- The server, as what it sends and waits for. -/
def serverParty :
    Party OwnedProtocolFrame AdapterError (Ended EstablishError (SessionId × List UInt8)) :=
  .waits (Ended.failed m .adapter) fun frame =>
  .branch (Ended.failed m id) (authPayload frame) fun payload =>
  .branch (Ended.failed m id) (parseRequest payload) fun request =>
  .branch (Ended.failed m id) ((store.startLogin O' request.1 request.2).mapErr .store)
    fun started =>
  .sends (authFrame started.2) (Ended.failed m .adapter) <|
  .waits (Ended.failed m .adapter) fun frame =>
  .branch (Ended.failed m id) (authPayload frame) fun finalization =>
  .branch (Ended.failed m id)
    ((EnrollmentStore.finishLogin O' started.1 finalization).mapErr .store) fun sessionKey =>
  .waits (Ended.failed m fun e => .session (.secure (.adapter e))) fun frame =>
  .branch (Ended.failed m .session) (handshakeNonce frame) fun clientNonce =>
  .branch (Ended.failed m .session) (.okOr .nonceFailed nonce) fun serverNonce =>
  .sends (handshakeFrame serverNonce) (Ended.failed m fun e => .session (.secure (.adapter e))) <|
  let (r, m) := serverRegister P m sessionKey clientNonce serverNonce
  .stopped ((r.mapErr .session) >>= fun _ => .ok (sessionIdFromKey sessionKey, request.1), m)

end Parties

/-! ### The parties are the two functions -/

section Talks

variable {τ S R L : Type} (O : OpaqueClient S) (O' : OpaqueServer R L) (store : EnrollmentStore R)
  (A : Adapter τ) (identifier password : List UInt8) (nonce : Option (Bytes 16))

/-- The frames of the client's handshake: its nonce and the server's. -/
def clientExchange : Call τ HandshakeError (Bytes 16 × Bytes 16) := do
  let clientNonce ← Call.ofOutcome (.okOr .nonceFailed nonce)
  (A.sendFrame (handshakeFrame clientNonce)).mapErr fun e => .secure (.adapter e)
  let frame ← A.recvFrame.mapErr fun e => .secure (.adapter e)
  let serverNonce ← Call.ofOutcome (handshakeNonce frame)
  pure (clientNonce, serverNonce)

/-- The frames of the server's handshake. -/
def serverExchange : Call τ HandshakeError (Bytes 16 × Bytes 16) := do
  let frame ← A.recvFrame.mapErr fun e => .secure (.adapter e)
  let clientNonce ← Call.ofOutcome (handshakeNonce frame)
  let serverNonce ← Call.ofOutcome (.okOr .nonceFailed nonce)
  (A.sendFrame (handshakeFrame serverNonce)).mapErr fun e => .secure (.adapter e)
  pure (clientNonce, serverNonce)

end Talks

/-- The end of a handshake, from the nonces or the error of its exchange of frames. -/
def finishHandshake {τ : Type} (sessionId : SessionId) (m : SessionManager)
    (register : Bytes 16 → Bytes 16 → Ended HandshakeError Unit) :
    Outcome HandshakeError (Bytes 16 × Bytes 16) × τ →
      Outcome HandshakeError Unit × SecureConnection τ
  | (.ok (clientNonce, serverNonce), t) =>
    let (r, m) := register clientNonce serverNonce
    (r, ⟨⟨t, sessionId, m⟩, if r = .ok () then .active else .handshaking⟩)
  | (.err e, t) => (.err e, ⟨⟨t, sessionId, m⟩, .handshaking⟩)
  | (.panicked, t) => (.panicked, ⟨⟨t, sessionId, m⟩, .handshaking⟩)

/-- The result of a side, with the connection over the transport that is left. -/
def Ended.connected {ε τ α β : Type} (result : (SessionId → SecureConnection τ) → α → β)
    (r : Ended ε α × τ) : Ended ε β :=
  (r.1.1 >>= fun a => .ok (result (fun sessionId => ⟨⟨r.2, sessionId, r.1.2⟩, .active⟩) a), r.1.2)

namespace LoginLemmas

variable {τ S R L : Type} {O : OpaqueClient S} {O' : OpaqueServer R L} {store : EnrollmentStore R}
  {P : Primitives} {A : Adapter τ}

/-- The registration of the session, and the last transition. -/
theorem register_transition (x : Call SessionManager ProtocolError Unit) (t : τ)
    (sessionId : SessionId) (m : SessionManager) :
    (SecureConnection.onHalf (SecureHalf.onManager (fun e => .secure (.protocol e)) x) >>= fun _ =>
      SecureConnection.transition .handshaking .active) ⟨⟨t, sessionId, m⟩, .handshaking⟩ =
    ((x m).1.mapErr fun e => .secure (.protocol e), ⟨⟨t, sessionId, (x m).2⟩,
      if ((x m).1.mapErr fun e => HandshakeError.secure (.protocol e)) = .ok () then .active
      else .handshaking⟩) := by
  rw [Call.bind_apply, SecureConnection.onHalf, Call.onPart, SecureHalf.onManager, Call.onPart]
  rcases x m with ⟨_ | _ | _, m'⟩
  · rfl
  · rfl
  · rfl

/-- What the client's handshake of a new connection leaves. -/
theorem clientHandshake_new (nonce : Option (Bytes 16)) (sessionKey : List UInt8) (adapter : τ)
    (m : SessionManager) :
    SecureConnection.clientHandshake P A nonce sessionKey
        (SecureConnection.new adapter m (sessionIdFromKey sessionKey)) =
      finishHandshake (sessionIdFromKey sessionKey) m (clientRegister P m sessionKey)
        (clientExchange A nonce adapter) := by
  rw [SecureConnection.clientHandshake, SecureConnection.transition, SecureConnection.new,
    Call.bind_bind, Call.getState_bind, Call.bind_bind, Call.rejectIf_bind, if_neg (by simp),
    Call.update_bind, clientExchange]
  cases nonce with
  | none => rfl
  | some clientNonce =>
    rw [Outcome.okOr, Call.ofOutcome_ok_bind, Call.ofOutcome_ok_bind, Call.bind_apply,
      Call.bind_apply, Call.mapErr, sendHandshake, SecureConnection.onHalf, Call.onPart,
      SecureHalf.onAdapter, Call.onPart]
    rcases A.sendFrame (handshakeFrame clientNonce) adapter with ⟨_ | _ | _, t⟩
    case some.err => rfl
    case some.panicked => rfl
    dsimp only [Outcome.mapErr]
    rw [Call.bind_apply, Call.bind_apply, Call.mapErr, recvHandshake, SecureConnection.onHalf,
      Call.onPart, Call.bind_apply, SecureHalf.onAdapter, Call.onPart]
    rcases A.recvFrame t with ⟨frame | _ | _, t'⟩
    · dsimp only [Outcome.mapErr, Call.ofOutcome]
      rw [Call.ofOutcome_bind]
      rcases handshakeNonce frame with serverNonce | _ | _
      · dsimp only
        rw [Call.ofOutcome_bind, Call.pure_apply, finishHandshake, clientRegister]
        cases masterSecret P sessionKey with
        | ok secret =>
          dsimp only
          rw [Call.getState_bind]
          exact register_transition _ _ _ _
        | err e => rfl
        | panicked => rfl
      · rfl
      · rfl
    · rfl
    · rfl

/-- What the server's handshake of a new connection leaves. -/
theorem serverHandshake_new (nonce : Option (Bytes 16)) (sessionKey : List UInt8) (adapter : τ)
    (m : SessionManager) :
    SecureConnection.serverHandshake P A nonce sessionKey
        (SecureConnection.new adapter m (sessionIdFromKey sessionKey)) =
      finishHandshake (sessionIdFromKey sessionKey) m (serverRegister P m sessionKey)
        (serverExchange A nonce adapter) := by
  rw [SecureConnection.serverHandshake, SecureConnection.transition, SecureConnection.new,
    Call.bind_bind, Call.getState_bind, Call.bind_bind, Call.rejectIf_bind, if_neg (by simp),
    Call.update_bind, serverExchange, Call.bind_apply, Call.bind_apply, Call.mapErr, recvHandshake,
    SecureConnection.onHalf, Call.onPart, Call.bind_apply, SecureHalf.onAdapter, Call.onPart]
  rcases A.recvFrame adapter with ⟨frame | _ | _, t⟩
  case err => rfl
  case panicked => rfl
  dsimp only [Outcome.mapErr, Call.ofOutcome]
  rw [Call.ofOutcome_bind]
  rcases handshakeNonce frame with clientNonce | _ | _
  case err => rfl
  case panicked => rfl
  dsimp only
  cases nonce with
  | none => rfl
  | some serverNonce =>
    rw [Outcome.okOr, Call.ofOutcome_ok_bind, Call.ofOutcome_ok_bind, Call.bind_apply,
      Call.bind_apply, Call.mapErr, sendHandshake, SecureConnection.onHalf, Call.onPart,
      SecureHalf.onAdapter, Call.onPart]
    rcases A.sendFrame (handshakeFrame serverNonce) t with ⟨_ | _ | _, t'⟩
    case err => rfl
    case panicked => rfl
    dsimp only [Outcome.mapErr]
    rw [Call.ofOutcome_bind, Call.pure_apply, finishHandshake, serverRegister]
    cases masterSecret P sessionKey with
    | err e => rfl
    | panicked => rfl
    | ok secret =>
      dsimp only
      rw [Call.ofOutcome_bind, Outcome.ok_bind]
      cases deriveSessionKeys P secret clientNonce serverNonce with
      | ok keys =>
        dsimp only [Outcome.mapErr]
        rw [Call.getState_bind]
        exact register_transition _ _ _ _
      | err e => rfl
      | panicked => rfl

theorem failed_map {ε ε' ε'' α : Type} (m : SessionManager) (f : ε' → ε'') (h : ε → ε') :
    (fun e => (Ended.failed m f (e.map h) : Ended ε'' α)) = Ended.failed m fun e => f (h e) := by
  funext e
  cases e <;> rfl

theorem clientParty_runOver (identifier password : List UInt8) (nonce : Option (Bytes 16))
    (m : SessionManager) (t : τ) :
    (clientParty O P identifier password nonce m).runOver A.sendFrame A.recvFrame t =
      Party.resume (Ended.failed m id)
        (fun sessionKey t => Party.resume (Ended.failed m fun e => .establish (.session e))
          (fun nonces t =>
            ((((clientRegister P m sessionKey nonces.1 nonces.2).1.mapErr fun e =>
                .establish (.session e)) >>= fun _ => .ok (sessionIdFromKey sessionKey),
              (clientRegister P m sessionKey nonces.1 nonces.2).2), t))
          (clientExchange A nonce t))
        (clientAuthenticate O A identifier password t) := by
  simp only [clientParty, clientAuthenticate, clientExchange, recvAuth, authPayload,
    Party.runOver_sends, Party.runOver_waits, Party.runOver_stopped, Party.runOver_branch,
    Party.resume_bind, Party.resume_mapErr, Party.resume_ite, Party.resume_rejectIf,
    Party.resume_ok, Call.ofOutcome_apply, Call.pure_apply, failed_map, id]

theorem serverParty_runOver (nonce : Option (Bytes 16)) (m : SessionManager) (t : τ) :
    (serverParty O' store P nonce m).runOver A.sendFrame A.recvFrame t =
      Party.resume (Ended.failed m id)
        (fun login t => Party.resume (Ended.failed m .session)
          (fun nonces t =>
            ((((serverRegister P m login.2 nonces.1 nonces.2).1.mapErr .session) >>= fun _ =>
                .ok (sessionIdFromKey login.2, login.1),
              (serverRegister P m login.2 nonces.1 nonces.2).2), t))
          (serverExchange A nonce t))
        (authenticate O' store A t) := by
  simp only [serverParty, authenticate, serverExchange, recvAuth, authPayload, Party.runOver_sends,
    Party.runOver_waits, Party.runOver_stopped, Party.runOver_branch, Party.resume_bind,
    Party.resume_mapErr, Party.resume_ite, Party.resume_rejectIf, Party.resume_ok,
    Call.ofOutcome_apply, Call.pure_apply, failed_map, id]

end LoginLemmas

open LoginLemmas

/-- `client_establish` is the client party over its transport. -/
theorem clientEstablish_eq_runOver {τ S : Type} (O : OpaqueClient S) (P : Primitives)
    (A : Adapter τ) (identifier password : List UInt8) (nonce : Option (Bytes 16)) (adapter : τ)
    (m : SessionManager) :
    clientEstablish O P A identifier password nonce adapter m = Ended.connected
      (fun connection sessionId => connection sessionId)
      ((clientParty O P identifier password nonce m).runOver A.sendFrame A.recvFrame adapter) := by
  rw [clientParty_runOver, clientEstablish]
  rcases clientAuthenticate O A identifier password adapter with ⟨sessionKey | _ | _, t⟩
  case err => rfl
  case panicked => rfl
  dsimp only
  rw [clientHandshake_new, Party.resume_ok]
  rcases clientExchange A nonce t with ⟨⟨clientNonce, serverNonce⟩ | _ | _, t'⟩
  case err => rfl
  case panicked => rfl
  rw [Party.resume_ok, finishHandshake, Ended.connected]
  dsimp only
  rcases clientRegister P m sessionKey clientNonce serverNonce with ⟨_ | _ | _, m'⟩
  · rfl
  · rfl
  · rfl

/-- `server_establish` is the server party over its transport. -/
theorem serverEstablish_eq_runOver {τ R L : Type} (O' : OpaqueServer R L)
    (store : EnrollmentStore R) (P : Primitives) (A : Adapter τ) (nonce : Option (Bytes 16))
    (adapter : τ) (m : SessionManager) :
    serverEstablish O' store P A nonce adapter m =
      Ended.connected (fun connection login => (connection login.1, login.2))
        ((serverParty O' store P nonce m).runOver A.sendFrame A.recvFrame adapter) := by
  rw [serverParty_runOver, serverEstablish]
  rcases authenticate O' store A adapter with ⟨⟨identifier, sessionKey⟩ | _ | _, t⟩
  case err => rfl
  case panicked => rfl
  dsimp only
  rw [serverHandshake_new, Party.resume_ok]
  rcases serverExchange A nonce t with ⟨⟨clientNonce, serverNonce⟩ | _ | _, t'⟩
  case err => rfl
  case panicked => rfl
  rw [Party.resume_ok, finishHandshake, Ended.connected]
  dsimp only
  rcases serverRegister P m sessionKey clientNonce serverNonce with ⟨_ | _ | _, m'⟩
  · rfl
  · rfl
  · rfl

/-! ## Every order of their steps -/

/-- A login as OPAQUE runs it with the right password: what the two sides compute and send. -/
structure OpaqueLogin {S R L : Type} (O : OpaqueClient S) (O' : OpaqueServer R L) (passwordFile : R)
    (identifier password : List UInt8) where
  state : S
  request : List UInt8
  login : L
  response : List UInt8
  finalization : List UInt8
  sessionKey : List UInt8
  clientStarts : O.startLogin password = some (state, request)
  isRequest : O'.isRequest request = true
  serverStarts : O'.startLogin passwordFile request identifier = some (login, response)
  isResponse : O.isResponse response = true
  clientFinishes : O.finishLogin state response password = some (finalization, sessionKey)
  serverFinishes : O'.finishLogin login finalization = some sessionKey

/-- The messages of OPAQUE are of a fixed length, of some hundred bytes. -/
structure OpaqueSized {S R L : Type} (O : OpaqueClient S) (O' : OpaqueServer R L) : Prop where
  request : ∀ password state request, O.startLogin password = some (state, request) →
    request.length ≤ 1024
  response : ∀ passwordFile request identifier login response,
    O'.startLogin passwordFile request identifier = some (login, response) → response.length ≤ 1024
  finalization : ∀ state response password finalization sessionKey,
    O.finishLogin state response password = some (finalization, sessionKey) →
      finalization.length ≤ 1024

/-- A client and a server that has enrolled it. The session is free on both sides, and the request
fits into one frame. -/
structure Meeting {S R L : Type} (O : OpaqueClient S) (O' : OpaqueServer R L) where
  store : EnrollmentStore R
  passwordFile : R
  identifier : List UInt8
  password : List UInt8
  login : OpaqueLogin O O' passwordFile identifier password
  clientNonce : Bytes 16
  serverNonce : Bytes 16
  clientManager : SessionManager
  serverManager : SessionManager
  enrolled : store.enrollments.lookup identifier = some passwordFile
  fits : identifier.length + 1026 < 2 ^ 16
  clientUsable : clientManager.poisoned = false
  serverUsable : serverManager.poisoned = false
  clientFree : clientManager.activeSessions.lookup (sessionIdFromKey login.sessionKey) = none
  serverFree : serverManager.activeSessions.lookup (sessionIdFromKey login.sessionKey) = none

/-- The two sides with the frames between them. -/
abbrev LoginPair : Type :=
  Duplex OwnedProtocolFrame AdapterError (Ended LoginError SessionId)
    (Ended EstablishError (SessionId × List UInt8))

/-- A manager with one more session. -/
def withSession (m : SessionManager) (sessionId : SessionId) (keys : SessionKeys) :
    SessionManager :=
  { m with activeSessions :=
    m.activeSessions.insert sessionId (some (EncryptionContext.new keys (.counter 10000))) }

namespace Meeting

variable {S R L : Type} {O : OpaqueClient S} {O' : OpaqueServer R L} (m : Meeting O O')

def sessionId : SessionId := sessionIdFromKey m.login.sessionKey

/-- The two sides before the first frame. -/
def start (P : Primitives) : LoginPair :=
  ⟨clientParty O P m.identifier m.password (some m.clientNonce) m.clientManager,
    serverParty O' m.store P (some m.serverNonce) m.serverManager, [], []⟩

/-- Both sides have returned, with the same session and with the keys of one handshake. -/
def ended (keys : SessionKeys) : LoginPair :=
  ⟨.stopped (.ok m.sessionId, withSession m.clientManager m.sessionId keys),
    .stopped (.ok (m.sessionId, m.identifier),
      withSession m.serverManager m.sessionId keys.swapped), [], []⟩

theorem ended_move (keys : SessionKeys) (side : Side) : (m.ended keys).move side = none := by
  cases side <;> rfl

end Meeting

namespace LoginLemmas

theorem parseRequest_requestPayload {identifier : List UInt8} (h : identifier.length < 2 ^ 16)
    (request : List UInt8) :
    parseRequest (requestPayload identifier request) = .ok (identifier, request) := by
  have hlen : fromBE ((requestPayload identifier request).take 2) = identifier.length := by
    rw [requestPayload, List.append_assoc, List.take_left' (length_toBE 2 _), fromBE_toBE]
    exact Nat.mod_eq_of_lt h
  have htotal : (requestPayload identifier request).length =
      2 + identifier.length + request.length := by
    simp [requestPayload, Nat.add_assoc]
  have hdrop : (requestPayload identifier request).drop 2 = identifier ++ request := by
    rw [requestPayload, List.append_assoc, List.drop_left' (length_toBE 2 _)]
  have hrest : (requestPayload identifier request).drop (2 + identifier.length) =
      request ++ [] := by
    rw [← List.drop_drop, hdrop, List.drop_left, List.append_nil]
  rw [parseRequest, if_neg (by omega)]
  dsimp only
  rw [hlen, if_neg (by omega), Outcome.slice_eq_ok_of_drop hdrop (by omega) rfl, Outcome.ok_bind,
    Outcome.slice_eq_ok_of_drop hrest (by omega) htotal.symm]
  rfl

theorem authPayload_authFrame (payload : List UInt8) :
    authPayload (authFrame payload) = .ok payload :=
  if_neg (not_not.mpr rfl)

theorem handshakeNonce_handshakeFrame (nonce : Bytes 16) :
    handshakeNonce (handshakeFrame nonce) = .ok nonce := by
  unfold handshakeNonce
  split
  · next h => exact absurd rfl h
  · split
    · rfl
    · next h => exact absurd nonce.property h

theorem hkdfDerive_ok {P : Primitives} (hP : HkdfTotal P) (salt : Option (List UInt8))
    (ikm : List UInt8) (info : Option (List UInt8)) :
    ∃ key, hkdfDerive P salt ikm info = .ok key := by
  obtain ⟨key, hkey⟩ := Option.isSome_iff_exists.mp (hP salt ikm (info.getD []))
  exact ⟨key, by rw [hkdfDerive, hkey]; rfl⟩

/-- The keys that both sides derive. -/
theorem exists_sessionKeys {P : Primitives} (hP : HkdfTotal P) (sessionKey : List UInt8)
    (clientNonce serverNonce : Bytes 16) :
    ∃ secret keys, masterSecret P sessionKey = .ok secret ∧
      deriveSessionKeys P secret clientNonce serverNonce = .ok keys ∧ keys.epoch = 0 := by
  obtain ⟨secret, hsecret⟩ := hkdfDerive_ok hP none sessionKey (some (utf8 "opaque-session"))
  obtain ⟨sendKey, hsend⟩ :=
    hkdfDerive_ok hP (some (clientNonce.toList ++ serverNonce.toList)) secret.toList
    (some (utf8 "client-key"))
  obtain ⟨recvKey, hrecv⟩ :=
    hkdfDerive_ok hP (some (clientNonce.toList ++ serverNonce.toList)) secret.toList
    (some (utf8 "server-key"))
  refine ⟨secret, ⟨sendKey, recvKey, 0⟩, by rw [masterSecret, hsecret]; rfl, ?_, rfl⟩
  rw [deriveSessionKeys, hsend, hrecv]
  rfl

theorem createSessionWithContext_ok {m : SessionManager} (hm : m.poisoned = false) {id : SessionId}
    (hid : m.activeSessions.lookup id = none) (context : EncryptionContext) :
    SessionManager.createSessionWithContext id context m =
      (.ok (), { m with activeSessions := m.activeSessions.insert id (some context) }) := by
  have hlock : ¬ m.poisoned = true := Bool.eq_false_iff.mp hm
  rw [SessionManager.createSessionWithContext, SessionManager.lock, Call.bind_bind,
    Call.getState_bind, Call.rejectIf_bind, if_neg hlock, Call.getState_bind, Call.rejectIf_bind,
    if_neg (not_not.mpr hid)]
  rfl

theorem validate_current {h : PacketHeader} (hmagic : h.magic = protocolMagic)
    (hversion : h.schemaVersion = currentVersion.toU16) : h.validate = .ok () := by
  have hcompatible :
      (ProtocolVersion.ofU16 currentVersion.toU16).isCompatibleWith currentVersion = true := by
    decide
  rw [PacketHeader.validate, if_neg (not_not.mpr hmagic), hversion, hcompatible]
  rfl

theorem authFrame_wellFormed {payload : List UInt8} (h : payload.length < 2 ^ 16) :
    (authFrame payload).WellFormed :=
  ⟨validate_current rfl rfl, UInt16.toNat_ofNat_of_lt' h⟩

theorem handshakeFrame_wellFormed (nonce : Bytes 16) : (handshakeFrame nonce).WellFormed :=
  ⟨validate_current rfl rfl, nonce.property.symm⟩

theorem clientParty_speaks {S R L : Type} {O : OpaqueClient S} {O' : OpaqueServer R L}
    (hsized : OpaqueSized O O') (P : Primitives) {identifier : List UInt8}
    (hidentifier : identifier.length + 1026 < 2 ^ 16) (password : List UInt8)
    (nonce : Option (Bytes 16)) (m : SessionManager) :
    (clientParty O P identifier password nonce m).Speaks OwnedProtocolFrame.WellFormed := by
  refine Party.speaks_branch fun loginStart hstart => ⟨?_, fun frame => ?_⟩
  · have hrequest := hsized.request _ _ _ (Outcome.okOr_eq_ok.mp hstart)
    refine authFrame_wellFormed ?_
    simp only [requestPayload, List.length_append, length_toBE]
    omega
  · refine Party.speaks_branch fun response _ =>
      Party.speaks_branch fun loginFinish hfinish => ⟨?_, ?_⟩
    · split at hfinish
      · cases hfinish
      · have hfinalization := hsized.finalization _ _ _ _ _ (Outcome.okOr_eq_ok.mp hfinish)
        exact authFrame_wellFormed (by omega)
    · refine Party.speaks_branch fun clientNonce _ =>
        ⟨handshakeFrame_wellFormed clientNonce, fun frame => ?_⟩
      exact Party.speaks_branch fun serverNonce _ => trivial

theorem serverParty_speaks {S R L : Type} {O : OpaqueClient S} {O' : OpaqueServer R L}
    (hsized : OpaqueSized O O') (store : EnrollmentStore R) (P : Primitives)
    (nonce : Option (Bytes 16)) (m : SessionManager) :
    (serverParty O' store P nonce m).Speaks OwnedProtocolFrame.WellFormed := by
  intro frame
  refine Party.speaks_branch fun payload _ => Party.speaks_branch fun request _ =>
    Party.speaks_branch fun started hstarted => ⟨?_, fun frame => ?_⟩
  · have hok := Outcome.mapErr_eq_ok.mp hstarted
    unfold EnrollmentStore.startLogin at hok
    split at hok
    · obtain ⟨passwordFile, -, hresponse⟩ := Outcome.bind_eq_ok.mp hok
      have hle := hsized.response _ _ _ _ _ (Outcome.okOr_eq_ok.mp hresponse)
      exact authFrame_wellFormed (by omega)
    · cases hok
  · refine Party.speaks_branch fun finalization _ =>
      Party.speaks_branch fun sessionKey _ frame => ?_
    refine Party.speaks_branch fun clientNonce _ => Party.speaks_branch fun serverNonce _ => ?_
    exact ⟨handshakeFrame_wellFormed serverNonce, trivial⟩

theorem startLogin_of_meeting {S R L : Type} {O : OpaqueClient S} {O' : OpaqueServer R L}
    (m : Meeting O O') :
    m.store.startLogin O' m.identifier m.login.request = .ok (m.login.login, m.login.response) := by
  rw [EnrollmentStore.startLogin, if_pos m.login.isRequest, m.enrolled]
  show Outcome.okOr _ _ = _
  rw [m.login.serverStarts]
  rfl

/-- The order in which a login goes when each side answers at once. -/
theorem moves_in_turn {μ ε ρ ρ' : Type} {left : Party μ ε ρ} {right : Party μ ε ρ'} {r : ρ}
    {r' : ρ'} {a b c d e : μ} {f₁ f₂ f₃ f₄ f₅ : Option ε → ρ} {g₁ g₂ g₃ g₄ g₅ : Option ε → ρ'}
    {afterResponse afterNonce : μ → Party μ ε ρ}
    {afterRequest afterFinalization afterClientNonce : μ → Party μ ε ρ'}
    (hleft : left = .sends a f₁ (.waits f₂ afterResponse)) (hright : right = .waits g₁ afterRequest)
    (hrequest : afterRequest a = .sends b g₂ (.waits g₃ afterFinalization))
    (hresponse : afterResponse b = .sends c f₃ (.sends d f₄ (.waits f₅ afterNonce)))
    (hfinalization : afterFinalization c = .waits g₄ afterClientNonce)
    (hclientNonce : afterClientNonce d = .sends e g₅ (.stopped r'))
    (hnonce : afterNonce e = .stopped r) :
    moves Duplex.move ⟨left, right, [], []⟩
      [.left, .right, .right, .left, .left, .left, .right, .right, .right, .left] =
        some ⟨.stopped r, .stopped r', [], []⟩ := by
  simp [moves, Duplex.move, Duplex.advance, hleft, hright, hrequest, hresponse, hfinalization,
    hclientNonce, hnonce]

end LoginLemmas

/-! ## A transparent instance -/

/-- A client that proves its password by sending it. -/
def OpaqueClient.plain : OpaqueClient (List UInt8) where
  startLogin password := some (password, [1])
  isResponse response := response = [2]
  finishLogin state _ password :=
    if state = password then some (password.take 1024, password) else none

/-- A server whose password file is the password. -/
def OpaqueServer.plain : OpaqueServer (List UInt8) (List UInt8) where
  isRequest request := request = [1]
  startLogin passwordFile _ _ := some (passwordFile, [2])
  finishLogin login finalization := if finalization = login.take 1024 then some login else none

theorem plain_sized : OpaqueSized .plain .plain where
  request := by
    rintro password state request ⟨⟩
    decide
  response := by
    rintro passwordFile request identifier login response ⟨⟩
    decide
  finalization := by
    intro state response password finalization sessionKey h
    obtain ⟨-, ⟨⟩⟩ := Option.ite_none_right_eq_some.mp h
    rw [List.length_take]
    exact Nat.min_le_left _ _

/-- The login with a password. -/
def plainLogin (identifier password : List UInt8) :
    OpaqueLogin OpaqueClient.plain OpaqueServer.plain password identifier password where
  state := password
  request := [1]
  login := password
  response := [2]
  finalization := password.take 1024
  sessionKey := password
  clientStarts := rfl
  isRequest := rfl
  serverStarts := rfl
  isResponse := rfl
  clientFinishes := if_pos rfl
  serverFinishes := if_pos rfl

/-- The login of the one identifier of a store. -/
def plainMeeting : Meeting OpaqueClient.plain OpaqueServer.plain where
  store := ⟨(∅ : HashMap (List UInt8) (List UInt8)).insert [7] [9, 9]⟩
  passwordFile := [9, 9]
  identifier := [7]
  password := [9, 9]
  login := plainLogin [7] [9, 9]
  clientNonce := Bytes.fill 16 1
  serverNonce := Bytes.fill 16 2
  clientManager := .new
  serverManager := .new
  enrolled := by decide
  fits := by decide
  clientUsable := rfl
  serverUsable := rfl
  clientFree := rfl
  serverFree := rfl

/-! ## The two sides agree -/

section Agreement

variable {S R L : Type} {O : OpaqueClient S} {O' : OpaqueServer R L} {P : Primitives}
  (m : Meeting O O')

open LoginLemmas in
/-- One order of the steps. -/
theorem login_in_turn (hP : HkdfTotal P) :
    ∃ keys, keys.epoch = 0 ∧ moves Duplex.move (m.start P)
      [.left, .right, .right, .left, .left, .left, .right, .right, .right, .left] =
        some (m.ended keys) := by
  obtain ⟨secret, keys, hsecret, hkeys, hepoch⟩ :=
    exists_sessionKeys hP m.login.sessionKey m.clientNonce m.serverNonce
  have hshort : m.identifier.length < 2 ^ 16 := (Nat.le_add_right _ _).trans_lt m.fits
  refine ⟨keys, hepoch, ?_⟩
  apply moves_in_turn (a := authFrame (requestPayload m.identifier m.login.request))
    (b := authFrame m.login.response) (c := authFrame m.login.finalization)
    (d := handshakeFrame m.clientNonce) (e := handshakeFrame m.serverNonce)
  case hleft =>
    rw [clientParty, m.login.clientStarts]
    rfl
  case hright => rfl
  case hrequest =>
    rw [authPayload_authFrame, Party.branch_ok, parseRequest_requestPayload hshort, Party.branch_ok,
      startLogin_of_meeting m]
    rfl
  case hresponse =>
    rw [authPayload_authFrame, Party.branch_ok, m.login.isResponse, if_neg Bool.noConfusion,
      m.login.clientFinishes]
    rfl
  case hfinalization =>
    rw [authPayload_authFrame, Party.branch_ok, EnrollmentStore.finishLogin, m.login.serverFinishes]
    rfl
  case hclientNonce =>
    rw [handshakeNonce_handshakeFrame, Party.branch_ok]
    dsimp only [Outcome.okOr, Party.branch]
    rw [serverRegister, hsecret, Outcome.ok_bind, hkeys]
    dsimp only [Outcome.mapErr]
    rw [createSessionWithContext_ok m.serverUsable m.serverFree]
    rfl
  case hnonce =>
    rw [handshakeNonce_handshakeFrame, Party.branch_ok, clientRegister, hsecret]
    dsimp only
    rw [SessionManager.createSessionFromHandshake, hkeys, Call.ofOutcome_ok_bind,
      createSessionWithContext_ok m.clientUsable m.clientFree]
    rfl

open LoginLemmas in
/-- A login with the right password, in every order in which the steps of the two sides can come: it
goes on to an end, which it reaches after ten steps. There both sides have returned, the server has
the identifier of the client, and each has registered the session, under the same id and with the
keys of the other one. On the way every frame states its length. -/
theorem login_agrees (hP : HkdfTotal P) (hsized : OpaqueSized O O') :
    ∃ keys, ∀ schedule d, moves Duplex.move (m.start P) schedule = some d →
      (∀ frame ∈ d.toLeft ++ d.toRight, frame.WellFormed) ∧
      (∃ rest, moves Duplex.move d rest = some (m.ended keys) ∧
        schedule.length + rest.length = 10) ∧
      ((∀ side, d.move side = none) → d = m.ended keys) := by
  obtain ⟨keys, -, hturn⟩ := login_in_turn m hP
  refine ⟨keys, fun schedule d hd => ?_⟩
  obtain ⟨rest, hrest, hlen⟩ := moves_confluent Duplex.commute hturn (m.ended_move keys) hd
  refine ⟨?_, ⟨rest, hrest, hlen⟩, fun hstuck => ?_⟩
  · have hclean := Duplex.moves_clean (P := OwnedProtocolFrame.WellFormed)
      ⟨clientParty_speaks hsized P m.fits m.password _ _, serverParty_speaks hsized m.store P _ _,
        fun _ hm => absurd hm List.not_mem_nil, fun _ hm => absurd hm List.not_mem_nil⟩ hd
    exact List.forall_mem_append.mpr ⟨hclean.toLeft, hclean.toRight⟩
  · exact (moves_ended hstuck hrest).symm

theorem login_agrees_plain : ∃ keys, ∀ schedule d,
    moves Duplex.move (plainMeeting.start .plain) schedule = some d →
    (∀ side, d.move side = none) → d = plainMeeting.ended keys := by
  obtain ⟨keys, hkeys⟩ := login_agrees plainMeeting plain_hkdfTotal plain_sized
  exact ⟨keys, fun schedule d hd => (hkeys schedule d hd).2.2⟩

/-- The end of a session that sends and the end that receives, as the two managers have them. -/
def sessionPair (sessionId : SessionId) (sender receiver : SessionManager) :
    SecurePair (List OwnedProtocolFrame) :=
  ⟨⟨.active, sender.activeSessions.lookup sessionId⟩, [],
    ⟨.active, receiver.activeSessions.lookup sessionId⟩⟩

/-- The messages are sent, and as many calls return them in order. -/
def Carried (P : Primitives) (C : Ciborium) (pair : SecurePair (List OwnedProtocolFrame))
    (messages : List (List UInt8)) : Prop :=
  (Call.forEach
    (MessageSession.sendFragmented (SecureConnection.sendSecureFrame P C adapterQueue.send))
      messages pair).1 = .ok () ∧
    ((MessageSession.recvReassembled (SecureConnection.recvSecureFrame P C adapterQueue.recv)).times
      messages.length
      (Call.forEach
        (MessageSession.sendFragmented (SecureConnection.sendSecureFrame P C adapterQueue.send))
          messages pair).2).1 = .ok messages

open SecureLemmas in
theorem carried_start {C : Ciborium} (hdoc : Documented P C) {keys : SessionKeys}
    (hepoch : keys.epoch = 0) {messages : List (List UInt8)}
    (hsize : ∀ message ∈ messages, message.length ≤ maxReassembledSize)
    (hfew : (messages.map fun message => fragmentCount message.length).sum < 2 ^ 32)
    (policy policy' : KeyRotationPolicy) :
    Carried P C (SecurePair.start keys policy policy' []) messages := by
  obtain ⟨hsends, hreturns⟩ := @delivers_over_secured messages P keys policy policy'
    (secured hdoc fun _ => trivial) (fun _ hf hsize => ⟨hf, hsize⟩) rfl
    (secured_grants hdoc _ (Fifo.queue_total _)) hsize
  have hsent := hsends (by rw [hepoch]; simpa using hfew)
  exact ⟨hsent, (hreturns hsent).1⟩

theorem lookup_withSession (m : SessionManager) (sessionId : SessionId) (keys : SessionKeys) :
    (withSession m sessionId keys).activeSessions.lookup sessionId =
      some (some (EncryptionContext.new keys (.counter 10000))) :=
  AList.lookup_insert _

/-- After every login with the right password, in whatever order its steps came, messages within the
limit arrive as they were sent, from the client at the server and from the server at the client. -/
theorem login_delivers {C : Ciborium} (hdoc : Documented P C) (schedule : List Side) {d : LoginPair}
    (hd : moves Duplex.move (m.start P) schedule = some d) (hended : ∀ side, d.move side = none)
    {messages : List (List UInt8)}
    (hsize : ∀ message ∈ messages, message.length ≤ maxReassembledSize)
    (hfew : (messages.map fun message => fragmentCount message.length).sum < 2 ^ 32) :
    ∃ sessionId clientAfter serverAfter, d.left = .stopped (.ok sessionId, clientAfter) ∧
      d.right = .stopped (.ok (sessionId, m.identifier), serverAfter) ∧
      Carried P C (sessionPair sessionId clientAfter serverAfter) messages ∧
      Carried P C (sessionPair sessionId serverAfter clientAfter) messages := by
  obtain ⟨keys, hepoch, hturn⟩ := login_in_turn m hdoc.hkdf
  obtain ⟨rest, hrest, -⟩ := moves_confluent Duplex.commute hturn (m.ended_move keys) hd
  obtain rfl := moves_ended hended hrest
  refine ⟨_, _, _, rfl, rfl, ?_, ?_⟩
  · rw [sessionPair, lookup_withSession, lookup_withSession]
    exact carried_start hdoc hepoch hsize hfew _ _
  · rw [sessionPair, lookup_withSession, lookup_withSession]
    have hswapped : keys.swapped.epoch = 0 := hepoch
    exact carried_start hdoc hswapped hsize hfew _ _

/-- After the login, a message of two fragments and an empty one in each direction. -/
theorem login_delivers_plain :
    (List.replicate 60001 (7 : UInt8)).length = 60001 ∧
      ∃ schedule d sessionId clientAfter serverAfter,
        moves Duplex.move (plainMeeting.start .plain) schedule = some d ∧
          d.left = .stopped (.ok sessionId, clientAfter) ∧
          d.right = .stopped (.ok (sessionId, [7]), serverAfter) ∧
          Carried .plain .canonical (sessionPair sessionId clientAfter serverAfter)
            [List.replicate 60001 7, []] ∧
          Carried .plain .canonical (sessionPair sessionId serverAfter clientAfter)
            [List.replicate 60001 7, []] := by
  have hlong : (List.replicate 60001 (7 : UInt8)).length = 60001 := List.length_replicate
  refine ⟨hlong, ?_⟩
  -- what follows uses only the length
  obtain ⟨long, hl⟩ : ∃ long, long = List.replicate 60001 (7 : UInt8) := ⟨_, rfl⟩
  rw [← hl] at hlong ⊢
  have hsize : ∀ message ∈ [long, []], message.length ≤ maxReassembledSize :=
    List.forall_mem_cons.mpr ⟨Nat.le_trans (Nat.le_of_eq hlong) (by decide), by decide⟩
  have hfew : ([long, []].map fun message => fragmentCount message.length).sum < 2 ^ 32 := by
    rw [List.map_cons, hlong]
    decide
  obtain ⟨keys, -, hturn⟩ := login_in_turn plainMeeting plain_hkdfTotal
  obtain ⟨sessionId, clientAfter, serverAfter, hleft, hright, hcarried⟩ := login_delivers
    plainMeeting documented_plain _ hturn (plainMeeting.ended_move keys) hsize hfew
  exact ⟨_, _, sessionId, clientAfter, serverAfter, hturn, hleft, hright, hcarried⟩

end Agreement

end Blackwing.Session
