import Blackwing.Lib.HashMap
import Blackwing.Lib.Wp
import Blackwing.Protocol.Encryption

/-!
# The session manager

`SessionManager` of `bw-protocol/src/session.rs`: the encryption contexts of all sessions of a node,
behind one lock. A call that panics while it holds the lock poisons it, and every later call then
fails before it looks at the sessions.

* `createSessionWithContext_wp`, `createSessionFromHandshake_wp`: a session is registered under an
  id that was not active, or nothing changes.
* `withSessionContext_active`: a call on the context of a session leaves the same sessions active.
-/

namespace Blackwing.Protocol

abbrev SessionId : Type := Bytes 16

/-- `SessionManager`, with whether its lock is poisoned. -/
structure SessionManager where
  activeSessions : HashMap SessionId (Option EncryptionContext)
  poisoned : Bool

namespace SessionManager

/-- `SessionManager::new`. -/
def new : SessionManager := ⟨∅, false⟩

/-- `active_sessions.lock()`, with the error that every method makes of a poisoned lock. -/
def lock : Call SessionManager ProtocolError Unit := do
  let self ← Call.getState
  Call.rejectIf (self.poisoned = true) .invalidHandshake

/-- `SessionManager::create_session_with_context`. -/
def createSessionWithContext (id : SessionId) (context : EncryptionContext) :
    Call SessionManager ProtocolError Unit := do
  lock
  let self ← Call.getState
  Call.rejectIf (self.activeSessions.lookup id ≠ none) .sessionDuplicate
  Call.update fun m => { m with activeSessions := m.activeSessions.insert id (some context) }

/-- `SessionManager::create_session_from_handshake`. -/
def createSessionFromHandshake (P : Primitives) (id : SessionId) (masterSecret : SymmetricKey)
    (clientNonce serverNonce : Bytes 16) (rotationPolicy : KeyRotationPolicy) :
    Call SessionManager ProtocolError Unit := do
  let keys ← Call.ofOutcome (deriveSessionKeys P masterSecret clientNonce serverNonce)
  createSessionWithContext id (EncryptionContext.new keys rotationPolicy)

/-- The closure of `with_session_context`, run under the lock. -/
def underLock {α : Type} (id : SessionId) (f : Call EncryptionContext ProtocolError α) :
    Call SessionManager ProtocolError α := fun m =>
  match m.activeSessions.lookup id with
  | none => (.err .sessionNotFound, m)
  | some none => (.err .invalidHandshake, m)
  | some (some ctx) =>
    let poisoned := match (f ctx).1 with
      | .panicked => true
      | _ => m.poisoned
    ((f ctx).1, ⟨m.activeSessions.insert id (some (f ctx).2), poisoned⟩)

/-- `SessionManager::with_session_context`. -/
def withSessionContext {α : Type} (id : SessionId) (f : Call EncryptionContext ProtocolError α) :
    Call SessionManager ProtocolError α := do
  lock
  underLock id f

/-- `SessionManager::close_session`. -/
def closeSession (id : SessionId) : Call SessionManager ProtocolError Bool := do
  lock
  let self ← Call.getState
  Call.update fun m => { m with activeSessions := m.activeSessions.erase id }
  pure (self.activeSessions.lookup id).isSome

/-- The active sessions: the ids for which `validate_session` answers `true`. -/
def active (m : SessionManager) : Set SessionId := {id | m.activeSessions.lookup id ≠ none}

/-- A session under an id that was not active. -/
def Registers (id : SessionId) (m m' : SessionManager) : Prop :=
  m.activeSessions.lookup id = none ∧
    ∃ context, m' = { m with activeSessions := m.activeSessions.insert id (some context) }

end SessionManager

namespace SessionsLemmas

open SessionManager Call

variable {m m' : SessionManager} {id : SessionId}

theorem mem_active : id ∈ m.active ↔ m.activeSessions.lookup id ≠ none := Iff.rfl

theorem active_new : SessionManager.new.active = ∅ := by
  ext id
  exact iff_of_false (fun h => h rfl) (Set.notMem_empty id)

theorem active_of_registers (h : Registers id m m') : m'.active = insert id m.active := by
  obtain ⟨-, context, rfl⟩ := h
  ext k
  rw [Set.mem_insert_iff, mem_active, mem_active, HashMap.lookup_insert_eq]
  split
  · next hk => simp [hk]
  · next hk => simp [hk]

theorem createSessionWithContext_wp (id : SessionId) (context : EncryptionContext)
    (m : SessionManager) :
    (createSessionWithContext id context).wp (fun _ m' => Registers id m m') (fun m' => m' = m) m := by
  simp only [createSessionWithContext, lock, wp_bind, wp_getState, wp_rejectIf, wp_update]
  exact ⟨fun _ => trivial, fun _ => ⟨fun _ => trivial, fun h => ⟨not_not.mp h, context, rfl⟩⟩⟩

theorem createSessionFromHandshake_wp {P : Primitives} (id : SessionId) (masterSecret : SymmetricKey)
    (clientNonce serverNonce : Bytes 16) (policy : KeyRotationPolicy) (m : SessionManager) :
    (createSessionFromHandshake P id masterSecret clientNonce serverNonce policy).wp
      (fun _ m' => Registers id m m') (fun m' => m' = m) m := by
  simp only [createSessionFromHandshake, wp_bind, wp_ofOutcome]
  exact ⟨fun _ _ => createSessionWithContext_wp id _ m, fun _ => trivial⟩

theorem withSessionContext_active {α : Type} (id : SessionId)
    (f : Call EncryptionContext ProtocolError α) (m : SessionManager) :
    (withSessionContext id f m).2.active = m.active := by
  have hlocked : (underLock id f m).2.active = m.active := by
    unfold underLock
    cases hl : m.activeSessions.lookup id with
    | none => rfl
    | some entry =>
      cases entry with
      | none => rfl
      | some ctx =>
        ext k
        rw [mem_active, mem_active, HashMap.lookup_insert_eq]
        split
        · next hk =>
          rw [hk, hl]
          simp
        · rfl
  rw [withSessionContext, lock, bind_bind, getState_bind, rejectIf_bind]
  split
  · rfl
  · exact hlocked

/-- What `close_session` leaves. -/
theorem closeSession_snd (id : SessionId) (m : SessionManager) :
    (closeSession id m).2 =
      if m.poisoned = true then m else { m with activeSessions := m.activeSessions.erase id } := by
  rw [closeSession, lock, bind_bind, getState_bind, rejectIf_bind]
  split <;> rfl

theorem active_erase (m : SessionManager) (id : SessionId) :
    ({ m with activeSessions := m.activeSessions.erase id } : SessionManager).active =
      m.active \ {id} := by
  ext k
  rw [Set.mem_sdiff, Set.mem_singleton_iff, mem_active, mem_active, HashMap.lookup_erase_eq]
  split
  · next hk => simp [hk]
  · next hk => simp [hk]

end SessionsLemmas

end Blackwing.Protocol
