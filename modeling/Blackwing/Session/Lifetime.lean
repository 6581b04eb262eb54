import Blackwing.Lib.Ownership
import Blackwing.Lib.Run
import Blackwing.Session.Shared

/-!
# The lifetime of sessions

A node with one `SessionManager` and any number of connections, which its tasks name by numbers. A
connection is created, makes its handshake, carries traffic and is closed as a whole, or it is
split, and then its sender is closed and both halves are dropped. Dropping runs no code of the
repository.

* `step_change`: what each step does to the sessions and to the connections that own one.
* `active_sessions_exact_iff`: the active sessions are those of the connections not yet closed
  exactly as long as no split connection ends, no lock is poisoned at a close, and no connection
  without a session of its own is closed under the id of another one.
* `split_session_retained`: a split connection that has ended keeps its keys in the manager.
-/

namespace Blackwing.Session.Lifetime

open Protocol Shared Ownership

/-! ## Connections of a node -/

/-- What the node's tasks hold of a connection. -/
inductive Form where
  | whole
  /-- Whether the sender was closed, and which halves are not dropped yet. -/
  | halves (senderClosed senderHeld receiverHeld : Bool)
deriving DecidableEq, Repr

/-- A connection. After `into_split` the lifecycle is the one it had then. -/
structure Connection (τ : Type) where
  adapter : τ
  sessionId : SessionId
  lifecycle : ConnectionState
  form : Form

structure Node (τ : Type) where
  manager : SessionManager
  connections : HashMap Nat (Connection τ)

def Node.new (τ : Type) : Node τ := ⟨SessionManager.new, ∅⟩

/-- The sender was closed, and both halves are dropped. -/
def Form.ended : Form → Bool
  | .whole => false
  | .halves senderClosed senderHeld receiverHeld => senderClosed && !senderHeld && !receiverHeld

/-- The connection was established and is not closed: neither as a whole nor through its halves. -/
def Connection.isOpen {τ : Type} (c : Connection τ) : Bool :=
  decide (c.lifecycle = .active) && !c.form.ended

/-- The active sessions are those of the connections that are open. -/
def ActiveExact {τ : Type} (n : Node τ) : Prop :=
  ∀ id, n.manager.activeSessions.lookup id ≠ none ↔
    ∃ h c, n.connections.lookup h = some c ∧ c.isOpen = true ∧ c.sessionId = id

/-- The session that a connection owns while it is open. -/
def Connection.openId {τ : Type} (c : Connection τ) : Option SessionId :=
  if c.isOpen = true then some c.sessionId else none

/-- The session that the connection named `h` owns. -/
def Node.owner {τ : Type} (n : Node τ) (h : Nat) : Option SessionId :=
  (n.connections.lookup h).bind Connection.openId

/-! ## Steps -/

inductive Op (τ : Type) where
  | new (h : Nat) (adapter : τ) (sessionId : SessionId)
  | clientHandshake (h : Nat) (nonce : Option (Bytes 16)) (sessionKey : List UInt8)
  | serverHandshake (h : Nat) (nonce : Option (Bytes 16)) (sessionKey : List UInt8)
  | send (h : Nat) (frame : OwnedProtocolFrame)
  | recv (h : Nat)
  | close (h : Nat)
  | intoSplit (h : Nat)
  | senderSend (h : Nat) (frame : OwnedProtocolFrame)
  | receiverRecv (h : Nat)
  | senderClose (h : Nat)
  | dropSender (h : Nat)
  | dropReceiver (h : Nat)

inductive Reply where
  /-- No task holds what the step needs. -/
  | notHeld
  | done
  | handshake (r : Outcome HandshakeError Unit)
  | sent (r : Outcome SecureConnError Unit)
  | received (r : Outcome SecureConnError OwnedProtocolFrame)
deriving DecidableEq

section Steps

variable {τ ε α : Type}

/-- A step on the connection named `h`, if its form allows it: `f` gives the reply, the connection
and the manager after it. -/
def onConnection (h : Nat) (allowed : Form → Bool)
    (f : Connection τ → Reply × Connection τ × SessionManager) (n : Node τ) : Reply × Node τ :=
  match n.connections.lookup h with
  | none => (.notHeld, n)
  | some c =>
    if allowed c.form = true then ((f c).1, ⟨(f c).2.2, n.connections.insert h (f c).2.1⟩)
    else (.notHeld, n)

/-- A call on a connection that is not split. -/
def onWhole (h : Nat) (reply : Outcome ε α → Reply) (x : Call (SecureConnection τ) ε α) (n : Node τ) :
    Reply × Node τ :=
  onConnection h (· = .whole)
    (fun c =>
      let r := x ⟨⟨c.adapter, c.sessionId, n.manager⟩, c.lifecycle⟩
      (reply r.1, { c with adapter := r.2.adapter, lifecycle := r.2.lifecycle }, r.2.sessionManager)) n

def Form.senderHeld : Form → Bool
  | .whole => false
  | .halves _ senderHeld _ => senderHeld

def Form.receiverHeld : Form → Bool
  | .whole => false
  | .halves _ _ receiverHeld => receiverHeld

/-- A call on one half of a connection. -/
def onHalf (h : Nat) (held : Form → Bool) (reply : Outcome ε α → Reply) (x : Call (SecureHalf τ) ε α)
    (n : Node τ) : Reply × Node τ :=
  onConnection h held
    (fun c =>
      let r := x ⟨c.adapter, c.sessionId, n.manager⟩
      (reply r.1, { c with adapter := r.2.adapter }, r.2.sessionManager)) n

/-- A step that changes only what is held. -/
def onForm (h : Nat) (allowed : Form → Bool) (f : Form → Form) (n : Node τ) : Reply × Node τ :=
  onConnection h allowed (fun c => (.done, { c with form := f c.form }, n.manager)) n

def Form.closeSender : Form → Form
  | .whole => .whole
  | .halves _ senderHeld receiverHeld => .halves true senderHeld receiverHeld

def Form.dropSender : Form → Form
  | .whole => .whole
  | .halves senderClosed _ receiverHeld => .halves senderClosed false receiverHeld

def Form.dropReceiver : Form → Form
  | .whole => .whole
  | .halves senderClosed senderHeld _ => .halves senderClosed senderHeld false

variable (P : Primitives) (C : Ciborium) (A : Adapter τ)

def step (n : Node τ) : Op τ → Reply × Node τ
  | .new h adapter sessionId =>
    match n.connections.lookup h with
    | some _ => (.notHeld, n)
    | none =>
      let c := SecureConnection.new adapter n.manager sessionId
      (.done, { n with
        connections := n.connections.insert h ⟨c.adapter, c.sessionId, c.lifecycle, .whole⟩ })
  | .clientHandshake h nonce sessionKey =>
    onWhole h .handshake (SecureConnection.clientHandshake P A nonce sessionKey) n
  | .serverHandshake h nonce sessionKey =>
    onWhole h .handshake (SecureConnection.serverHandshake P A nonce sessionKey) n
  | .send h frame => onWhole h .sent (Shared.SecureConnection.sendSecureFrame P C A frame) n
  | .recv h => onWhole h .received (Shared.SecureConnection.recvSecureFrame P C A) n
  | .close h =>
    onWhole h (fun _ : Outcome SecureConnError Unit => .done)
      (Call.update (SecureConnection.close A)) n
  | .intoSplit h =>
    onConnection h (· = .whole)
      (fun c =>
        let (sender, _) := SecureConnection.intoSplit ⟨⟨c.adapter, c.sessionId, n.manager⟩, c.lifecycle⟩
        (.done, { c with adapter := sender.adapter, form := .halves false true true },
          sender.sessionManager)) n
  | .senderSend h frame =>
    onHalf h Form.senderHeld .sent (Shared.SecureSender.sendSecureFrame P C A frame) n
  | .receiverRecv h =>
    onHalf h Form.receiverHeld .received (Shared.SecureReceiver.recvSecureFrame P C A) n
  | .senderClose h =>
    onConnection h Form.senderHeld
      (fun c =>
        let sender := SecureSender.close A ⟨c.adapter, c.sessionId, n.manager⟩
        (.done, { c with adapter := sender.adapter, form := c.form.closeSender },
          sender.sessionManager)) n
  | .dropSender h => onForm h Form.senderHeld Form.dropSender n
  | .dropReceiver h => onForm h Form.receiverHeld Form.dropReceiver n

end Steps

/-! ## Where the sessions and the connections part -/

/-- The steps after which the active sessions are no longer those of the open connections. -/
inductive Severs {τ : Type} (n : Node τ) : Op τ → Prop
  /-- The sender, the last half of an established connection, is dropped after its close. -/
  | lastSender {h : Nat} {c : Connection τ} (hc : n.connections.lookup h = some c)
      (hactive : c.lifecycle = .active) (hform : c.form = .halves true true false) :
      Severs n (.dropSender h)
  /-- The receiver is dropped after the closed sender. -/
  | lastReceiver {h : Nat} {c : Connection τ} (hc : n.connections.lookup h = some c)
      (hactive : c.lifecycle = .active) (hform : c.form = .halves true false true) :
      Severs n (.dropReceiver h)
  /-- An open connection is closed after a call that held the lock has panicked. -/
  | poisoned {h : Nat} {c : Connection τ} (hc : n.connections.lookup h = some c)
      (hform : c.form = .whole) (hactive : c.lifecycle = .active) (hm : n.manager.poisoned = true) :
      Severs n (.close h)
  /-- A connection that is not open is closed, under the id of one that is. -/
  | foreign {h h' : Nat} {c c' : Connection τ} (hc : n.connections.lookup h = some c)
      (hform : c.form = .whole) (hactive : c.lifecycle ≠ .active) (hm : n.manager.poisoned = false)
      (hc' : n.connections.lookup h' = some c') (hopen : c'.isOpen = true)
      (hid : c'.sessionId = c.sessionId) : Severs n (.close h)

/-- What a step from `n` to `n'` does to the sessions and their owners; `severs` tells whether it is
one of the steps above. -/
inductive Change {τ : Type} (n n' : Node τ) (severs : Prop) : Prop
  | kept (hs : ¬ severs) (howner : n'.owner = n.owner) (hactive : n'.manager.active = n.manager.active)
  | acquired {h : Nat} {id : SessionId} (hs : ¬ severs) (hfree : n.owner h = none)
      (hid : id ∉ n.manager.active) (howner : n'.owner = Function.update n.owner h (some id))
      (hactive : n'.manager.active = insert id n.manager.active)
  | released {h : Nat} {id : SessionId} (hs : ¬ severs) (hh : n.owner h = some id)
      (howner : n'.owner = Function.update n.owner h none)
      (hactive : n'.manager.active = n.manager.active \ {id})
  | abandoned {h : Nat} {id : SessionId} (hs : severs) (hh : n.owner h = some id)
      (howner : n'.owner = Function.update n.owner h none)
      (hactive : n'.manager.active = n.manager.active)
  | revoked {id : SessionId} (hs : severs ↔ ∃ h, n.owner h = some id) (howner : n'.owner = n.owner)
      (hactive : n'.manager.active = n.manager.active \ {id})

namespace LifetimeLemmas

open SessionsLemmas SharedLemmas

variable {τ : Type} {n n' : Node τ} {c c' : Connection τ} {h : Nat} {m : SessionManager}

theorem owner_eq_some {id : SessionId} :
    n.owner h = some id ↔
      ∃ c, n.connections.lookup h = some c ∧ c.isOpen = true ∧ c.sessionId = id := by
  simp [Node.owner, Connection.openId, Option.bind_eq_some_iff]

theorem activeExact_iff : ActiveExact n ↔ Balanced n.owner n.manager.active := by
  refine forall_congr' fun id => ?_
  rw [mem_active]
  simp only [owner_eq_some]

theorem owner_insert (h : Nat) (c : Connection τ) (m : SessionManager) :
    Node.owner ⟨m, n.connections.insert h c⟩ = Function.update n.owner h c.openId := by
  funext k
  rw [Node.owner, HashMap.lookup_insert_eq, Function.update_apply]
  split
  · rfl
  · rfl

/-- The steps that keep sessions and connections together, and those that part them. -/
theorem balanced_of_change {severs : Prop} (ht : Balanced n.owner n.manager.active)
    (hx : Exclusive n.owner) (hchange : Change n n' severs) :
    (Balanced n'.owner n'.manager.active ↔ ¬ severs) ∧
      (Balanced n'.owner n'.manager.active → Exclusive n'.owner) := by
  cases hchange with
  | kept hs howner hactive =>
    rw [howner, hactive]
    exact ⟨iff_of_true ht hs, fun _ => hx⟩
  | acquired hs hfree hid howner hactive =>
    rw [howner, hactive]
    refine ⟨iff_of_true (ht.acquire hfree) hs, fun _ => hx.acquire fun j hj => ?_⟩
    exact hid ((ht _).mpr ⟨j, hj⟩)
  | released hs hh howner hactive =>
    rw [howner, hactive]
    exact ⟨iff_of_true (ht.release hx hh) hs, fun _ => hx.release⟩
  | abandoned hs hh howner hactive =>
    rw [howner, hactive]
    exact ⟨iff_of_false (not_balanced_abandon ht hx hh) (not_not_intro hs), fun _ => hx.release⟩
  | revoked hs howner hactive =>
    rw [howner, hactive, balanced_revoke_iff ht, hs, not_exists]
    exact ⟨Iff.rfl, fun _ => hx⟩

/-- The node after a step on the connection named `h`. -/
theorem onConnection_change {allowed : Form → Bool}
    {f : Connection τ → Reply × Connection τ × SessionManager} {severs : Prop}
    (hheld : ∀ c, n.connections.lookup h = some c → allowed c.form = true →
      Change n ⟨(f c).2.2, n.connections.insert h (f c).2.1⟩ severs)
    (hnot : (∀ c, n.connections.lookup h = some c → allowed c.form ≠ true) → ¬ severs) :
    Change n (onConnection h allowed f n).2 severs := by
  unfold onConnection
  cases hl : n.connections.lookup h with
  | none => exact .kept (hnot fun c hc => nomatch hl.symm.trans hc) rfl rfl
  | some c =>
    dsimp only
    split
    · next hallowed => exact hheld c hl hallowed
    · next hallowed =>
      refine .kept (hnot fun c' hc' => ?_) rfl rfl
      cases hl.symm.trans hc'
      exact hallowed

theorem owner_of_lookup (hl : n.connections.lookup h = some c) : n.owner h = c.openId := by
  rw [Node.owner, hl]
  rfl

theorem change_of_openId_eq {severs : Prop} (hl : n.connections.lookup h = some c)
    (hopen : c'.openId = c.openId) (hm : m.active = n.manager.active) (hs : ¬ severs) :
    Change n ⟨m, n.connections.insert h c'⟩ severs := by
  refine .kept hs ?_ hm
  rw [owner_insert, hopen, ← owner_of_lookup hl, Function.update_eq_self]

theorem openId_congr (hid : c'.sessionId = c.sessionId) (hform : c'.form = c.form)
    (hactive : c'.lifecycle = .active ↔ c.lifecycle = .active) : c'.openId = c.openId := by
  simp [Connection.openId, Connection.isOpen, hid, hform, hactive]

theorem openId_of_not_active (hc : c.lifecycle ≠ .active) : c.openId = none := by
  simp [Connection.openId, Connection.isOpen, hc]

theorem openId_of_closed (hc : c.lifecycle = .closed) : c.openId = none :=
  openId_of_not_active fun hactive => nomatch hc.symm.trans hactive

theorem openId_of_ended (hc : c.form.ended = true) : c.openId = none := by
  simp [Connection.openId, Connection.isOpen, hc]

theorem openId_whole (hform : c.form = .whole) (hactive : c.lifecycle = .active) :
    c.openId = some c.sessionId := by
  simp [Connection.openId, Connection.isOpen, Form.ended, hform, hactive]

/-- A handshake gives the connection a session that was free, or changes nothing here. -/
theorem handshake_change {x : Call (SecureConnection τ) HandshakeError Unit}
    (hx : ∀ c, x.wp (fun _ c' => Establishes c c') (EstablishesNothing c) c) {severs : Prop}
    (hs : ¬ severs) : Change n (onWhole h .handshake x n).2 severs := by
  refine onConnection_change (fun c hl hform => ?_) fun _ => hs
  have hform : c.form = .whole := of_decide_eq_true hform
  rcases Call.cases_of_wp (hx ⟨⟨c.adapter, c.sessionId, n.manager⟩, c.lifecycle⟩) with ⟨-, he⟩ | he
  · have hfree : n.owner h = none := by
      rw [owner_of_lookup hl]
      exact openId_of_not_active fun hc => nomatch he.connected.symm.trans hc
    refine .acquired hs hfree (fun hmem => hmem he.registers.1) ?_ (active_of_registers he.registers)
    rw [owner_insert]
    exact congrArg _ (openId_whole hform he.active)
  · exact change_of_openId_eq hl (openId_congr rfl rfl he.active) (congrArg _ he.manager) hs

theorem whole_change {α : Type} {reply : Outcome SecureConnError α → Reply}
    {x : Call (SecureConnection τ) SecureConnError α}
    (hx : ∀ c, (x c).2.lifecycle = c.lifecycle ∧
      (x c).2.sessionManager.active = c.sessionManager.active)
    {severs : Prop} (hs : ¬ severs) : Change n (onWhole h reply x n).2 severs := by
  refine onConnection_change (fun c hl _ => change_of_openId_eq hl ?_ (hx _).2 hs) fun _ => hs
  exact openId_congr rfl rfl (iff_of_eq (congrArg (· = _) (hx _).1))

theorem half_change {α : Type} {held : Form → Bool} {reply : Outcome SecureConnError α → Reply}
    {x : Call (SecureHalf τ) SecureConnError α}
    (hx : ∀ half, (x half).2.sessionManager.active = half.sessionManager.active)
    {severs : Prop} (hs : ¬ severs) : Change n (onHalf h held reply x n).2 severs :=
  onConnection_change (fun _ hl _ => change_of_openId_eq hl rfl (hx _) hs) fun _ => hs

variable {P : Primitives} {C : Ciborium} {A : Adapter τ}

/-- What `close` leaves of the active sessions. -/
theorem active_close (c : SecureConnection τ) :
    (c.close A).sessionManager.active =
      if c.sessionManager.poisoned = true then c.sessionManager.active
      else c.sessionManager.active \ {c.sessionId} := by
  show (SessionManager.closeSession c.sessionId c.sessionManager).2.active = _
  rw [closeSession_snd]
  split
  · rfl
  · exact active_erase _ _

section Close

variable (hl : n.connections.lookup h = some c) (hform : c.form = .whole)
  (hc' : c'.lifecycle = .closed)
  (hm : m.active = if n.manager.poisoned = true then n.manager.active
    else n.manager.active \ {c.sessionId})

include hl hform hc' hm

/-- An open connection is closed: its session goes with it, unless the lock is poisoned. -/
theorem close_open_change (hactive : c.lifecycle = .active) :
    Change n ⟨m, n.connections.insert h c'⟩ (Severs n (.close h)) := by
  have hh : n.owner h = some c.sessionId := (owner_of_lookup hl).trans (openId_whole hform hactive)
  have howner : Node.owner ⟨m, n.connections.insert h c'⟩ = Function.update n.owner h none := by
    rw [owner_insert, openId_of_closed hc']
  cases hp : n.manager.poisoned with
  | true =>
    rw [if_pos hp] at hm
    exact .abandoned (.poisoned hl hform hactive hp) hh howner hm
  | false =>
    rw [if_neg (Bool.eq_false_iff.mp hp)] at hm
    refine .released (fun hs => ?_) hh howner hm
    cases hs with
    | poisoned _ _ _ hp' => exact nomatch hp.symm.trans hp'
    | foreign hc _ hne =>
      cases hl.symm.trans hc
      exact hne hactive

/-- A connection that is not open is closed: its id is removed, whoever has it. -/
theorem close_stale_change (hactive : c.lifecycle ≠ .active) :
    Change n ⟨m, n.connections.insert h c'⟩ (Severs n (.close h)) := by
  have howner : Node.owner ⟨m, n.connections.insert h c'⟩ = n.owner := by
    rw [owner_insert, openId_of_closed hc', ← openId_of_not_active hactive, ← owner_of_lookup hl,
      Function.update_eq_self]
  cases hp : n.manager.poisoned with
  | true =>
    rw [if_pos hp] at hm
    refine .kept (fun hs => ?_) howner hm
    cases hs with
    | poisoned hc _ hact =>
      cases hl.symm.trans hc
      exact hactive hact
    | foreign _ _ _ hp' => exact nomatch hp.symm.trans hp'
  | false =>
    rw [if_neg (Bool.eq_false_iff.mp hp)] at hm
    refine .revoked ⟨fun hs => ?_, fun ⟨h', hh'⟩ => ?_⟩ howner hm
    · cases hs with
      | poisoned _ _ _ hp' => exact nomatch hp.symm.trans hp'
      | foreign hc _ _ _ hc' hopen hid =>
        cases hl.symm.trans hc
        exact ⟨_, owner_eq_some.mpr ⟨_, hc', hopen, hid⟩⟩
    · obtain ⟨_, hc', hopen, hid⟩ := owner_eq_some.mp hh'
      exact .foreign hl hform hactive hp hc' hopen hid

end Close

theorem close_change : Change n (step P C A n (.close h)).2 (Severs n (.close h)) := by
  refine onConnection_change (fun c hl hform => ?_) fun hnot hs => ?_
  · have hform : c.form = .whole := of_decide_eq_true hform
    have hm := active_close (A := A) ⟨⟨c.adapter, c.sessionId, n.manager⟩, c.lifecycle⟩
    by_cases hactive : c.lifecycle = .active
    · exact close_open_change hl hform rfl hm hactive
    · exact close_stale_change hl hform rfl hm hactive
  · cases hs with
    | poisoned hc hform => exact hnot _ hc (decide_eq_true hform)
    | foreign hc hform => exact hnot _ hc (decide_eq_true hform)

/-- A step that changes only what is held ends the connection if its form is the `last` one, and
otherwise nothing. -/
theorem onForm_change {allowed : Form → Bool} {f : Form → Form} {last : Form} {severs : Prop}
    (hallowed : ∀ form, allowed form = true → form.ended = false)
    (hends : ∀ form, allowed form = true ∧ (f form).ended = true ↔ form = last)
    (hs : severs ↔ ∃ c, n.connections.lookup h = some c ∧ c.lifecycle = .active ∧ c.form = last) :
    Change n (onForm h allowed f n).2 severs := by
  refine onConnection_change (fun c hl hheld => ?_) fun hnot hsev => ?_
  · have hlast : (f c.form).ended = true ↔ c.form = last :=
      (and_iff_right hheld).symm.trans (hends c.form)
    by_cases hactive : c.lifecycle = .active
    · have hh : n.owner h = some c.sessionId := by
        rw [owner_of_lookup hl]
        simp [Connection.openId, Connection.isOpen, hactive, hallowed _ hheld]
      by_cases hform : c.form = last
      · refine .abandoned (hs.mpr ⟨c, hl, hactive, hform⟩) hh ?_ rfl
        rw [owner_insert, openId_of_ended (hlast.mpr hform)]
      · refine change_of_openId_eq hl ?_ rfl fun hsev => ?_
        · simp [Connection.openId, Connection.isOpen, hactive, hallowed _ hheld,
            Bool.eq_false_iff.mpr (mt hlast.mp hform)]
        · obtain ⟨c', hl', -, hform'⟩ := hs.mp hsev
          cases hl.symm.trans hl'
          exact hform hform'
    · refine change_of_openId_eq hl ?_ rfl fun hsev => ?_
      · simp [Connection.openId, Connection.isOpen, hactive]
      · obtain ⟨c', hl', hactive', -⟩ := hs.mp hsev
        cases hl.symm.trans hl'
        exact hactive hactive'
  · obtain ⟨c, hl, -, hform⟩ := hs.mp hsev
    exact hnot c hl ((hends c.form).mpr hform).1

theorem ended_of_senderHeld (form : Form) (hheld : form.senderHeld = true) : form.ended = false := by
  cases form with
  | whole => rfl
  | halves senderClosed senderHeld receiverHeld =>
    cases (hheld : senderHeld = true)
    simp [Form.ended]

theorem ended_of_receiverHeld (form : Form) (hheld : form.receiverHeld = true) :
    form.ended = false := by
  cases form with
  | whole => rfl
  | halves senderClosed senderHeld receiverHeld =>
    cases (hheld : receiverHeld = true)
    simp [Form.ended]

theorem dropSender_ends (form : Form) :
    form.senderHeld = true ∧ form.dropSender.ended = true ↔ form = .halves true true false := by
  cases form with
  | whole => simp [Form.senderHeld]
  | halves senderClosed senderHeld receiverHeld =>
    simp only [Form.senderHeld, Form.dropSender, Form.ended, Form.halves.injEq, Bool.and_eq_true,
      Bool.not_eq_true', Bool.not_false, and_true]
    exact ⟨fun h => ⟨h.2.1, h.1, h.2.2⟩, fun h => ⟨h.2.1, h.1, h.2.2⟩⟩

theorem dropReceiver_ends (form : Form) :
    form.receiverHeld = true ∧ form.dropReceiver.ended = true ↔ form = .halves true false true := by
  cases form with
  | whole => simp [Form.receiverHeld]
  | halves senderClosed senderHeld receiverHeld =>
    simp only [Form.receiverHeld, Form.dropReceiver, Form.ended, Form.halves.injEq, Bool.and_eq_true,
      Bool.not_eq_true', Bool.not_false, and_true]
    exact ⟨fun h => ⟨h.2.1, h.2.2, h.1⟩, fun h => ⟨h.2.2, h.1, h.2.1⟩⟩

theorem severs_dropSender_iff : Severs n (.dropSender h) ↔ ∃ c, n.connections.lookup h = some c ∧
    c.lifecycle = .active ∧ c.form = .halves true true false := by
  refine ⟨fun hs => ?_, fun ⟨c, hl, hactive, hform⟩ => .lastSender hl hactive hform⟩
  cases hs with
  | lastSender hc hactive hform => exact ⟨_, hc, hactive, hform⟩

theorem severs_dropReceiver_iff : Severs n (.dropReceiver h) ↔
    ∃ c, n.connections.lookup h = some c ∧ c.lifecycle = .active ∧
      c.form = .halves true false true := by
  refine ⟨fun hs => ?_, fun ⟨c, hl, hactive, hform⟩ => .lastReceiver hl hactive hform⟩
  cases hs with
  | lastReceiver hc hactive hform => exact ⟨_, hc, hactive, hform⟩

theorem step_change (n : Node τ) (op : Op τ) : Change n (step P C A n op).2 (Severs n op) := by
  cases op with
  | new h adapter sessionId =>
    rw [step]
    cases hl : n.connections.lookup h with
    | some c => exact .kept nofun rfl rfl
    | none =>
      refine .kept nofun ?_ rfl
      have hfree : n.owner h = none := by
        rw [Node.owner, hl]
        rfl
      have hnew : (⟨adapter, sessionId, .connected, .whole⟩ : Connection τ).openId = none := rfl
      rw [owner_insert]
      show Function.update n.owner h (Connection.openId ⟨adapter, sessionId, .connected, .whole⟩) = _
      rw [hnew, ← hfree, Function.update_eq_self]
  | clientHandshake h nonce sessionKey =>
    exact handshake_change (clientHandshake_wp nonce sessionKey) nofun
  | serverHandshake h nonce sessionKey =>
    exact handshake_change (serverHandshake_wp nonce sessionKey) nofun
  | send h frame => exact whole_change (whileActive_kept (encryptAndSend_active _ frame)) nofun
  | recv h => exact whole_change (whileActive_kept (receiveAndDecrypt_active _)) nofun
  | close h => exact close_change
  | intoSplit h =>
    refine onConnection_change (fun c hl hform => ?_) fun _ => nofun
    have hform : c.form = .whole := of_decide_eq_true hform
    refine change_of_openId_eq hl ?_ rfl nofun
    simp [Connection.openId, Connection.isOpen, hform, Form.ended]
  | senderSend h frame => exact half_change (encryptAndSend_active _ frame) nofun
  | receiverRecv h => exact half_change (receiveAndDecrypt_active _) nofun
  | senderClose h =>
    refine onConnection_change (fun c hl hheld => ?_) fun _ => nofun
    refine change_of_openId_eq hl ?_ rfl nofun
    have hheld' : c.form.closeSender.senderHeld = true := by
      cases hform : c.form with
      | whole => exact nomatch (hform ▸ hheld : Form.senderHeld .whole = true)
      | halves _ _ _ => rw [hform] at hheld; exact hheld
    simp [Connection.openId, Connection.isOpen, ended_of_senderHeld _ hheld,
      ended_of_senderHeld _ hheld']
  | dropSender h => exact onForm_change ended_of_senderHeld dropSender_ends severs_dropSender_iff
  | dropReceiver h =>
    exact onForm_change ended_of_receiverHeld dropReceiver_ends severs_dropReceiver_iff

end LifetimeLemmas

open LifetimeLemmas

/-- Over every run of a node, the active sessions are those of the connections that are established
and not closed, exactly as long as no step severs them. -/
theorem active_sessions_exact_iff {τ : Type} (P : Primitives) (C : Ciborium) (A : Adapter τ)
    (ops : List (Op τ)) :
    (∀ e ∈ run (step P C A) (Node.new τ) ops, ActiveExact e.post) ↔
      ∀ e ∈ run (step P C A) (Node.new τ) ops, ¬ Severs e.pre e.input := by
  let owned (n : Node τ) : Prop := Balanced n.owner n.manager.active ∧ Exclusive n.owner
  have hinit : owned (Node.new τ) := ⟨SessionsLemmas.active_new ▸ balanced_empty, exclusive_empty⟩
  refine @run_safe_iff _ _ _ _ owned ActiveExact (fun n op => ¬ Severs n op) _ hinit
    (fun n op hn => ?_) (fun n op hn hexact => ?_) ops
  · exact activeExact_iff.trans (balanced_of_change hn.1 hn.2 (step_change n op)).1
  · have hbalanced := activeExact_iff.mp hexact
    exact ⟨hbalanced, (balanced_of_change hn.1 hn.2 (step_change n op)).2 hbalanced⟩

/-- A client connection is established and split; its sender is closed, and both halves are dropped.
Its keys are still in the manager. -/
theorem split_session_retained :
    let id : SessionId := Bytes.fill 16 7
    let n := endState (step .plain .canonical queueAdapter) (Node.new _)
      [.new 0 [handshakeFrame (Bytes.fill 16 2)] id, .clientHandshake 0 (some (Bytes.fill 16 1)) [9],
        .intoSplit 0, .senderClose 0, .dropSender 0, .dropReceiver 0]
    ¬ ActiveExact n ∧ (∀ e ∈ n.connections.entries, e.2.form.ended = true) ∧
      (n.manager.activeSessions.lookup id).map Option.isSome = some true := by
  intro id n
  have hended : ∀ e ∈ n.connections.entries, e.2.form.ended = true := by decide +kernel
  have hkeys : (n.manager.activeSessions.lookup id).map Option.isSome = some true := by decide +kernel
  refine ⟨fun hexact => ?_, hended, hkeys⟩
  have hactive : n.manager.activeSessions.lookup id ≠ none := fun hnone => by
    rw [hnone] at hkeys
    cases hkeys
  obtain ⟨h, c, hl, hopen, -⟩ := (hexact id).mp hactive
  have hc := hended _ (HashMap.mem_entries.mpr hl)
  simp [Connection.isOpen, hc] at hopen

end Blackwing.Session.Lifetime
