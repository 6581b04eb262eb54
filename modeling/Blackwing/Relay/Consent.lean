import Blackwing.Relay.Provenance

/-!
# Mutual consent

One honest device signs only through its `RelayControlClient`. Everybody else may send the
relay any message, with their own signatures or with signatures the device has made.

`ConnectIntent` and `AcceptConnect` sign the same string: the intent id, the signer, the
other device and a timestamp. So the signature of a `connect_intent` towards a device is
also a signature of the acceptance of an intent of that device with the same id.

* `World`, `Act`, `act`: the relay together with the calls the device has made.
* `Unforged`, `CollisionFree`: what is assumed of Ed25519 and SHA-256.
* `accepted_only_with_consent`: unless a `connect_intent` of the device is presented as an
  acceptance, every accepted intent with the device as its target was accepted by it.
* `connect_presented_as_accept`: a run in which that happens.
-/

namespace Blackwing.Relay

/-- The relay, and the calls that the honest device has made so far. -/
structure World where
  server : RelayServer
  calls : List ClientCall

/-- The device makes a call, whose message becomes known to everybody, or somebody does something
at the relay. -/
inductive Act where
  | call (call : ClientCall)
  | relay (op : Op)

/-- One step of the world. -/
def act (C : RelayCrypto) (w : World) : Act → Option Reply × World
  | .call call => (none, { w with calls := w.calls ++ [call] })
  | .relay op => (some (step C w.server op).1, { w with server := (step C w.server op).2 })

/-- The world before anything happened. -/
def World.start (rateLimitBytesPerSec sessionExpiryMs : UInt64) : World :=
  ⟨RelayServer.withLimits rateLimitBytesPerSec sessionExpiryMs, []⟩

/-- The message that reaches the relay in the act, if any. -/
def Act.message? : Act → Option RelayMessage
  | .relay (.message message _ _) => some message
  | _ => none

section Assumptions

variable {C : RelayCrypto} (D : RelayControlClient C) (w : World)

/-- If the signature that the relay checks is valid under the device's key, the device has signed
that digest before. -/
def Unforged (a : Act) : Prop :=
  ∀ message ∈ a.message?, ∀ checked ∈ checkedSignature w.server message,
    signed C D.verifyKeyBytes checked.1 checked.2 = true →
      ∃ call ∈ w.calls, ∃ payload ∈ D.payload call, C.sha256 payload = C.sha256 checked.1

instance (a : Act) : Decidable (Unforged D w a) :=
  inferInstanceAs (Decidable (∀ message ∈ a.message?, _))

/-- The strings of which an act takes the SHA-256. -/
def hashed : Act → List (List UInt8)
  | .call call => (D.payload call).toList
  | .relay (.message message _ _) =>
    ((checkedSignature w.server message).map Prod.fst).toList ++
      match message with
      | .registerRequest _ verifyKeyBytes _ _ => [verifyKeyBytes.toList]
      | _ => []
  | _ => []

/-- The message accepts, in the device's name, an intent with the id, the other device and the
timestamp of a `connect_intent` call. -/
def presents (s : RelayServer) : RelayMessage → ClientCall → Bool
  | .acceptConnect acceptor intentId _ timestamp _, .connectIntent target id _ ts =>
    acceptor = D.deviceId ∧ intentId = id.toList ∧ timestamp = ts ∧
      (s.rendezvous.lookup id).any fun intent => intent.initiator = target
  | _, _ => false

/-- The act does not present a `connect_intent` of the device as its acceptance. -/
def NotPresented (a : Act) : Prop :=
  ∀ message ∈ a.message?, ∀ call ∈ w.calls, presents D w.server message call = false

instance (a : Act) : Decidable (NotPresented D w a) :=
  inferInstanceAs (Decidable (∀ message ∈ a.message?, _))

/-- Every accepted intent with the device as its target was accepted by the device. -/
def Consented : Prop :=
  ∀ intentId intent relayToken, w.server.rendezvous.lookup intentId = some intent →
    intent.target = D.deviceId → intent.state = .accepted relayToken →
    ∃ candidates timestamp, .acceptConnect intentId intent.initiator candidates timestamp ∈ w.calls

end Assumptions

/-- No two of the strings have the same SHA-256. -/
def CollisionFree (C : RelayCrypto) (strings : List (List UInt8)) : Prop :=
  ∀ x ∈ strings, ∀ y ∈ strings, C.sha256 x = C.sha256 y → x = y

instance (C : RelayCrypto) (strings : List (List UInt8)) : Decidable (CollisionFree C strings) :=
  inferInstanceAs (Decidable (∀ x ∈ strings, _))

namespace ConsentLemmas

open ServerLemmas RendezvousLemmas ProvenanceLemmas

variable {C : RelayCrypto} {D : RelayControlClient C}

/-! ### The signed strings -/

theorem length_registerPayload (deviceId : DeviceId) (verifyKeyBytes : Bytes 32) (timestamp : UInt64) :
    (registerPayload deviceId verifyKeyBytes timestamp).length = 72 := by
  simp [registerPayload]

theorem length_pairPayload (intentId : IntentId) (own other : DeviceId) (timestamp : UInt64) :
    (pairPayload intentId.toList own other timestamp).length = 88 := by
  simp [pairPayload]

theorem length_establishPayload (intentId : IntentId) (deviceId : DeviceId) (timestamp : UInt64) :
    (establishPayload intentId.toList deviceId timestamp).length = 56 := by
  simp [establishPayload]

theorem pairPayload_injective {i i' : IntentId} {own own' other other' : DeviceId} {t t' : UInt64}
    (h : pairPayload i.toList own other t = pairPayload i'.toList own' other' t') :
    i = i' ∧ other = other' ∧ t = t' := by
  unfold pairPayload at h
  rw [List.append_assoc, List.append_assoc, List.append_assoc, List.append_assoc] at h
  obtain ⟨hi, h⟩ := Bytes.append_inj h
  obtain ⟨-, h⟩ := Bytes.append_inj h
  obtain ⟨ho, h⟩ := Bytes.append_inj h
  exact ⟨hi, ho, beBytes64_injective (Bytes.toList_injective h)⟩

/-- A call whose payload is that of a pair is a `connect_intent` or an `accept_connect` of it. -/
theorem call_of_pairPayload {call : ClientCall} {intentId : IntentId} {other : DeviceId}
    {timestamp : UInt64}
    (h : D.payload call = some (pairPayload intentId.toList D.deviceId other timestamp)) :
    (∃ candidates, call = .connectIntent other intentId candidates timestamp) ∨
      ∃ candidates, call = .acceptConnect intentId other candidates timestamp := by
  cases call with
  | register ts =>
    have hlen := congrArg List.length (Option.some.inj h)
    rw [length_registerPayload, length_pairPayload] at hlen
    cases hlen
  | connectIntent target id candidates ts =>
    obtain ⟨rfl, rfl, rfl⟩ := pairPayload_injective (Option.some.inj h)
    exact Or.inl ⟨candidates, rfl⟩
  | acceptConnect id initiator candidates ts =>
    obtain ⟨rfl, rfl, rfl⟩ := pairPayload_injective (Option.some.inj h)
    exact Or.inr ⟨candidates, rfl⟩
  | getCandidates id => cases h
  | pollPendingIntents => cases h
  | establishRelay id ts =>
    have hlen := congrArg List.length (Option.some.inj h)
    rw [length_establishPayload, length_pairPayload] at hlen
    cases hlen

/-! ### What one step preserves -/

/-- Every registered key hashes to its device, and all strings hashed so far are among
`strings`. -/
structure Hashed (D : RelayControlClient C) (strings : List (List UInt8)) (w : World) : Prop where
  keys : Keys C w.server
  stored : ∀ deviceId ctx, w.server.registry.lookup deviceId = some ctx →
    ctx.verifyKeyBytes.toList ∈ strings
  calls : ∀ call ∈ w.calls, ∀ payload ∈ D.payload call, payload ∈ strings

/-- What every step of the run meets. -/
structure Meets (D : RelayControlClient C) (strings : List (List UInt8)) (w : World) (a : Act) :
    Prop where
  unforged : Unforged D w a
  hashed : ∀ x ∈ hashed D w a, x ∈ strings
  notPresented : NotPresented D w a

variable {strings : List (List UInt8)} {w : World} {op : Op} {reply : Reply} {s' : RelayServer}

theorem hashed_relay (heff : Effect C w.server op reply s') (hh : Hashed D strings w)
    (hmeets : Meets D strings w (.relay op)) : Hashed D strings { w with server := s' } := by
  refine ⟨keys_step heff hh.keys, ?_, hh.calls⟩
  cases heff with
  | evicted peerAddr e hauth => exact fun d ctx hl => hh.stored d ctx (lookup_of_evicted hl)
  | registered peerAddr hauth hroom =>
    intro d ctx hl
    rw [HashMap.lookup_insert_eq] at hl
    split at hl
    · cases hl
      exact hmeets.hashed _ (List.mem_append_right _ (List.mem_singleton.mpr rfl))
    · exact hh.stored d ctx (lookup_of_evicted hl)
  | _ => exact hh.stored

section

variable (hfree : CollisionFree C strings) (hown : D.verifyKeyBytes.toList ∈ strings)
include hfree hown

/-- An acceptance in the device's name that passes the checks of the relay was signed by the device,
for this acceptance or for an intent of its own. -/
theorem call_of_accept (hh : Hashed D strings w) {intentId : IntentId} {intent : PendingIntent}
    {candidates : List Candidate} {now timestamp : UInt64} {signatureBytes : List UInt8}
    {peerAddr : Option SocketAddr} {env : Env}
    (hmeets : Meets D strings w (.relay (.message
      (.acceptConnect D.deviceId intentId.toList candidates timestamp signatureBytes) peerAddr env)))
    (hauth : AcceptAuth C w.server now D.deviceId intentId timestamp signatureBytes intent) :
    ∃ call ∈ w.calls, (∃ cands, call = .connectIntent intent.initiator intentId cands timestamp) ∨
      ∃ cands, call = .acceptConnect intentId intent.initiator cands timestamp := by
  have hchecked := checkedSignature_accept D.deviceId candidates timestamp signatureBytes hauth.found
  obtain ⟨ctx, hl, -, hsig⟩ := signedBy_eq_true.mp hauth.signature
  -- the key registered for the device is the device's own
  have hkey : ctx.verifyKeyBytes = D.verifyKeyBytes :=
    Bytes.toList_injective (hfree _ (hh.stored _ ctx hl) _ hown (hh.keys _ ctx hl))
  rw [hkey] at hsig
  obtain ⟨call, hcall, payload, hpayload, heq⟩ := hmeets.unforged _ rfl _ hchecked hsig
  have hmem : pairPayload intentId.toList D.deviceId intent.initiator timestamp ∈ strings := by
    refine hmeets.hashed _ (List.mem_append_left _ ?_)
    rw [hchecked]
    exact List.mem_singleton.mpr rfl
  -- the digest the device signed is the digest of this very string
  obtain rfl := hfree _ (hh.calls call hcall payload hpayload) _ hmem heq
  exact ⟨call, hcall, call_of_pairPayload hpayload⟩

theorem consented_relay (heff : Effect C w.server op reply s') (hh : Hashed D strings w)
    (hmeets : Meets D strings w (.relay op)) (hc : Consented D w) :
    Consented D { w with server := s' } := by
  cases heff with
  | pruned peerAddr env e =>
    intro id intent relayToken hl
    rw [lookup_pruned] at hl
    exact hc id intent relayToken (Option.filter_eq_some_iff.mp hl).1
  | stored candidates peerAddr hauth hroom =>
    intro id intent relayToken hl ht hst
    rw [HashMap.lookup_insert_eq] at hl
    split at hl
    · cases hl
      cases hst
    · rw [lookup_pruned] at hl
      exact hc id intent relayToken (Option.filter_eq_some_iff.mp hl).1 ht hst
  | touched e hold hpending hi ht hcands hnew =>
    intro id intent relayToken hl ht hst
    rw [HashMap.lookup_insert_eq] at hl
    split at hl
    · cases hl
      rcases hnew with hnew | hnew
      · cases hnew.symm.trans hst
      · cases hnew.symm.trans hst
    · exact hc id intent relayToken hl ht hst
  | @accepted intentId intent candidates createdAt timestamp signatureBytes relayToken peerAddr env
      reply forwarding hauth hpending hr hf =>
    intro id intent' token hl ht hst
    rw [HashMap.lookup_insert_eq] at hl
    split at hl
    · next hid =>
      cases hid
      cases hl
      rw [show intent.target = D.deviceId from ht] at hauth hmeets
      obtain ⟨call, hcall, ⟨cands, rfl⟩ | ⟨cands, rfl⟩⟩ := call_of_accept hfree hown hh hmeets hauth
      · -- a `connect_intent` of the device would be presented as its acceptance
        have hno := hmeets.notPresented _ rfl _ hcall
        have hyes : presents D w.server (.acceptConnect D.deviceId intentId.toList candidates timestamp
            signatureBytes) (.connectIntent intent.initiator intentId cands timestamp) = true := by
          simp [presents, hauth.found]
        cases hno.symm.trans hyes
      · exact ⟨cands, timestamp, hcall⟩
    · exact hc id intent' token hl ht hst
  | _ => exact hc

end

theorem hashed_call {call : ClientCall} (hh : Hashed D strings w)
    (hmeets : Meets D strings w (.call call)) :
    Hashed D strings { w with calls := w.calls ++ [call] } := by
  refine ⟨hh.keys, hh.stored, fun c hc payload hp => ?_⟩
  rcases List.mem_append.mp hc with hc | hc
  · exact hh.calls c hc payload hp
  · rw [List.mem_singleton.mp hc] at hp
    exact hmeets.hashed payload (Option.mem_toList.mpr hp)

theorem consented_call {call : ClientCall} (hc : Consented D w) :
    Consented D { w with calls := w.calls ++ [call] } := by
  intro id intent relayToken hl ht hst
  obtain ⟨cands, timestamp, hmem⟩ := hc id intent relayToken hl ht hst
  exact ⟨cands, timestamp, List.mem_append_left _ hmem⟩

theorem start_world (rateLimitBytesPerSec sessionExpiryMs : UInt64) :
    Hashed D strings (World.start rateLimitBytesPerSec sessionExpiryMs) ∧
      Consented D (World.start rateLimitBytesPerSec sessionExpiryMs) := by
  refine ⟨⟨(fun _ _ hl => ?_), (fun _ _ hl => ?_), (fun _ hc => ?_)⟩, fun _ _ _ hl => ?_⟩
  · cases hl
  · cases hl
  · cases hc
  · cases hl

theorem act_step (hfree : CollisionFree C strings) (hown : D.verifyKeyBytes.toList ∈ strings)
    (a : Act) (hh : Hashed D strings w) (hc : Consented D w) (hmeets : Meets D strings w a) :
    Hashed D strings (act C w a).2 ∧ Consented D (act C w a).2 := by
  cases a with
  | call call => exact ⟨hashed_call hh hmeets, consented_call hc⟩
  | relay op =>
    have heff := step_effect C w.server op
    exact ⟨hashed_relay heff hh hmeets, consented_relay hfree hown heff hh hmeets hc⟩

end ConsentLemmas

/-- The strings hashed in a run of the world, with the device's own key. -/
def hashedIn {C : RelayCrypto} (D : RelayControlClient C) (h : List (Entry World Act (Option Reply))) :
    List (List UInt8) :=
  D.verifyKeyBytes.toList :: h.flatMap fun e => hashed D e.pre e.input

open ConsentLemmas in
/-- If no signature of the device is forged and no two hashed strings collide, then in every run in
which no `connect_intent` of the device is presented as its acceptance, every accepted intent with
the device as its target was accepted by the device. -/
theorem accepted_only_with_consent {C : RelayCrypto} (D : RelayControlClient C)
    (rateLimitBytesPerSec sessionExpiryMs : UInt64) (acts : List Act)
    (hunforged : ∀ e ∈ run (act C) (World.start rateLimitBytesPerSec sessionExpiryMs) acts,
      Unforged D e.pre e.input)
    (hfree : CollisionFree C
      (hashedIn D (run (act C) (World.start rateLimitBytesPerSec sessionExpiryMs) acts)))
    (hpresented : ∀ e ∈ run (act C) (World.start rateLimitBytesPerSec sessionExpiryMs) acts,
      NotPresented D e.pre e.input) :
    Consented D (endState (act C) (World.start rateLimitBytesPerSec sessionExpiryMs) acts) := by
  have hmeets : ∀ e ∈ run (act C) (World.start rateLimitBytesPerSec sessionExpiryMs) acts,
      Meets D (hashedIn D (run (act C) (World.start rateLimitBytesPerSec sessionExpiryMs) acts))
        e.pre e.input := by
    intro e he
    refine ⟨hunforged e he, fun x hx => ?_, hpresented e he⟩
    exact List.mem_cons_of_mem _ (List.mem_flatMap.mpr ⟨e, he, hx⟩)
  have hboth := @run_guarded _ _ _ (act C) (Meets D (hashedIn D _))
    (fun _ w => Hashed D (hashedIn D _) w ∧ Consented D w) _
    (start_world rateLimitBytesPerSec sessionExpiryMs)
    (fun _ w a hw hm => act_step hfree List.mem_cons_self a hw.1 hw.2 hm) acts hmeets
  exact hboth.2

/-- The honest device registers and makes a call. A device of the adversary registers too, asks for
the honest device under an intent id, and sends an acceptance in its name, with the honest device's
signature of that id and the two devices. -/
def acceptanceActs (call : ClientCall) : List Act :=
  let D := plainClient 1
  let T := plainClient 2
  let intentId : IntentId := Bytes.fill 16 7
  let now := Env.at 5000 (some (Bytes.fill 32 9))
  [.call (.register 5000),
    .relay (.message (D.request (.register 5000)) none now),
    .relay (.message (T.request (.register 5000)) none now),
    .call call,
    .relay (.message (T.request (.connectIntent D.deviceId intentId [] 5000)) none now),
    .relay (.message (.acceptConnect D.deviceId intentId.toList [] 5000
      (D.signatureBytes (pairPayload intentId.toList D.deviceId T.deviceId 5000))) none now)]

/-- The world after these acts. -/
def acceptanceWorld (call : ClientCall) : World :=
  endState (act .plain) (World.start rateLimitBytesPerSec sessionExpiryMs) (acceptanceActs call)

/-- When the call was the `accept_connect` of that intent, the intent is accepted with consent. -/
theorem accept_call_consented :
    ((acceptanceWorld (.acceptConnect (Bytes.fill 16 7) (plainClient 2).deviceId []
        5000)).server.rendezvous.lookup (Bytes.fill 16 7)).map PendingIntent.state =
      some (.accepted (Bytes.fill 32 9)) ∧
    Consented (plainClient 1)
      (acceptanceWorld (.acceptConnect (Bytes.fill 16 7) (plainClient 2).deviceId [] 5000)) :=
  ⟨by decide +kernel, accepted_only_with_consent (plainClient 1) rateLimitBytesPerSec sessionExpiryMs _
    (by decide +kernel) (by decide +kernel) (by decide +kernel)⟩

/-- When the call was a `connect_intent` towards the other device, nothing is forged and nothing
collides, and the intent of the other device is accepted without an `accept_connect`. -/
theorem connect_presented_as_accept :
    (∀ e ∈ run (act .plain) (World.start rateLimitBytesPerSec sessionExpiryMs)
        (acceptanceActs (.connectIntent (plainClient 2).deviceId (Bytes.fill 16 7) [] 5000)),
      Unforged (plainClient 1) e.pre e.input) ∧
    CollisionFree .plain (hashedIn (plainClient 1)
      (run (act .plain) (World.start rateLimitBytesPerSec sessionExpiryMs)
        (acceptanceActs (.connectIntent (plainClient 2).deviceId (Bytes.fill 16 7) [] 5000)))) ∧
    (acceptanceWorld (.connectIntent (plainClient 2).deviceId (Bytes.fill 16 7) [] 5000)).calls =
      [.register 5000, .connectIntent (plainClient 2).deviceId (Bytes.fill 16 7) [] 5000] ∧
    ((acceptanceWorld (.connectIntent (plainClient 2).deviceId (Bytes.fill 16 7) []
        5000)).server.rendezvous.lookup (Bytes.fill 16 7)).map
        (fun intent => (intent.initiator, intent.target, intent.state)) =
      some ((plainClient 2).deviceId, (plainClient 1).deviceId, .accepted (Bytes.fill 32 9)) ∧
    ¬ Consented (plainClient 1)
      (acceptanceWorld (.connectIntent (plainClient 2).deviceId (Bytes.fill 16 7) [] 5000)) := by
  have hcalls : (acceptanceWorld (.connectIntent (plainClient 2).deviceId (Bytes.fill 16 7) []
      5000)).calls =
        [.register 5000, .connectIntent (plainClient 2).deviceId (Bytes.fill 16 7) [] 5000] := by
    decide +kernel
  have hintent : ((acceptanceWorld (.connectIntent (plainClient 2).deviceId (Bytes.fill 16 7) []
      5000)).server.rendezvous.lookup (Bytes.fill 16 7)).map
        (fun intent => (intent.initiator, intent.target, intent.state)) =
      some ((plainClient 2).deviceId, (plainClient 1).deviceId, .accepted (Bytes.fill 32 9)) := by
    decide +kernel
  refine ⟨by decide +kernel, by decide +kernel, hcalls, hintent, fun hc => ?_⟩
  obtain ⟨intent, hl, heq⟩ := Option.map_eq_some_iff.mp hintent
  obtain ⟨-, htarget, hstate⟩ : intent.initiator = _ ∧ intent.target = _ ∧ intent.state = _ := by
    simpa using heq
  obtain ⟨candidates, timestamp, hmem⟩ := hc _ intent _ hl htarget hstate
  rw [hcalls] at hmem
  rcases List.mem_cons.mp hmem with h | hmem
  · cases h
  · cases List.mem_singleton.mp hmem

end Blackwing.Relay
