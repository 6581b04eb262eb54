import Blackwing.Protocol.Link
import Blackwing.Protocol.Message
import Blackwing.Session.Fragments

/-!
# The two layers stacked

One direction of a session: the message layer (`wire.rs`) sends the fragments of a message as frames
of the secure layer (`secure_conn.rs`), which encrypts each frame and sends the fragments of its
serialization over the wire. Both ends hold their keys in the session that the handshake registered.

* `secured`: the secure layer is a channel of frames that keeps order, over any such channel below.
* `fragmentation_delivers`: messages within the limit arrive as they were sent, over either layer
  and over both.
-/

namespace Blackwing.Session

open Protocol CodecLemmas EncryptionLemmas LinkLemmas FragmentsLemmas FifoLemmas

/-! ## The secure layer -/

/-- `ConnectionState`. -/
inductive ConnectionState where
  | connected
  | handshaking
  | active
  | closing
  | closed
deriving DecidableEq, Repr

/-- One end of a session: the state of its lifecycle, and the entry of the session in its
`SessionManager`. -/
structure Endpoint where
  state : ConnectionState
  session : Option (Option EncryptionContext)

/-- `SessionManager::with_session_context`, while no holder of the lock has panicked. -/
def withSessionContext {α : Type} (f : Call EncryptionContext ProtocolError α) :
    Call Endpoint ProtocolError α := fun self =>
  match self.session with
  | none => (.err .sessionNotFound, self)
  | some none => (.err .invalidHandshake, self)
  | some (some ctx) => ((f ctx).1, { self with session := some (some (f ctx).2) })

/-- The sending end, the wire and the receiving end. -/
structure SecurePair (τ : Type) where
  sender : Endpoint
  wire : τ
  receiver : Endpoint

namespace SecurePair

variable {τ α ε : Type}

/-- A call on the sending end. -/
def onSender (x : Call Endpoint ProtocolError α) : Call (SecurePair τ) SecureConnError α :=
  Call.onPart sender (fun s e => { s with sender := e }) .protocol x

/-- A call on the wire. -/
def onWire (x : Call τ SecureConnError α) : Call (SecurePair τ) SecureConnError α :=
  Call.onPart wire (fun s w => { s with wire := w }) id x

/-- A call on the receiving end. -/
def onReceiver (x : Call Endpoint ProtocolError α) : Call (SecurePair τ) SecureConnError α :=
  Call.onPart receiver (fun s e => { s with receiver := e }) .protocol x

end SecurePair

section Calls

variable {τ : Type} (P : Primitives) (C : Ciborium)
  (sendFrame : OwnedProtocolFrame → Call τ AdapterError Unit)
  (recvFrame : Call τ AdapterError OwnedProtocolFrame)

/-- `SecureSender::send_secure_frame`. -/
def SecureSender.sendSecureFrame (frame : OwnedProtocolFrame) :
    Call (SecurePair τ) SecureConnError Unit := do
  let encrypted ← SecurePair.onSender (withSessionContext (EncryptionContext.encryptFrame P frame))
  let cborBytes ← Call.ofOutcome ((encrypted.serialize C).mapErr .protocol)
  SecurePair.onWire (SecureSender.sendFragments sendFrame cborBytes)

/-- `SecureReceiver::recv_secure_frame`. -/
def SecureReceiver.recvSecureFrame : Call (SecurePair τ) SecureConnError OwnedProtocolFrame := do
  let cborBytes ← SecurePair.onWire (SecureReceiver.recvFragments recvFrame)
  let encrypted ← Call.ofOutcome ((EncryptedFrame.deserialize C cborBytes).mapErr .protocol)
  SecurePair.onReceiver (withSessionContext (EncryptionContext.decryptFrame P encrypted))

/-- `SecureConnection::send_secure_frame`, which also checks the lifecycle. -/
def SecureConnection.sendSecureFrame (frame : OwnedProtocolFrame) :
    Call (SecurePair τ) SecureConnError Unit := do
  let self ← Call.getState
  Call.rejectIf (self.sender.state ≠ .active) .lifecycleError
  let encrypted ← SecurePair.onSender (withSessionContext (EncryptionContext.encryptFrame P frame))
  let cborBytes ← Call.ofOutcome ((encrypted.serialize C).mapErr .protocol)
  SecurePair.onWire (SecureConnection.sendFragments sendFrame cborBytes)

/-- `SecureConnection::recv_secure_frame`, which also checks the lifecycle. -/
def SecureConnection.recvSecureFrame : Call (SecurePair τ) SecureConnError OwnedProtocolFrame := do
  let self ← Call.getState
  Call.rejectIf (self.receiver.state ≠ .active) .lifecycleError
  let cborBytes ← SecurePair.onWire (SecureConnection.recvFragments recvFrame)
  let encrypted ← Call.ofOutcome ((EncryptedFrame.deserialize C cborBytes).mapErr .protocol)
  SecurePair.onReceiver (withSessionContext (EncryptionContext.decryptFrame P encrypted))

end Calls

/-! ## What is assumed of the libraries -/

/-- A message of less than 4 GiB is encrypted, and the result is longer by at least a tag and at
most 64 bytes. -/
def AeadSeals (P : Primitives) : Prop :=
  ∀ key nonce msg, msg.length < 2 ^ 32 → ∃ out, P.chachaEncrypt key nonce msg [] = some out ∧
    msg.length + 16 ≤ out.length ∧ out.length ≤ msg.length + 64

/-- The cipher, the key derivation and the serializer do what their documentation states. -/
structure Documented (P : Primitives) (C : Ciborium) : Prop where
  roundTrip : AeadRoundTrip P
  seals : AeadSeals P
  hkdf : HkdfTotal P
  serde : C.Specified

theorem documented_plain : Documented Primitives.plain Ciborium.canonical where
  roundTrip := plain_roundTrip
  seals := fun key nonce msg _ => by
    refine ⟨msg ++ plainTrailer key nonce, rfl, ?_, ?_⟩
    · rw [List.length_append, length_plainTrailer]
      exact Nat.add_le_add_left (by decide) _
    · rw [List.length_append, length_plainTrailer]
      exact Nat.add_le_add_left (by decide) _
  hkdf := plain_hkdfTotal
  serde := Ciborium.canonical_specified

/-! ## The secure layer as a channel -/

section Channel

variable {τ : Type} (P : Primitives) (C : Ciborium) (W : Fifo τ AdapterError OwnedProtocolFrame)
  (keys : SessionKeys)

/-- The channel of byte strings that fragmentation makes of the wire. -/
def wireBytes : Fifo τ SecureConnError (List UInt8) :=
  fragmented (W.mapErr .adapter) .fragmentOutOfOrder .oversizedMessage

/-- The encrypted frames of `queue` are on the wire, and the receiving end stands right before
them. -/
structure SecuredAt (s : SecurePair τ) (queue : List Sent) (c c' : EncryptionContext)
    (p l : Nat × Nat) : Prop where
  sender : s.sender = ⟨.active, some (some c)⟩
  receiver : s.receiver = ⟨.active, some (some c')⟩
  wire : (wireBytes W).Holds s.wire (queue.map fun t => EncryptedFrame.codec.encode t.encrypted)
  frames : ∀ t ∈ queue, t.frame.WellFormed ∧ t.encrypted.ciphertext.length < 2 ^ 64
  link : LinkAt P (epochKey P keys.sendKey keys.epoch.toNat) keys.epoch.toNat c.encryptor
    c'.decryptor queue p l
  epoch : c'.decryptor.epoch.toNat = p.1

/-- These frames are on the way. -/
def Secured (s : SecurePair τ) (frames : List OwnedProtocolFrame) : Prop :=
  ∃ queue c c' p l, SecuredAt P W keys s queue c c' p l ∧ frames = queue.map (·.frame)

/-- The sending end can encrypt `n` more frames, even if it rotates its keys after each: neither its
epochs nor its counter overflow. -/
def EncryptsMore (s : SecurePair τ) (n : Nat) : Prop :=
  ∃ c epoch, s.sender.session = some (some c) ∧ EpochsWithin epoch c ∧ epoch + n < 2 ^ 32 ∧
    c.encryptor.counter.toNat + n < 2 ^ 64

/-- Both ends after the handshake, with nothing on the wire. -/
def SecurePair.start (policy policy' : KeyRotationPolicy) (wire : τ) : SecurePair τ :=
  ⟨⟨.active, some (some (EncryptionContext.new keys policy))⟩, wire,
    ⟨.active, some (some (EncryptionContext.new keys.swapped policy'))⟩⟩

namespace SecureLemmas

section Parts

variable {α : Type} {s : SecurePair τ} {a : α}

theorem onSender_of_ok {x : Call Endpoint ProtocolError α} {e : Endpoint}
    (h : x s.sender = (.ok a, e)) : SecurePair.onSender x s = (.ok a, { s with sender := e }) :=
  Call.onPart_of_ok h

theorem onWire_of_ok {x : Call τ SecureConnError α} {w : τ} (h : x s.wire = (.ok a, w)) :
    SecurePair.onWire x s = (.ok a, { s with wire := w }) :=
  Call.onPart_of_ok h

theorem onReceiver_of_ok {x : Call Endpoint ProtocolError α} {e : Endpoint}
    (h : x s.receiver = (.ok a, e)) : SecurePair.onReceiver x s = (.ok a, { s with receiver := e }) :=
  Call.onPart_of_ok h

end Parts

variable {P C W keys} {s : SecurePair τ} {frames : List OwnedProtocolFrame} {f : OwnedProtocolFrame}

/-- The frames that the message layer sends are encrypted. -/
theorem encryptAead_of_fits (hseals : AeadSeals P) (hf : f.payload.length ≤ fragmentSize)
    (key : SymmetricKey) (nonce : Bytes 12) :
    ∃ sealed, encryptAead P key nonce (encodeFrame f) [] = .ok sealed ∧
      sealed.1.length ≤ (encodeFrame f).length + 64 := by
  have hsmall : (encodeFrame f).length < 2 ^ 32 := by
    rw [encodeFrame, List.length_append, length_asBytes]
    unfold headerSize
    unfold fragmentSize at hf
    omega
  obtain ⟨out, hout, hlow, hhigh⟩ := hseals key nonce (encodeFrame f) hsmall
  have htag : ¬ out.length < 16 := Nat.not_lt.mpr (Nat.le_trans (Nat.le_add_left _ _) hlow)
  simp only [encryptAead, hout, dif_neg htag]
  refine ⟨_, rfl, ?_⟩
  rw [List.length_take]
  exact Nat.le_trans (Nat.min_le_right _ _) hhigh

theorem length_of_sealed (hseals : AeadSeals P) (hf : f.payload.length ≤ fragmentSize)
    {key : SymmetricKey} {nonce : Bytes 12} {ciphertext : List UInt8} {tag : Bytes 16}
    (h : encryptAead P key nonce (encodeFrame f) [] = .ok (ciphertext, tag)) :
    ciphertext.length ≤ (encodeFrame f).length + 64 := by
  obtain ⟨sealed, hseal, hlen⟩ := encryptAead_of_fits hseals hf key nonce
  cases hseal.symm.trans h
  exact hlen

/-- The serialization of an encrypted frame fits the limit of the secure layer. -/
theorem length_encode_of_sent {e : EncryptedFrame}
    (hlen : e.ciphertext.length ≤ (encodeFrame f).length + 64)
    (hf : f.payload.length ≤ fragmentSize) :
    e.ciphertext.length < 2 ^ 64 ∧
      (EncryptedFrame.codec.encode e).length ≤ maxReassembledSize := by
  have hencode := length_encode_encryptedFrame_le e
  rw [encodeFrame, List.length_append, length_asBytes] at hlen
  unfold fragmentSize at hf
  unfold maxReassembledSize
  unfold headerSize at hlen
  omega

theorem sendSecureFrame_of_ok (hdoc : Documented P C) {c c1 : EncryptionContext}
    {e : EncryptedFrame} (hsender : s.sender = ⟨.active, some (some c)⟩)
    (henc : EncryptionContext.encryptFrame P f c = (.ok e, c1)) :
    SecureSender.sendSecureFrame P C W.send f s =
      SecurePair.onWire ((wireBytes W).send (EncryptedFrame.codec.encode e))
        { s with sender := ⟨.active, some (some c1)⟩ } := by
  have hcontext : withSessionContext (EncryptionContext.encryptFrame P f) s.sender =
      (.ok e, ⟨.active, some (some c1)⟩) := by
    rw [hsender]
    simp only [withSessionContext, henc]
  rw [SecureSender.sendSecureFrame, Call.bind_of_ok (onSender_of_ok hcontext),
    EncryptedFrame.serialize_eq hdoc.serde]
  rfl

theorem secured_send (hdoc : Documented P C) (hW : ∀ f, W.Carries f)
    (hs : Secured P W keys s frames) (hwf : f.WellFormed) (hsize : f.payload.length ≤ fragmentSize)
    (hok : (SecureSender.sendSecureFrame P C W.send f s).1 = .ok ()) :
    Secured P W keys (SecureSender.sendSecureFrame P C W.send f s).2 (frames ++ [f]) := by
  obtain ⟨queue, c, c', p, l, h, rfl⟩ := hs
  have hchain := epochKey_followsChain hdoc.hkdf keys.sendKey keys.epoch.toNat
  -- The context encrypts the frame.
  obtain ⟨e, s1, hsender, -⟩ := Call.bind_fst_eq_ok hok
  obtain ⟨c1, henc⟩ : ∃ c1, EncryptionContext.encryptFrame P f c = (.ok e, c1) := by
    have hfst := Outcome.mapErr_eq_ok.mp (congrArg Prod.fst hsender)
    rw [h.sender] at hfst
    exact ⟨_, Prod.ext hfst rfl⟩
  obtain ⟨hseal, m, hlink⟩ := linkAt_context_sent hchain h.link henc
  obtain ⟨hlength, hfits⟩ := length_encode_of_sent (length_of_sealed hdoc.seals hsize hseal) hsize
  -- Its serialization goes over the wire.
  rw [sendSecureFrame_of_ok hdoc h.sender henc] at hok ⊢
  have hsent : ((wireBytes W).send (EncryptedFrame.codec.encode e) s.wire).1 = .ok () :=
    Outcome.mapErr_eq_ok.mp hok
  have hwire := (wireBytes W).send_holds h.wire ⟨hfits, fun f _ => hW f⟩ hsent
  refine ⟨queue ++ [⟨f, c.encryptor.sendKey, e⟩], c1, c', p, m, ⟨rfl, h.receiver, ?_, ?_, hlink,
    h.epoch⟩, ?_⟩
  · rw [List.map_append]
    exact hwire
  · intro t ht
    rcases List.mem_append.mp ht with ht | ht
    · exact h.frames t ht
    · rw [List.mem_singleton.mp ht]
      exact ⟨hwf, hlength⟩
  · rw [List.map_append]
    rfl

/-- Over a wire that refuses nothing, a frame is sent while the sending end can encrypt it. -/
theorem secured_granted (hdoc : Documented P C) (hW : ∀ f, W.Carries f) (htotal : W.Total) {n : Nat}
    (hs : Secured P W keys s frames) (hsize : f.payload.length ≤ fragmentSize)
    (hn : EncryptsMore s (1 + n)) :
    (SecureSender.sendSecureFrame P C W.send f s).1 = .ok () ∧
      EncryptsMore (SecureSender.sendSecureFrame P C W.send f s).2 n := by
  obtain ⟨queue, c, c', p, l, h, -⟩ := hs
  obtain ⟨c0, epoch, hsession, hwithin, hepoch, hcounter⟩ := hn
  rw [h.sender] at hsession
  cases hsession
  obtain ⟨sealed, hseal, -⟩ := encryptAead_of_fits hdoc.seals hsize c.encryptor.sendKey
    c.encryptor.generateNonce.bytes
  obtain ⟨e, c1, henc, hwithin', hcounter'⟩ :=
    context_encryptFrame_of_sealed hdoc.hkdf hseal hwithin (by omega) (by omega)
  have hchain := epochKey_followsChain hdoc.hkdf keys.sendKey keys.epoch.toNat
  obtain ⟨hseal', -⟩ := linkAt_context_sent hchain h.link henc
  obtain ⟨-, hfits⟩ := length_encode_of_sent (length_of_sealed hdoc.seals hsize hseal') hsize
  have hwire : (wireBytes W).Total := fragmented_total _ _ (Fifo.mapErr_grants _ htotal)
  have hsent := (hwire _ _ _ n h.wire ⟨hfits, fun f _ => hW f⟩ trivial).1
  rw [sendSecureFrame_of_ok hdoc h.sender henc]
  exact ⟨Outcome.mapErr_eq_ok.mpr hsent, c1, epoch + 1, rfl, hwithin', by omega, by omega⟩

theorem encryptsMore_start {policy policy' : KeyRotationPolicy} {wire : τ} {n : Nat}
    (hn : keys.epoch.toNat + n < 2 ^ 32) :
    EncryptsMore (SecurePair.start keys policy policy' wire) n := by
  refine ⟨_, keys.epoch.toNat, rfl, ⟨Nat.le_refl _, Nat.le_refl _⟩, hn, ?_⟩
  show 0 + n < 2 ^ 64
  omega

theorem secured_recv (hdoc : Documented P C) (hs : Secured P W keys s (f :: frames)) :
    ∃ s', SecureReceiver.recvSecureFrame P C W.recv s = (.ok f, s') ∧ Secured P W keys s' frames := by
  obtain ⟨queue, c, c', p, l, h, hframes⟩ := hs
  have hchain := epochKey_followsChain hdoc.hkdf keys.sendKey keys.epoch.toNat
  cases queue with
  | nil => cases hframes
  | cons t queue =>
    cases hframes
    obtain ⟨hwf, hlength⟩ := h.frames t List.mem_cons_self
    -- The serialization of the oldest frame comes off the wire.
    obtain ⟨w, hrecv, hwire⟩ := (wireBytes W).recv_holds h.wire
    have hbytes : EncryptedFrame.deserialize C (EncryptedFrame.codec.encode t.encrypted) =
        .ok t.encrypted :=
      deserializeWith_encode (h.wire.1 _ List.mem_cons_self)
        (hdoc.serde.encryptedFrame.read t.encrypted hlength)
    -- The context decrypts it.
    have hle : c'.decryptor.epoch.toNat ≤ t.encrypted.epoch.toNat := by
      cases h.link.inOrder with
      | cons hc _ =>
        rw [h.epoch]
        exact continues_le hc
    obtain ⟨d, hdec, hlink⟩ := linkAt_deliver hdoc.roundTrip hchain h.link hle
    rw [decodeFrame_encodeFrame P.heapAddr_aligned hwf] at hdec
    let next : EncryptionContext := { c' with decryptor := ⟨t.key, t.encrypted.epoch, d⟩ }
    have hcontext : withSessionContext (EncryptionContext.decryptFrame P t.encrypted) s.receiver =
        (.ok t.frame, ⟨.active, some (some next)⟩) := by
      rw [h.receiver]
      simp only [withSessionContext, EncryptionContext.decryptFrame, onDecryptor_apply hdec]
      rfl
    refine ⟨⟨s.sender, w, ⟨.active, some (some next)⟩⟩, ?_, queue, c, next, t.after, l,
      ⟨h.sender, rfl, hwire, ?_, hlink, rfl⟩, rfl⟩
    · have hread : SecurePair.onWire (SecureReceiver.recvFragments W.recv) s =
          (.ok (EncryptedFrame.codec.encode t.encrypted), { s with wire := w }) :=
        onWire_of_ok hrecv
      have hopen := onReceiver_of_ok (s := { s with wire := w }) hcontext
      rw [SecureReceiver.recvSecureFrame, Call.bind_of_ok hread, hbytes]
      exact hopen
    · exact fun u hu => h.frames u (List.mem_cons_of_mem t hu)

theorem secured_start (policy policy' : KeyRotationPolicy) {wire : τ} (hwire : W.Holds wire []) :
    Secured P W keys (SecurePair.start keys policy policy' wire) [] :=
  ⟨[], _, _, _, _, ⟨rfl, rfl, ⟨fun _ hm => absurd hm List.not_mem_nil, hwire⟩,
    fun _ ht => absurd ht List.not_mem_nil, linkAt_new keys.sendKey keys.epoch, rfl⟩, rfl⟩

theorem secured_active (hs : Secured P W keys s frames) :
    s.sender.state = .active ∧ s.receiver.state = .active := by
  obtain ⟨queue, c, c', p, l, h, -⟩ := hs
  rw [h.sender, h.receiver]
  exact ⟨rfl, rfl⟩

theorem sendSecureFrame_active (hs : s.sender.state = .active) :
    SecureConnection.sendSecureFrame P C W.send f s = SecureSender.sendSecureFrame P C W.send f s := by
  rw [SecureConnection.sendSecureFrame, Call.getState_bind, Call.rejectIf_bind, if_neg (not_not.mpr hs)]
  rfl

theorem recvSecureFrame_active (hs : s.receiver.state = .active) :
    SecureConnection.recvSecureFrame P C W.recv s = SecureReceiver.recvSecureFrame P C W.recv s := by
  rw [SecureConnection.recvSecureFrame, Call.getState_bind, Call.rejectIf_bind,
    if_neg (not_not.mpr hs)]
  rfl

end SecureLemmas

open SecureLemmas

variable {P C W keys} (hdoc : Documented P C) (hW : ∀ f, W.Carries f)

/-- The split secure connection as a channel of frames. -/
def securedHalves : Fifo (SecurePair τ) SecureConnError OwnedProtocolFrame where
  send := SecureSender.sendSecureFrame P C W.send
  recv := SecureReceiver.recvSecureFrame P C W.recv
  Carries := fun f => f.WellFormed ∧ f.payload.length ≤ fragmentSize
  Holds := Secured P W keys
  send_holds := fun hs hf hok => secured_send hdoc hW hs hf.1 hf.2 hok
  recv_holds := fun hs => secured_recv hdoc hs

/-- The secure connection as a channel of frames. -/
def secured : Fifo (SecurePair τ) SecureConnError OwnedProtocolFrame where
  send := SecureConnection.sendSecureFrame P C W.send
  recv := SecureConnection.recvSecureFrame P C W.recv
  Carries := fun f => f.WellFormed ∧ f.payload.length ≤ fragmentSize
  Holds := Secured P W keys
  send_holds := fun hs hf hok => by
    rw [sendSecureFrame_active (secured_active hs).1] at hok ⊢
    exact secured_send hdoc hW hs hf.1 hf.2 hok
  recv_holds := fun hs => by
    rw [recvSecureFrame_active (secured_active hs).2]
    exact secured_recv hdoc hs

theorem securedHalves_grants (htotal : W.Total) :
    (@securedHalves τ P C W keys hdoc hW).Grants (fun _ => 1) EncryptsMore :=
  fun _ _ _ _ hs hf hn => secured_granted hdoc hW htotal hs hf.2 hn

theorem secured_grants (htotal : W.Total) :
    (@secured τ P C W keys hdoc hW).Grants (fun _ => 1) EncryptsMore := by
  intro s frames f n hs hf hn
  show (SecureConnection.sendSecureFrame P C W.send f s).1 = _ ∧
    EncryptsMore (SecureConnection.sendSecureFrame P C W.send f s).2 n
  rw [sendSecureFrame_active (secured_active hs).1]
  exact secured_granted hdoc hW htotal hs hf.2 hn

end Channel

/-! ## Delivery -/

/-- Every frame states the length of its payload. -/
def LengthsStated (frames : List OwnedProtocolFrame) : Prop :=
  ∀ f ∈ frames, f.header.payloadLength.toNat = f.payload.length

/-- Over a channel of frames that loses nothing: the messages are sent, as many calls return them in
order, and every frame sent states its length. -/
def Delivers {ε : Type} (send : List UInt8 → Call (List OwnedProtocolFrame) ε Unit)
    (recv : Call (List OwnedProtocolFrame) ε (List UInt8)) (ms : List (List UInt8)) : Prop :=
  let sent := Call.forEach send ms []
  sent.1 = .ok () ∧ (recv.times ms.length sent.2).1 = .ok ms ∧ LengthsStated sent.2

/-- Between two ends with the keys of one handshake: the messages are sent, unless they have so many
fragments that the epoch, of 32 bits, could overflow; once they are sent, as many calls return them
in order, and every frame on the wire states its length. -/
def DeliversSecurely
    (send : List UInt8 → Call (SecurePair (List OwnedProtocolFrame)) WireError Unit)
    (recv : Call (SecurePair (List OwnedProtocolFrame)) WireError (List UInt8))
    (ms : List (List UInt8)) : Prop :=
  ∀ keys policy policy',
    let sent := Call.forEach send ms (SecurePair.start keys policy policy' [])
    (keys.epoch.toNat + (ms.map fun m => fragmentCount m.length).sum < 2 ^ 32 → sent.1 = .ok ()) ∧
      (sent.1 = .ok () → (recv.times ms.length sent.2).1 = .ok ms ∧ LengthsStated sent.2.wire)

namespace SecureLemmas

variable {ms : List (List UInt8)}

theorem lengthsStated_flatMap : LengthsStated (ms.flatMap fragmentsOf) := by
  intro f hf
  obtain ⟨m, -, hfm⟩ := List.mem_flatMap.mp hf
  exact (wellFormed_of_mem hfm).1.2

theorem delivers_over_queue {ε ε' : Type} (closed : ε') (h : ε' → ε) (outOfOrder : ε)
    (oversized : Nat → ε) (hms : ∀ m ∈ ms, m.length ≤ maxReassembledSize) :
    Delivers (sendSplit (lossless closed h).send)
      (recvJoined (lossless closed h).recv outOfOrder oversized) ms := by
  let F := fragmented (lossless closed h) outOfOrder oversized
  have hstart : F.Holds [] [] := ⟨fun _ hm => absurd hm List.not_mem_nil, rfl⟩
  have hcarries : ∀ m ∈ ms, F.Carries m := fun m hm => ⟨hms m hm, fun _ _ => trivial⟩
  have htotal : F.Total := fragmented_total _ _ (lossless_total closed h)
  have hsent := forEach_granted htotal hstart hcarries trivial
  refine ⟨hsent, fifo_delivers hstart hcarries hsent, ?_⟩
  have hwire : (Call.forEach F.send ms []).2 = ms.flatMap fragmentsOf :=
    (forEach_holds hstart hcarries hsent).2
  show LengthsStated (Call.forEach F.send ms []).2
  rw [hwire]
  exact lengthsStated_flatMap

/-- The stack over any channel that carries exactly what is secured on the wire. -/
theorem delivers_over_secured {P : Primitives} {keys : SessionKeys} {policy policy' : KeyRotationPolicy}
    (S : Fifo (SecurePair (List OwnedProtocolFrame)) SecureConnError OwnedProtocolFrame)
    (hcarry : ∀ f, f.WellFormed → f.payload.length ≤ fragmentSize → S.Carries f)
    (hholds : S.Holds = Secured P adapterQueue keys) (hroom : S.Grants (fun _ => 1) EncryptsMore)
    (hms : ∀ m ∈ ms, m.length ≤ maxReassembledSize) :
    let sent := Call.forEach (MessageSession.sendFragmented S.send) ms
      (SecurePair.start keys policy policy' [])
    (keys.epoch.toNat + (ms.map fun m => fragmentCount m.length).sum < 2 ^ 32 → sent.1 = .ok ()) ∧
      (sent.1 = .ok () →
        (Call.times (MessageSession.recvReassembled S.recv) ms.length sent.2).1 = .ok ms ∧
          LengthsStated sent.2.wire) := by
  intro sent
  let F := fragmented (S.mapErr WireError.session) .fragmentOutOfOrder .oversizedMessage
  have hstart : F.Holds (SecurePair.start keys policy policy' []) [] := by
    refine ⟨fun _ hm => absurd hm List.not_mem_nil, ?_⟩
    show S.Holds _ []
    rw [hholds]
    exact secured_start policy policy' rfl
  have hcarries : ∀ m ∈ ms, F.Carries m := fun m hm =>
    ⟨hms m hm, fun f hf => hcarry f (wellFormed_of_mem hf).1 (wellFormed_of_mem hf).2⟩
  have hgrants := fragmented_grants .fragmentOutOfOrder .oversizedMessage
    (Fifo.mapErr_grants WireError.session hroom)
  refine ⟨fun hfew => forEach_granted hgrants hstart hcarries (encryptsMore_start hfew),
    fun hsent => ⟨fifo_delivers hstart hcarries hsent, ?_⟩⟩
  have hend : S.Holds sent.2 _ := (forEach_holds hstart hcarries hsent).2
  rw [hholds] at hend
  obtain ⟨queue, c, c', p, l, h, -⟩ := hend
  have hwire : sent.2.wire = (queue.map fun t => EncryptedFrame.codec.encode t.encrypted).flatMap
      fragmentsOf := h.wire.2
  rw [hwire]
  exact lengthsStated_flatMap

end SecureLemmas

/-- Messages within the limit arrive as they were sent and in order, over the message layer, over
the secure layer and over both, whole or split. -/
theorem fragmentation_delivers (ms : List (List UInt8))
    (hms : ∀ m ∈ ms, m.length ≤ maxReassembledSize) :
    (Delivers (MessageSession.sendFragmented secureQueue.send)
        (MessageSession.recvReassembled secureQueue.recv) ms ∧
      Delivers (MessageSender.sendFragmented secureQueue.send)
        (MessageReceiver.recvReassembled secureQueue.recv) ms) ∧
    (Delivers (SecureConnection.sendFragments adapterQueue.send)
        (SecureConnection.recvFragments adapterQueue.recv) ms ∧
      Delivers (SecureSender.sendFragments adapterQueue.send)
        (SecureReceiver.recvFragments adapterQueue.recv) ms) ∧
    ∀ P C, Documented P C →
      DeliversSecurely
        (MessageSession.sendFragmented (SecureConnection.sendSecureFrame P C adapterQueue.send))
        (MessageSession.recvReassembled (SecureConnection.recvSecureFrame P C adapterQueue.recv)) ms ∧
      DeliversSecurely
        (MessageSender.sendFragmented (SecureSender.sendSecureFrame P C adapterQueue.send))
        (MessageReceiver.recvReassembled (SecureReceiver.recvSecureFrame P C adapterQueue.recv))
          ms := by
  refine ⟨⟨?_, ?_⟩, ⟨?_, ?_⟩, fun P C hdoc =>
    ⟨fun keys policy policy' => ?_, fun keys policy policy' => ?_⟩⟩
  · exact SecureLemmas.delivers_over_queue _ _ _ _ hms
  · exact SecureLemmas.delivers_over_queue _ _ _ _ hms
  · exact SecureLemmas.delivers_over_queue _ _ _ _ hms
  · exact SecureLemmas.delivers_over_queue _ _ _ _ hms
  · exact SecureLemmas.delivers_over_secured (secured hdoc fun _ => trivial)
      (fun _ hf hsize => ⟨hf, hsize⟩) rfl (secured_grants hdoc _ (Fifo.queue_total _)) hms
  · exact SecureLemmas.delivers_over_secured (securedHalves hdoc fun _ => trivial)
      (fun _ hf hsize => ⟨hf, hsize⟩) rfl (securedHalves_grants hdoc _ (Fifo.queue_total _)) hms

/-- A message of two fragments and an empty one, between two ends that rotate their keys after every
frame. -/
theorem fragmentation_delivers_two :
    (List.replicate 60001 (7 : UInt8)).length = 60001 ∧
      let ms : List (List UInt8) := [List.replicate 60001 7, []]
      let start :=
        SecurePair.start ⟨Bytes.fill 32 1, Bytes.fill 32 2, 0⟩ (.counter 1) (.counter 1) []
      let sent := Call.forEach (MessageSession.sendFragmented
        (SecureConnection.sendSecureFrame .plain .canonical adapterQueue.send)) ms start
      sent.1 = .ok () ∧
        (Call.times (MessageSession.recvReassembled
          (SecureConnection.recvSecureFrame .plain .canonical adapterQueue.recv)) ms.length
            sent.2).1 = .ok ms := by
  have hlong : (List.replicate 60001 (7 : UInt8)).length = 60001 := List.length_replicate
  refine ⟨hlong, ?_⟩
  -- what follows uses only the length
  obtain ⟨long, hl⟩ : ∃ long, long = List.replicate 60001 (7 : UInt8) := ⟨_, rfl⟩
  rw [← hl] at hlong ⊢
  intro ms start sent
  have hms : ∀ m ∈ ms, m.length ≤ maxReassembledSize :=
    List.forall_mem_cons.mpr ⟨Nat.le_trans (Nat.le_of_eq hlong) (by decide), by decide⟩
  have hepoch : (0 : UInt32).toNat + (ms.map fun m => fragmentCount m.length).sum < 2 ^ 32 := by
    rw [List.map_cons, hlong]
    decide
  obtain ⟨hstack, -⟩ := (fragmentation_delivers ms hms).2.2 _ _ documented_plain
  obtain ⟨hsends, hreturns⟩ := hstack ⟨Bytes.fill 32 1, Bytes.fill 32 2, 0⟩ (.counter 1) (.counter 1)
  exact ⟨hsends hepoch, (hreturns (hsends hepoch)).1⟩

end Blackwing.Session
