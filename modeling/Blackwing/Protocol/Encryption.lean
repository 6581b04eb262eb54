import Blackwing.Lib.SlidingWindow
import Blackwing.Protocol.Codec
import Blackwing.Protocol.Symmetric

/-!
# The encryption pipeline

`bw-protocol/src/encryption.rs`, and `derive_session_keys` of `handshake.rs`.
A `FrameEncryptor` numbers its frames within a key epoch, a `FrameDecryptor`
follows the epochs of the frames it receives and keeps a replay window, and an
`EncryptionContext` pairs the two and rotates both by policy.

The methods on `&mut self` are calls: an error returned half-way keeps the
writes made before it, such as the bumped epoch of a failed `rotate_keys`.
-/

namespace Blackwing.Protocol

/-! ## Nonces -/

/-- `Nonce`: 96 bits, epoch then counter. -/
structure Nonce where
  bytes : Bytes 12
deriving DecidableEq

/-- `Nonce::new`. -/
def Nonce.new (epoch : UInt32) (counter : UInt64) : Nonce :=
  ⟨⟨(beBytes32 epoch).toList ++ (beBytes64 counter).toList, by simp⟩⟩

/-- `Nonce::epoch`. -/
def Nonce.epoch (n : Nonce) : UInt32 := u32FromBE (n.bytes.toList.take 4)

/-- `Nonce::counter`. -/
def Nonce.counter (n : Nonce) : UInt64 := u64FromBE (n.bytes.toList.drop 4)

/-- `EncryptedFrame`, with `AuthenticationTag` as its 16 bytes. -/
structure EncryptedFrame where
  epoch : UInt32
  nonce : Nonce
  ciphertext : List UInt8
  tag : Bytes 16
deriving DecidableEq

/-- `SessionKeys`. -/
structure SessionKeys where
  sendKey : SymmetricKey
  recvKey : SymmetricKey
  epoch : UInt32
deriving DecidableEq

/-- The HKDF info string `format!("epoch-{}", epoch)`. -/
def epochInfo (epoch : UInt32) : List UInt8 := utf8 ("epoch-" ++ toString epoch.toNat)

namespace EncryptionLemmas

@[simp] theorem epoch_new (e : UInt32) (c : UInt64) : (Nonce.new e c).epoch = e := by
  show u32FromBE (((beBytes32 e).toList ++ (beBytes64 c).toList).take 4) = e
  rw [List.take_left' (beBytes32 e).length_toList, u32FromBE_beBytes32]

@[simp] theorem counter_new (e : UInt32) (c : UInt64) : (Nonce.new e c).counter = c := by
  show u64FromBE (((beBytes32 e).toList ++ (beBytes64 c).toList).drop 4) = c
  rw [List.drop_left' (beBytes32 e).length_toList, u64FromBE_beBytes64]

end EncryptionLemmas

/-! ## Replay protection -/

/-- `ReplayProtection`. -/
structure ReplayProtection where
  maxCounter : UInt64
  receivedMask : UInt64
deriving DecidableEq

/-- `ReplayProtection::new`. -/
def ReplayProtection.new : ReplayProtection := ⟨0, 0⟩

/-- `ReplayProtection::protect_replay`. -/
def ReplayProtection.protectReplay (nonce : Nonce) : Call ReplayProtection ProtocolError Unit :=
  fun self =>
    match slide self.maxCounter self.receivedMask nonce.counter with
    | none => (.err .replayDetected, self)
    | some (maxCounter, receivedMask) => (.ok (), ⟨maxCounter, receivedMask⟩)

/-- `KeyRotationPolicy`. -/
inductive KeyRotationPolicy where
  | manual
  | counter (limit : UInt64)
deriving DecidableEq

/-! ## Encryptor -/

/-- `FrameEncryptor`. -/
structure FrameEncryptor where
  sendKey : SymmetricKey
  epoch : UInt32
  counter : UInt64
deriving DecidableEq

/-- `FrameEncryptor::new`. -/
def FrameEncryptor.new (sendKey : SymmetricKey) (epoch : UInt32) : FrameEncryptor :=
  ⟨sendKey, epoch, 0⟩

/-- `FrameEncryptor::generate_nonce`. -/
def FrameEncryptor.generateNonce (self : FrameEncryptor) : Nonce := Nonce.new self.epoch self.counter

variable (P : Primitives)

/-- `FrameEncryptor::encrypt_frame`. -/
def FrameEncryptor.encryptFrame (frame : OwnedProtocolFrame) :
    Call FrameEncryptor ProtocolError EncryptedFrame := do
  let self ← Call.getState
  let nonce := self.generateNonce
  let sealed ← Call.ofOutcome
    ((encryptAead P self.sendKey nonce.bytes (encodeFrame frame) []).mapErr fun _ => .encryptionError)
  let counter ← Call.ofOutcome (.add64 self.counter 1)
  Call.update fun s => { s with counter := counter }
  pure ⟨self.epoch, nonce, sealed.1, sealed.2⟩

/-- `FrameEncryptor::rotate_keys`. -/
def FrameEncryptor.rotateKeys : Call FrameEncryptor ProtocolError Unit := do
  let self ← Call.getState
  let epoch ← Call.ofOutcome (.add32 self.epoch 1)
  Call.update fun s => { s with epoch := epoch }
  let newKey ← Call.ofOutcome
    ((hkdfDerive P none self.sendKey.toList (some (epochInfo epoch))).mapErr fun _ => .encryptionError)
  Call.update fun s => { s with sendKey := newKey, counter := 0 }

/-! ## Decryptor -/

/-- `FrameDecryptor`. -/
structure FrameDecryptor where
  recvKey : SymmetricKey
  epoch : UInt32
  replayProtection : ReplayProtection
deriving DecidableEq

/-- `FrameDecryptor::new`. -/
def FrameDecryptor.new (recvKey : SymmetricKey) (epoch : UInt32) : FrameDecryptor :=
  ⟨recvKey, epoch, ReplayProtection.new⟩

/-- `FrameDecryptor::protect_replay`. -/
def FrameDecryptor.protectReplay (nonce : Nonce) : Call FrameDecryptor ProtocolError Unit :=
  Call.onPart (·.replayProtection) (fun d r => { d with replayProtection := r }) id
    (ReplayProtection.protectReplay nonce)

/-- The AEAD check of a received frame under a key, as `decrypt_frame` makes it. -/
def openFrame (key : SymmetricKey) (encrypted : EncryptedFrame) :
    Outcome ProtocolError (List UInt8) :=
  (decryptAead P key encrypted.nonce.bytes encrypted.ciphertext encrypted.tag []).mapErr
    fun _ => .encryptionError

/-- `FrameDecryptor::decrypt_frame`. -/
def FrameDecryptor.decryptFrame (encrypted : EncryptedFrame) :
    Call FrameDecryptor ProtocolError OwnedProtocolFrame := do
  let self ← Call.getState
  if encrypted.epoch = self.epoch then
    -- same epoch: the window is updated before the frame is authenticated
    FrameDecryptor.protectReplay encrypted.nonce
    let plaintext ← Call.ofOutcome (openFrame P self.recvKey encrypted)
    Call.ofOutcome (decodeFrame P.heapAddr plaintext)
  else
    let candidateEpoch ← Call.ofOutcome (.add32 self.epoch 1)
    if encrypted.epoch = candidateEpoch then
      -- next epoch: candidate key and window, committed only after authentication
      let candidateKey ← Call.ofOutcome
        ((hkdfDerive P none self.recvKey.toList (some (epochInfo candidateEpoch))).mapErr
          fun _ => .encryptionError)
      let candidateReplay := ReplayProtection.protectReplay encrypted.nonce ReplayProtection.new
      Call.ofOutcome candidateReplay.1
      let plaintext ← Call.ofOutcome (openFrame P candidateKey encrypted)
      Call.update fun _ => ⟨candidateKey, candidateEpoch, candidateReplay.2⟩
      Call.ofOutcome (decodeFrame P.heapAddr plaintext)
    else
      Call.fail .encryptionError

/-- `FrameDecryptor::rotate_keys`. -/
def FrameDecryptor.rotateKeys : Call FrameDecryptor ProtocolError Unit := do
  let self ← Call.getState
  let epoch ← Call.ofOutcome (.add32 self.epoch 1)
  Call.update fun s => { s with epoch := epoch }
  let newKey ← Call.ofOutcome
    ((hkdfDerive P none self.recvKey.toList (some (epochInfo epoch))).mapErr fun _ => .encryptionError)
  Call.update fun s => { s with recvKey := newKey, replayProtection := ReplayProtection.new }

/-! ## Context -/

/-- `EncryptionContext`. -/
structure EncryptionContext where
  encryptor : FrameEncryptor
  decryptor : FrameDecryptor
  rotationPolicy : KeyRotationPolicy
deriving DecidableEq

/-- `EncryptionContext::new`. -/
def EncryptionContext.new (keys : SessionKeys) (rotationPolicy : KeyRotationPolicy) :
    EncryptionContext :=
  ⟨FrameEncryptor.new keys.sendKey keys.epoch, FrameDecryptor.new keys.recvKey keys.epoch,
    rotationPolicy⟩

namespace EncryptionContext

/-- A call on the encryptor of a context. -/
def onEncryptor {α : Type} (x : Call FrameEncryptor ProtocolError α) :
    Call EncryptionContext ProtocolError α :=
  Call.onPart (·.encryptor) (fun c e => { c with encryptor := e }) id x

/-- A call on the decryptor of a context. -/
def onDecryptor {α : Type} (x : Call FrameDecryptor ProtocolError α) :
    Call EncryptionContext ProtocolError α :=
  Call.onPart (·.decryptor) (fun c d => { c with decryptor := d }) id x

/-- `EncryptionContext::rotate_keys`: both directions. -/
def rotateKeys : Call EncryptionContext ProtocolError Unit := do
  onEncryptor (FrameEncryptor.rotateKeys P)
  onDecryptor (FrameDecryptor.rotateKeys P)

/-- The policy check at the end of `encrypt_frame`. -/
def rotateIfDue : Call EncryptionContext ProtocolError Unit := do
  let self ← Call.getState
  match self.rotationPolicy with
  | .counter limit => if self.encryptor.counter ≥ limit then rotateKeys P else pure ()
  | .manual => pure ()

/-- `EncryptionContext::encrypt_frame`. -/
def encryptFrame (frame : OwnedProtocolFrame) :
    Call EncryptionContext ProtocolError EncryptedFrame := do
  let encrypted ← onEncryptor (FrameEncryptor.encryptFrame P frame)
  rotateIfDue P
  pure encrypted

/-- `EncryptionContext::decrypt_frame`. -/
def decryptFrame (encrypted : EncryptedFrame) :
    Call EncryptionContext ProtocolError OwnedProtocolFrame :=
  onDecryptor (FrameDecryptor.decryptFrame P encrypted)

end EncryptionContext

/-! ## Handshake keys -/

/-- `derive_session_keys`. -/
def deriveSessionKeys (masterSecret : SymmetricKey) (clientNonce serverNonce : Bytes 16) :
    Outcome ProtocolError SessionKeys := do
  let salt := clientNonce.toList ++ serverNonce.toList
  let sendKey ← (hkdfDerive P (some salt) masterSecret.toList (some (utf8 "client-key"))).mapErr
    fun _ => .encryptionError
  let recvKey ← (hkdfDerive P (some salt) masterSecret.toList (some (utf8 "server-key"))).mapErr
    fun _ => .encryptionError
  pure ⟨sendKey, recvKey, 0⟩

/-- The key set of the server: the client's with the directions swapped. -/
def SessionKeys.swapped (keys : SessionKeys) : SessionKeys := ⟨keys.recvKey, keys.sendKey, keys.epoch⟩

/-! ## Frames of the transparent primitives -/

/-- A frame that no key of the session made. -/
def junkFrame (epoch : UInt32) (counter : UInt64) : EncryptedFrame :=
  ⟨epoch, Nonce.new epoch counter, [], Bytes.fill 16 0⟩

/-- The frame that an encryptor with this key makes first. -/
def firstFrame (key : SymmetricKey) (frame : OwnedProtocolFrame) : EncryptedFrame :=
  ⟨0, Nonce.new 0 0, encodeFrame frame ++ (key.toList ++ (Nonce.new 0 0).bytes.toList),
    Bytes.fill 16 0⟩

/-! ## What each call can do -/

/-- The key the ratchet derives for an epoch, `none` when HKDF fails. -/
def nextKey (key : SymmetricKey) (epoch : UInt32) : Option SymmetricKey :=
  P.hkdfExpand none key.toList (epochInfo epoch)

/-- The window of a decryptor that has seen only this nonce. -/
def freshWindow (nonce : Nonce) : ReplayProtection :=
  (ReplayProtection.protectReplay nonce ReplayProtection.new).2

/-- When a context rotates after a frame: under `Counter(limit)` at a send counter of `limit`. -/
def RotationDue (c : EncryptionContext) : Prop :=
  ∃ limit, c.rotationPolicy = .counter limit ∧ limit ≤ c.encryptor.counter

instance (c : EncryptionContext) : Decidable (RotationDue c) :=
  match hp : c.rotationPolicy with
  | .counter limit => decidable_of_iff (limit ≤ c.encryptor.counter)
      ⟨fun hl => ⟨limit, hp, hl⟩, fun ⟨_, hp', hl⟩ => by cases hp.symm.trans hp'; exact hl⟩
  | .manual => .isFalse fun ⟨_, hp', _⟩ => nomatch hp.symm.trans hp'

/-- How many times `encrypt_frame` of a context calls `rotate_keys`. -/
def EncryptionContext.rotations (frame : OwnedProtocolFrame) (c : EncryptionContext) : Nat :=
  match FrameEncryptor.encryptFrame P frame c.encryptor with
  | (.ok _, s) => if RotationDue { c with encryptor := s } then 1 else 0
  | _ => 0

/-- Both epochs of a context are at most `n`. -/
structure EpochsWithin (n : Nat) (c : EncryptionContext) : Prop where
  send : c.encryptor.epoch.toNat ≤ n
  receive : c.decryptor.epoch.toNat ≤ n

namespace EncryptionLemmas

variable {P}

theorem hkdfDerive_epochInfo (key : SymmetricKey) (epoch : UInt32) :
    ((hkdfDerive P none key.toList (some (epochInfo epoch))).mapErr fun _ =>
      ProtocolError.encryptionError) = .okOr .encryptionError (nextKey P key epoch) := by
  show (Outcome.okOr CryptoError.invalidKey (nextKey P key epoch)).mapErr _ = _
  cases nextKey P key epoch with
  | none => rfl
  | some k => rfl

theorem openFrame_cases (key : SymmetricKey) (enc : EncryptedFrame) :
    (∃ plaintext, openFrame P key enc = .ok plaintext) ∨
      openFrame P key enc = .err .encryptionError := by
  unfold openFrame decryptAead
  cases P.chachaDecrypt key enc.nonce.bytes (enc.ciphertext ++ enc.tag.toList) [] with
  | none => exact Or.inr rfl
  | some plaintext => exact Or.inl ⟨plaintext, rfl⟩

theorem mapErr_id {ε α : Type} (x : Outcome ε α) : x.mapErr id = x := by
  cases x <;> rfl

/-- A call of the encryptor either returns a frame under the nonce of the state before it,
and then only the counter moved, or fails and changes nothing. -/
theorem encryptor_encryptFrame_cases (f : OwnedProtocolFrame) (s : FrameEncryptor) :
    (∃ sealed c, encryptAead P s.sendKey s.generateNonce.bytes (encodeFrame f) [] = .ok sealed ∧
      c.toNat = s.counter.toNat + 1 ∧
      FrameEncryptor.encryptFrame P f s =
        (.ok ⟨s.epoch, s.generateNonce, sealed.1, sealed.2⟩, { s with counter := c })) ∨
    (∃ r, (∀ e, r ≠ .ok e) ∧ FrameEncryptor.encryptFrame P f s = (r, s)) := by
  cases hseal : encryptAead P s.sendKey s.generateNonce.bytes (encodeFrame f) [] with
  | ok sealed =>
    rcases Outcome.add64_cases (ε := ProtocolError) s.counter 1 with ⟨c, hc, hadd⟩ | ⟨-, hadd⟩
    · refine Or.inl ⟨sealed, c, rfl, hc, ?_⟩
      simp [FrameEncryptor.encryptFrame, Call.ofOutcome_bind, hseal, hadd, Outcome.mapErr]
    · refine Or.inr ⟨.panicked, (fun e h => by cases h), ?_⟩
      simp [FrameEncryptor.encryptFrame, Call.ofOutcome_bind, hseal, hadd, Outcome.mapErr]
  | err x =>
    refine Or.inr ⟨.err .encryptionError, (fun e h => by cases h), ?_⟩
    simp [FrameEncryptor.encryptFrame, Call.ofOutcome_bind, hseal, Outcome.mapErr]
  | panicked =>
    refine Or.inr ⟨.panicked, (fun e h => by cases h), ?_⟩
    simp [FrameEncryptor.encryptFrame, Call.ofOutcome_bind, hseal, Outcome.mapErr]

variable {f : OwnedProtocolFrame} {s : FrameEncryptor} {d : FrameDecryptor} {enc : EncryptedFrame}
  {c : EncryptionContext}

/-- What a returned frame says about the call. -/
theorem encryptor_encryptFrame_ok {s' : FrameEncryptor} {e : EncryptedFrame}
    (h : FrameEncryptor.encryptFrame P f s = (.ok e, s')) :
    encryptAead P s.sendKey e.nonce.bytes (encodeFrame f) [] = .ok (e.ciphertext, e.tag) ∧
      e.epoch = s.epoch ∧ e.nonce = s.generateNonce ∧
      ∃ c, c.toNat = s.counter.toNat + 1 ∧ s' = { s with counter := c } := by
  rcases encryptor_encryptFrame_cases (P := P) f s with ⟨sealed, c, hseal, hc, h'⟩ | ⟨r, hr, h'⟩
  · rw [h'] at h
    cases h
    exact ⟨hseal, rfl, rfl, c, hc, rfl⟩
  · rw [h'] at h
    cases h
    exact absurd rfl (hr e)

/-- While the cipher does not fail and the counter does not overflow, a call returns a frame. -/
theorem encryptor_encryptFrame_of_sealed {sealed : List UInt8 × Bytes 16}
    (hseal : encryptAead P s.sendKey s.generateNonce.bytes (encodeFrame f) [] = .ok sealed)
    (hcounter : s.counter.toNat + 1 < 2 ^ 64) :
    ∃ e s', FrameEncryptor.encryptFrame P f s = (.ok e, s') := by
  rcases Outcome.add64_cases (ε := ProtocolError) s.counter 1 with ⟨c, -, hadd⟩ | ⟨hover, -⟩
  · refine ⟨⟨s.epoch, s.generateNonce, sealed.1, sealed.2⟩, { s with counter := c }, ?_⟩
    simp [FrameEncryptor.encryptFrame, Call.ofOutcome_bind, hseal, hadd, Outcome.mapErr]
  · exact absurd hcounter (Nat.not_lt.mpr hover)

/-- A rotation panics on the last epoch, stops half-way with the epoch already bumped when
HKDF fails, or installs the next key. -/
theorem encryptor_rotateKeys_cases (s : FrameEncryptor) :
    (2 ^ 32 ≤ s.epoch.toNat + 1 ∧ FrameEncryptor.rotateKeys P s = (.panicked, s)) ∨
    (∃ e, e.toNat = s.epoch.toNat + 1 ∧ nextKey P s.sendKey e = none ∧
      FrameEncryptor.rotateKeys P s = (.err .encryptionError, { s with epoch := e })) ∨
    (∃ e k, e.toNat = s.epoch.toNat + 1 ∧ nextKey P s.sendKey e = some k ∧
      FrameEncryptor.rotateKeys P s = (.ok (), ⟨k, e, 0⟩)) := by
  rcases Outcome.add32_cases (ε := ProtocolError) s.epoch 1 with ⟨e, he, hadd⟩ | ⟨hlast, hadd⟩
  · cases hkey : nextKey P s.sendKey e with
    | none =>
      refine Or.inr (Or.inl ⟨e, he, hkey, ?_⟩)
      simp [FrameEncryptor.rotateKeys, Call.ofOutcome_bind, hadd, hkdfDerive_epochInfo, hkey,
        Outcome.okOr]
    | some k =>
      refine Or.inr (Or.inr ⟨e, k, he, hkey, ?_⟩)
      simp [FrameEncryptor.rotateKeys, Call.ofOutcome_bind, hadd, hkdfDerive_epochInfo, hkey,
        Outcome.okOr]
  · refine Or.inl ⟨hlast, ?_⟩
    simp [FrameEncryptor.rotateKeys, Call.ofOutcome_bind, hadd]

theorem decryptor_rotateKeys_cases (s : FrameDecryptor) :
    (2 ^ 32 ≤ s.epoch.toNat + 1 ∧ FrameDecryptor.rotateKeys P s = (.panicked, s)) ∨
    (∃ e, e.toNat = s.epoch.toNat + 1 ∧ nextKey P s.recvKey e = none ∧
      FrameDecryptor.rotateKeys P s = (.err .encryptionError, { s with epoch := e })) ∨
    (∃ e k, e.toNat = s.epoch.toNat + 1 ∧ nextKey P s.recvKey e = some k ∧
      FrameDecryptor.rotateKeys P s = (.ok (), FrameDecryptor.new k e)) := by
  rcases Outcome.add32_cases (ε := ProtocolError) s.epoch 1 with ⟨e, he, hadd⟩ | ⟨hlast, hadd⟩
  · cases hkey : nextKey P s.recvKey e with
    | none =>
      refine Or.inr (Or.inl ⟨e, he, hkey, ?_⟩)
      simp [FrameDecryptor.rotateKeys, Call.ofOutcome_bind, hadd, hkdfDerive_epochInfo, hkey,
        Outcome.okOr]
    | some k =>
      refine Or.inr (Or.inr ⟨e, k, he, hkey, ?_⟩)
      simp [FrameDecryptor.rotateKeys, Call.ofOutcome_bind, hadd, hkdfDerive_epochInfo, hkey,
        Outcome.okOr, FrameDecryptor.new]
  · refine Or.inl ⟨hlast, ?_⟩
    simp [FrameDecryptor.rotateKeys, Call.ofOutcome_bind, hadd]

theorem protectReplay_new (n : Nonce) :
    ReplayProtection.protectReplay n ReplayProtection.new = (.ok (), freshWindow n) := by
  unfold freshWindow
  cases hs : slide 0 0 n.counter with
  | none =>
    rcases (slide_eq_none tracks_empty).mp hs with h | h
    · exact absurd h (Set.notMem_empty _)
    · exact absurd h (Nat.not_succ_le_zero _)
  | some w => simp [ReplayProtection.protectReplay, ReplayProtection.new, hs]

theorem protectReplay_of_refused {n : Nonce}
    (hs : slide d.replayProtection.maxCounter d.replayProtection.receivedMask n.counter = none) :
    FrameDecryptor.protectReplay n d = (.err .replayDetected, d) := by
  simp [FrameDecryptor.protectReplay, Call.onPart, ReplayProtection.protectReplay, hs,
    Outcome.mapErr]

theorem protectReplay_of_accepted {n : Nonce} {w : UInt64 × UInt64}
    (hs : slide d.replayProtection.maxCounter d.replayProtection.receivedMask n.counter = some w) :
    FrameDecryptor.protectReplay n d = (.ok (), { d with replayProtection := ⟨w.1, w.2⟩ }) := by
  simp [FrameDecryptor.protectReplay, Call.onPart, ReplayProtection.protectReplay, hs,
    Outcome.mapErr]

/-- A frame of the current epoch: the window moves whether or not the frame is authentic. -/
theorem decryptFrame_same (h : enc.epoch = d.epoch) :
    FrameDecryptor.decryptFrame P enc d =
      match slide d.replayProtection.maxCounter d.replayProtection.receivedMask enc.nonce.counter with
      | none => (.err .replayDetected, d)
      | some w => (openFrame P d.recvKey enc >>= decodeFrame P.heapAddr,
          { d with replayProtection := ⟨w.1, w.2⟩ }) := by
  rw [FrameDecryptor.decryptFrame, Call.getState_bind, if_pos h]
  split
  · next hs => exact Call.bind_of_err (protectReplay_of_refused hs) _
  · next w hs =>
    rw [Call.bind_of_ok (protectReplay_of_accepted hs)]
    cases openFrame P d.recvKey enc with
    | ok plaintext => rfl
    | err x => rfl
    | panicked => rfl

/-- A frame of the next epoch: the decryptor moves exactly when the frame is authentic. -/
theorem decryptFrame_next (h : enc.epoch.toNat = d.epoch.toNat + 1) :
    FrameDecryptor.decryptFrame P enc d =
      match nextKey P d.recvKey enc.epoch with
      | none => (.err .encryptionError, d)
      | some k =>
        match openFrame P k enc with
        | .ok plaintext => (decodeFrame P.heapAddr plaintext, ⟨k, enc.epoch, freshWindow enc.nonce⟩)
        | .err x => (.err x, d)
        | .panicked => (.panicked, d) := by
  have hne : enc.epoch ≠ d.epoch := fun he => Nat.succ_ne_self d.epoch.toNat (he ▸ h).symm
  have hadd : (Outcome.add32 d.epoch 1 : Outcome ProtocolError UInt32) = .ok enc.epoch :=
    Outcome.add32_eq_ok.mpr h
  rw [FrameDecryptor.decryptFrame, Call.getState_bind, if_neg hne, hadd, Call.ofOutcome_ok_bind,
    if_pos rfl, hkdfDerive_epochInfo, protectReplay_new]
  cases nextKey P d.recvKey enc.epoch with
  | none => rfl
  | some k =>
    show (Call.ofOutcome (.ok k) >>= _) d = _
    rw [Call.ofOutcome_ok_bind, Call.ofOutcome_ok_bind]
    cases hopen : openFrame P k enc with
    | ok plaintext => simp [hopen]
    | err x => simp [hopen]
    | panicked => simp [hopen]

/-- A frame of any other epoch is refused; on the last epoch the comparison itself overflows. -/
theorem decryptFrame_other (hs : enc.epoch ≠ d.epoch) (hn : enc.epoch.toNat ≠ d.epoch.toNat + 1) :
    FrameDecryptor.decryptFrame P enc d =
      (if d.epoch.toNat + 1 < 2 ^ 32 then .err .encryptionError else .panicked, d) := by
  rw [FrameDecryptor.decryptFrame, Call.getState_bind, if_neg hs]
  split
  · next hlt =>
    have hadd : (Outcome.add32 d.epoch 1 : Outcome ProtocolError UInt32) = .ok (d.epoch + 1) :=
      if_pos hlt
    have hne : enc.epoch ≠ d.epoch + 1 := fun he => hn (he ▸ Outcome.add32_eq_ok.mp hadd)
    rw [hadd, Call.ofOutcome_ok_bind, if_neg hne, Call.fail_apply]
  · next hge =>
    have hadd : (Outcome.add32 d.epoch 1 : Outcome ProtocolError UInt32) = .panicked := if_neg hge
    rw [hadd, Call.ofOutcome_panicked_bind]

/-- What a delivery can do: refuse and change nothing; enter the counter into the window and
then authenticate; or authenticate under the next key and move to it. -/
theorem decryptFrame_cases (enc : EncryptedFrame) (d : FrameDecryptor) :
    ((∀ f, (FrameDecryptor.decryptFrame P enc d).1 ≠ .ok f) ∧
      (FrameDecryptor.decryptFrame P enc d).2 = d) ∨
    (∃ w, slide d.replayProtection.maxCounter d.replayProtection.receivedMask enc.nonce.counter =
        some w ∧
      (FrameDecryptor.decryptFrame P enc d).2 = { d with replayProtection := ⟨w.1, w.2⟩ } ∧
      ∀ f, (FrameDecryptor.decryptFrame P enc d).1 = .ok f →
        ∃ plaintext, openFrame P d.recvKey enc = .ok plaintext) ∨
    (∃ k plaintext, enc.epoch.toNat = d.epoch.toNat + 1 ∧ openFrame P k enc = .ok plaintext ∧
      (FrameDecryptor.decryptFrame P enc d).2 = ⟨k, enc.epoch, freshWindow enc.nonce⟩) := by
  by_cases hs : enc.epoch = d.epoch
  · rw [decryptFrame_same hs]
    split
    · exact Or.inl ⟨(fun f hf => nomatch hf), rfl⟩
    · next w hw =>
      refine Or.inr (Or.inl ⟨w, hw, rfl, fun f hf => ?_⟩)
      obtain ⟨plaintext, hopen, -⟩ := Outcome.bind_eq_ok.mp hf
      exact ⟨plaintext, hopen⟩
  · by_cases hn : enc.epoch.toNat = d.epoch.toNat + 1
    · rw [decryptFrame_next hn]
      split
      · exact Or.inl ⟨(fun f hf => nomatch hf), rfl⟩
      · next k hk =>
        split
        · next plaintext hopen => exact Or.inr (Or.inr ⟨k, plaintext, hn, hopen, rfl⟩)
        · exact Or.inl ⟨(fun f hf => nomatch hf), rfl⟩
        · exact Or.inl ⟨(fun f hf => nomatch hf), rfl⟩
    · rw [decryptFrame_other hs hn]
      refine Or.inl ⟨fun f hf => ?_, rfl⟩
      split at hf
      · cases hf
      · cases hf

theorem onEncryptor_apply {α : Type} {x : Call FrameEncryptor ProtocolError α}
    {r : Outcome ProtocolError α} (h : x c.encryptor = (r, s)) :
    EncryptionContext.onEncryptor x c = (r, { c with encryptor := s }) := by
  simp [EncryptionContext.onEncryptor, Call.onPart, h, mapErr_id]

theorem onDecryptor_apply {α : Type} {x : Call FrameDecryptor ProtocolError α}
    {r : Outcome ProtocolError α} (h : x c.decryptor = (r, d)) :
    EncryptionContext.onDecryptor x c = (r, { c with decryptor := d }) := by
  simp [EncryptionContext.onDecryptor, Call.onPart, h, mapErr_id]

/-- A rotation of the context rotates its encryptor, whatever becomes of its decryptor. -/
theorem context_rotateKeys_encryptor (c : EncryptionContext) :
    (EncryptionContext.rotateKeys P c).2.encryptor = (FrameEncryptor.rotateKeys P c.encryptor).2 := by
  show ((EncryptionContext.onEncryptor (FrameEncryptor.rotateKeys P) >>= _) c).2.encryptor = _
  rw [Call.bind_apply]
  show _ = ((EncryptionContext.onEncryptor (FrameEncryptor.rotateKeys P)) c).2.encryptor
  rcases EncryptionContext.onEncryptor (FrameEncryptor.rotateKeys P) c with ⟨_ | _ | _, c'⟩
  · rfl
  · rfl
  · rfl

/-- A rotation of the context that returns has rotated its encryptor. -/
theorem context_rotateKeys_ok {c' : EncryptionContext}
    (h : EncryptionContext.rotateKeys P c = (.ok (), c')) :
    FrameEncryptor.rotateKeys P c.encryptor = (.ok (), c'.encryptor) := by
  have hstate := context_rotateKeys_encryptor (P := P) c
  obtain ⟨u, c1, hfirst, -⟩ := Call.bind_fst_eq_ok (f := fun _ =>
    EncryptionContext.onDecryptor (FrameDecryptor.rotateKeys P)) (congrArg Prod.fst h)
  rw [onEncryptor_apply (Prod.mk.eta.symm)] at hfirst
  rw [h] at hstate
  exact Prod.ext (Prod.mk.inj hfirst).1 hstate.symm

theorem rotateIfDue_of_due (h : RotationDue c) :
    EncryptionContext.rotateIfDue P c = EncryptionContext.rotateKeys P c := by
  obtain ⟨limit, hp, hl⟩ := h
  rw [EncryptionContext.rotateIfDue, Call.getState_bind, hp]
  exact congrFun (if_pos hl) c

theorem rotateIfDue_of_not_due (h : ¬ RotationDue c) :
    EncryptionContext.rotateIfDue P c = (.ok (), c) := by
  rw [EncryptionContext.rotateIfDue, Call.getState_bind]
  cases hp : c.rotationPolicy with
  | manual => rfl
  | counter limit =>
    have hl : ¬ c.encryptor.counter ≥ limit := fun hl => h ⟨limit, hp, hl⟩
    exact congrFun (if_neg hl) c

/-- `encrypt_frame` of a context: the encryptor fails and nothing changes, or it returns a
frame and then the policy decides whether both directions rotate. -/
theorem context_encryptFrame_cases (f : OwnedProtocolFrame) (c : EncryptionContext) :
    (∃ r, (∀ e, r ≠ .ok e) ∧ FrameEncryptor.encryptFrame P f c.encryptor = (r, c.encryptor) ∧
      EncryptionContext.encryptFrame P f c = (r, c)) ∨
    (∃ e s, FrameEncryptor.encryptFrame P f c.encryptor = (.ok e, s) ∧
      ¬ RotationDue { c with encryptor := s } ∧
      EncryptionContext.encryptFrame P f c = (.ok e, { c with encryptor := s })) ∨
    (∃ e s r c', FrameEncryptor.encryptFrame P f c.encryptor = (.ok e, s) ∧
      RotationDue { c with encryptor := s } ∧
      EncryptionContext.rotateKeys P { c with encryptor := s } = (r, c') ∧
      EncryptionContext.encryptFrame P f c = (r >>= fun _ => .ok e, c')) := by
  rcases encryptor_encryptFrame_cases (P := P) f c.encryptor with
    ⟨sealed, counter, -, -, henc⟩ | ⟨r, hr, henc⟩
  · refine Or.inr ?_
    have hcall : EncryptionContext.encryptFrame P f c =
        (EncryptionContext.rotateIfDue P >>= fun _ => pure _) _ :=
      Call.bind_of_ok (onEncryptor_apply henc) _
    by_cases hdue : RotationDue { c with encryptor := { c.encryptor with counter := counter } }
    · refine Or.inr ⟨_, _, _, _, henc, hdue, Prod.mk.eta.symm, ?_⟩
      rw [hcall, Call.bind_pure_apply, rotateIfDue_of_due hdue]
    · exact Or.inl ⟨_, _, henc, hdue, hcall.trans (Call.bind_of_ok (rotateIfDue_of_not_due hdue) _)⟩
  · refine Or.inl ⟨r, hr, henc, ?_⟩
    have hpart := onEncryptor_apply henc
    cases r with
    | ok e => exact absurd rfl (hr e)
    | err x => exact Call.bind_of_err hpart _
    | panicked => exact Call.bind_of_panicked hpart _

/-- When HKDF does not fail and no epoch overflows, a rotation rotates both directions. -/
theorem context_rotateKeys_total (hkdf : HkdfTotal P) {n : Nat} (hn : EpochsWithin n c)
    (hroom : n + 1 < 2 ^ 32) :
    ∃ s d, FrameEncryptor.rotateKeys P c.encryptor = (.ok (), s) ∧
      FrameDecryptor.rotateKeys P c.decryptor = (.ok (), d) ∧
      s.epoch.toNat = c.encryptor.epoch.toNat + 1 ∧ d.epoch.toNat = c.decryptor.epoch.toNat + 1 ∧
      EncryptionContext.rotateKeys P c = (.ok (), ⟨s, d, c.rotationPolicy⟩) := by
  have hsome : ∀ key e, nextKey P key e ≠ none := fun key e hk => by
    have := hkdf none key.toList (epochInfo e)
    rw [show P.hkdfExpand none key.toList (epochInfo e) = none from hk] at this
    cases this
  rcases encryptor_rotateKeys_cases (P := P) c.encryptor with
    ⟨hover, -⟩ | ⟨e, -, hk, -⟩ | ⟨e, k, he, -, henc⟩
  · exact absurd (hover.trans (Nat.succ_le_succ hn.send)) (Nat.not_le.mpr hroom)
  · exact absurd hk (hsome _ _)
  rcases decryptor_rotateKeys_cases (P := P) c.decryptor with
    ⟨hover, -⟩ | ⟨_, -, hk, -⟩ | ⟨e', k', he', -, hdec⟩
  · exact absurd (hover.trans (Nat.succ_le_succ hn.receive)) (Nat.not_le.mpr hroom)
  · exact absurd hk (hsome _ _)
  refine ⟨_, _, henc, hdec, he, he', ?_⟩
  rw [EncryptionContext.rotateKeys, Call.bind_of_ok (onEncryptor_apply henc)]
  exact onDecryptor_apply (c := { c with encryptor := ⟨k, e, 0⟩ }) hdec

/-- When HKDF does not fail and no epoch overflows, `encrypt_frame` of a context fails and changes
nothing, or returns a frame of its encryptor and then rotates both directions or none. -/
theorem context_encryptFrame_total (hkdf : HkdfTotal P) {n : Nat} (hn : EpochsWithin n c)
    (hroom : n + c.rotations P f < 2 ^ 32) :
    (∃ r, (∀ e, r ≠ .ok e) ∧ FrameEncryptor.encryptFrame P f c.encryptor = (r, c.encryptor) ∧
      EncryptionContext.encryptFrame P f c = (r, c)) ∨
    ∃ e s, FrameEncryptor.encryptFrame P f c.encryptor = (.ok e, s) ∧
      (EncryptionContext.encryptFrame P f c = (.ok e, { c with encryptor := s }) ∨
        ∃ s' d, c.rotations P f = 1 ∧ FrameEncryptor.rotateKeys P s = (.ok (), s') ∧
          FrameDecryptor.rotateKeys P c.decryptor = (.ok (), d) ∧
          s'.epoch.toNat = s.epoch.toNat + 1 ∧ d.epoch.toNat = c.decryptor.epoch.toNat + 1 ∧
          EncryptionContext.encryptFrame P f c = (.ok e, ⟨s', d, c.rotationPolicy⟩)) := by
  rcases context_encryptFrame_cases (P := P) f c with
    ⟨r, hr, hfail, h⟩ | ⟨e, s, henc, -, h⟩ | ⟨e, s, r, c', henc, hdue, hrot, h⟩
  · exact Or.inl ⟨r, hr, hfail, h⟩
  · exact Or.inr ⟨e, s, henc, Or.inl h⟩
  · have hone : c.rotations P f = 1 := by
      rw [EncryptionContext.rotations, henc]
      exact if_pos hdue
    obtain ⟨-, -, -, _, -, hs⟩ := encryptor_encryptFrame_ok henc
    rw [hone] at hroom
    obtain ⟨s', d, hs1, hd1, hse, hde, hboth⟩ :=
      context_rotateKeys_total (P := P) hkdf (c := { c with encryptor := s })
        ⟨hs ▸ hn.send, hn.receive⟩ hroom
    rw [hboth] at hrot
    cases hrot
    exact Or.inr ⟨e, s, henc, Or.inr ⟨s', d, hone, hs1, hd1, hse, hde, h⟩⟩

end EncryptionLemmas

end Blackwing.Protocol
