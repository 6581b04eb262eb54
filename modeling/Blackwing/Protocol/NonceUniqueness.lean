import Blackwing.Lib.Run
import Blackwing.Protocol.Encryption
import Mathlib.Data.Prod.Lex

/-!
# No nonce is used twice

Runs of a `FrameEncryptor` and of an `EncryptionContext`, over any calls,
failed ones included. The place of a nonce is its epoch and counter in
lexicographic order. No call moves an encryptor back, and a returned frame
carries the place the encryptor stood at and moves it on, so the returned
nonces come in increasing order.

* `context_nonces_distinct`: the frames of one `EncryptionContext`.
-/

namespace Blackwing.Protocol

open EncryptionLemmas

variable (P : Primitives)

/-! ## Machines -/

/-- The calls of a `FrameEncryptor`. -/
inductive EncryptorOp where
  | encryptFrame (frame : OwnedProtocolFrame)
  | rotateKeys

/-- The calls of an `EncryptionContext`. -/
inductive ContextOp where
  | encryptFrame (frame : OwnedProtocolFrame)
  | decryptFrame (encrypted : EncryptedFrame)
  | rotateKeys

/-- What a call returned. -/
inductive CipherOut where
  | encrypted (r : Outcome ProtocolError EncryptedFrame)
  | decrypted (r : Outcome ProtocolError OwnedProtocolFrame)
  | rotated (r : Outcome ProtocolError Unit)
deriving DecidableEq

/-- One call of a `FrameEncryptor`. -/
def encryptorStep (s : FrameEncryptor) : EncryptorOp → CipherOut × FrameEncryptor
  | .encryptFrame f =>
    (.encrypted (FrameEncryptor.encryptFrame P f s).1, (FrameEncryptor.encryptFrame P f s).2)
  | .rotateKeys => (.rotated (FrameEncryptor.rotateKeys P s).1, (FrameEncryptor.rotateKeys P s).2)

/-- One call of an `EncryptionContext`. -/
def contextStep (c : EncryptionContext) : ContextOp → CipherOut × EncryptionContext
  | .encryptFrame f =>
    (.encrypted (EncryptionContext.encryptFrame P f c).1, (EncryptionContext.encryptFrame P f c).2)
  | .decryptFrame e =>
    (.decrypted (EncryptionContext.decryptFrame P e c).1, (EncryptionContext.decryptFrame P e c).2)
  | .rotateKeys =>
    (.rotated (EncryptionContext.rotateKeys P c).1, (EncryptionContext.rotateKeys P c).2)

/-- The encrypted frame a call returned. -/
def CipherOut.frame? : CipherOut → Option EncryptedFrame
  | .encrypted (.ok e) => some e
  | _ => none

/-- The encrypted frames returned in a run, oldest first. -/
def returnedFrames {σ ι : Type} (h : List (Entry σ ι CipherOut)) : List EncryptedFrame :=
  h.filterMap fun e => e.out.frame?

/-! ## Places -/

/-- The place of a nonce: epoch, then counter. -/
def Nonce.place (n : Nonce) : Nat ×ₗ Nat := toLex (n.epoch.toNat, n.counter.toNat)

/-- The place of the next nonce of an encryptor. -/
def FrameEncryptor.place (s : FrameEncryptor) : Nat ×ₗ Nat := toLex (s.epoch.toNat, s.counter.toNat)

namespace NonceLemmas

variable {P}

theorem place_generateNonce (s : FrameEncryptor) : s.generateNonce.place = s.place := by
  simp [FrameEncryptor.generateNonce, Nonce.place, FrameEncryptor.place]

variable {s : FrameEncryptor} {e : EncryptedFrame} {f : OwnedProtocolFrame}

theorem place_lt_of_epoch {t : FrameEncryptor} (h : t.epoch.toNat = s.epoch.toNat + 1) :
    s.place < t.place :=
  Prod.Lex.toLex_lt_toLex.mpr (Or.inl (by rw [h]; exact Nat.lt_succ_self _))

theorem frame?_eq_some {o : CipherOut} (h : o.frame? = some e) : o = .encrypted (.ok e) := by
  cases o with
  | encrypted r =>
    cases r with
    | ok e' => cases h; rfl
    | err x => cases h
    | panicked => cases h
  | decrypted r => cases h
  | rotated r => cases h

/-- A rotation never moves the encryptor back. -/
theorem place_rotateKeys (s : FrameEncryptor) :
    s.place ≤ (FrameEncryptor.rotateKeys P s).2.place := by
  rcases encryptor_rotateKeys_cases (P := P) s with ⟨-, h⟩ | ⟨e, he, -, h⟩ | ⟨e, k, he, -, h⟩
  · rw [h]
  · rw [h]; exact le_of_lt (place_lt_of_epoch he)
  · rw [h]; exact le_of_lt (place_lt_of_epoch he)

theorem encryptFrame_unchanged {s' : FrameEncryptor} {r : Outcome ProtocolError EncryptedFrame}
    (h : FrameEncryptor.encryptFrame P f s = (r, s')) (hr : ∀ e, r ≠ .ok e) : s' = s := by
  rcases encryptor_encryptFrame_cases (P := P) f s with ⟨sealed, c, -, -, h'⟩ | ⟨r', -, h'⟩
  · rw [h'] at h
    cases h
    exact absurd rfl (hr _)
  · rw [h'] at h
    cases h
    rfl

/-- A returned frame stands at the encryptor's place, and the encryptor moves past it. -/
theorem place_encryptFrame_ok {s' : FrameEncryptor}
    (h : FrameEncryptor.encryptFrame P f s = (.ok e, s')) :
    e.nonce.place = s.place ∧ s.place < s'.place := by
  obtain ⟨-, -, hnonce, c, hc, rfl⟩ := encryptor_encryptFrame_ok h
  refine ⟨hnonce ▸ place_generateNonce s, Prod.Lex.toLex_lt_toLex.mpr (Or.inr ⟨rfl, ?_⟩)⟩
  rw [hc]
  exact Nat.lt_succ_self _

theorem place_encryptFrame (f : OwnedProtocolFrame) (s : FrameEncryptor) :
    s.place ≤ (FrameEncryptor.encryptFrame P f s).2.place := by
  cases h : FrameEncryptor.encryptFrame P f s with
  | mk r s' =>
    cases r with
    | ok e => exact le_of_lt (place_encryptFrame_ok h).2
    | err x => rw [encryptFrame_unchanged h (fun e => nofun)]
    | panicked => rw [encryptFrame_unchanged h (fun e => nofun)]

theorem place_encryptorStep (s : FrameEncryptor) (op : EncryptorOp) :
    s.place ≤ (encryptorStep P s op).2.place := by
  cases op with
  | encryptFrame f => exact place_encryptFrame f s
  | rotateKeys => exact place_rotateKeys s

theorem encryptorStep_frame {op : EncryptorOp} (h : (encryptorStep P s op).1.frame? = some e) :
    e.nonce.place = s.place ∧ s.place < (encryptorStep P s op).2.place := by
  cases op with
  | encryptFrame f =>
    have hok := CipherOut.encrypted.inj (frame?_eq_some h)
    exact place_encryptFrame_ok (Prod.ext hok rfl)
  | rotateKeys => cases h

theorem place_context_rotateKeys (c : EncryptionContext) :
    c.encryptor.place ≤ (EncryptionContext.rotateKeys P c).2.encryptor.place := by
  rw [context_rotateKeys_encryptor]
  exact place_rotateKeys c.encryptor

/-- `encrypt_frame` of a context leaves the encryptor at or past the place its own call
reached, whether or not the policy rotation succeeded. -/
theorem place_context_encryptFrame (f : OwnedProtocolFrame) (c : EncryptionContext) :
    (FrameEncryptor.encryptFrame P f c.encryptor).2.place ≤
      (EncryptionContext.encryptFrame P f c).2.encryptor.place := by
  rcases context_encryptFrame_cases (P := P) f c with
    ⟨r, -, henc, h⟩ | ⟨e, s, henc, -, h⟩ | ⟨e, s, r, c', henc, -, hrot, h⟩
  · rw [henc, h]
  · rw [henc, h]
  · have hle := place_context_rotateKeys (P := P) { c with encryptor := s }
    rw [hrot] at hle
    rw [henc, h]
    exact hle

/-- A frame that a context returns was returned by its encryptor. -/
theorem context_encryptFrame_ok {c : EncryptionContext}
    (h : (EncryptionContext.encryptFrame P f c).1 = .ok e) :
    (FrameEncryptor.encryptFrame P f c.encryptor).1 = .ok e := by
  rcases context_encryptFrame_cases (P := P) f c with
    ⟨r, hr, -, h'⟩ | ⟨e', s, henc, -, h'⟩ | ⟨e', s, r, c', henc, -, -, h'⟩
  · rw [h'] at h
    exact absurd h (hr e)
  · rw [h'] at h
    rw [henc]
    exact h
  · rw [h'] at h
    obtain ⟨u, -, hu⟩ := Outcome.bind_eq_ok.mp h
    rw [henc]
    exact hu

theorem place_contextStep (c : EncryptionContext) (op : ContextOp) :
    c.encryptor.place ≤ (contextStep P c op).2.encryptor.place := by
  cases op with
  | encryptFrame f => exact le_trans (place_encryptFrame f _) (place_context_encryptFrame f c)
  | decryptFrame e => exact le_refl _
  | rotateKeys => exact place_context_rotateKeys c

theorem contextStep_frame {c : EncryptionContext} {op : ContextOp}
    (h : (contextStep P c op).1.frame? = some e) :
    e.nonce.place = c.encryptor.place ∧
      c.encryptor.place < (contextStep P c op).2.encryptor.place := by
  cases op with
  | encryptFrame f =>
    have hok := context_encryptFrame_ok (CipherOut.encrypted.inj (frame?_eq_some h))
    obtain ⟨hplace, hlt⟩ := place_encryptFrame_ok (Prod.ext hok rfl)
    exact ⟨hplace, lt_of_lt_of_le hlt (place_context_encryptFrame f c)⟩
  | decryptFrame e' => cases h
  | rotateKeys => cases h

end NonceLemmas

open NonceLemmas

/-! ## Runs -/

/-- Over every run of an `EncryptionContext`, under any policy and over any calls, no two
returned frames carry the same nonce. -/
theorem context_nonces_distinct (keys : SessionKeys) (policy : KeyRotationPolicy)
    (ops : List ContextOp) :
    (returnedFrames (run (contextStep P) (EncryptionContext.new keys policy) ops)).Pairwise
      fun a b => a.nonce ≠ b.nonce := by
  have hlt := run_emits_increasing (fun c => c.encryptor.place) (fun e => e.out.frame?)
    (fun e => e.nonce.place) (place_contextStep (P := P)) (fun _ _ _ h => contextStep_frame h)
    (EncryptionContext.new keys policy) ops
  refine List.Pairwise.imp (fun {a b} hab heq => ?_) hlt
  rw [heq] at hab
  exact lt_irrefl _ hab

end Blackwing.Protocol
