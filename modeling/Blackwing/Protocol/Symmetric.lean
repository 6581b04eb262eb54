import Blackwing.Lib.Bytes
import Blackwing.Lib.Call

/-!
# Symmetric primitives

`bw-crypto/src/symmetric.rs`: ChaCha20-Poly1305 with a detached tag, and
HKDF-SHA256. The cipher and the key derivation come from third-party crates and
are parameters (`Primitives`); the wrappers around them are modelled.

What the rest of the development assumes of them is named here:

* `AeadRoundTrip`: decryption inverts encryption under the same key and nonce;
* `HkdfTotal`: key derivation does not fail.

`Primitives.plain` is a transparent instance that meets both, for evaluating the
model on concrete inputs.
-/

namespace Blackwing.Protocol

/-- `SymmetricKey`. -/
abbrev SymmetricKey : Type := Bytes 32

/-- `CryptoError`, the variants the wrappers return. -/
inductive CryptoError where
  | invalidKey
  | verificationFailed
deriving DecidableEq, Repr

/-- The code outside the repository that the encryption pipeline calls. -/
structure Primitives where
  /-- `ChaCha20Poly1305::encrypt(key, nonce, msg, aad)`: ciphertext with its tag appended. -/
  chachaEncrypt : SymmetricKey → Bytes 12 → List UInt8 → List UInt8 → Option (List UInt8)
  /-- `ChaCha20Poly1305::decrypt(key, nonce, ciphertext and tag, aad)`. -/
  chachaDecrypt : SymmetricKey → Bytes 12 → List UInt8 → List UInt8 → Option (List UInt8)
  /-- `Hkdf::<Sha256>::new(salt, ikm).expand(info, 32 bytes)`. -/
  hkdfExpand : Option (List UInt8) → List UInt8 → List UInt8 → Option (Bytes 32)
  /-- The address at which the allocator puts a decrypted plaintext. -/
  heapAddr : Nat
  /-- A heap block is aligned for every primitive type. -/
  heapAddr_aligned : heapAddr % 8 = 0

variable (P : Primitives)

/-- `hkdf_derive`. -/
def hkdfDerive (salt : Option (List UInt8)) (ikm : List UInt8) (info : Option (List UInt8)) :
    Outcome CryptoError SymmetricKey :=
  .okOr .invalidKey (P.hkdfExpand salt ikm (info.getD []))

/-- `encrypt_aead`: the ciphertext and the 16-byte tag, separately. -/
def encryptAead (key : SymmetricKey) (nonce : Bytes 12) (plaintext associatedData : List UInt8) :
    Outcome CryptoError (List UInt8 × Bytes 16) :=
  match P.chachaEncrypt key nonce plaintext associatedData with
  | none => .err .verificationFailed
  | some withTag =>
    if h : withTag.length < 16 then .err .verificationFailed
    else
      .ok (withTag.take (withTag.length - 16),
        ⟨withTag.drop (withTag.length - 16), by rw [List.length_drop]; omega⟩)

/-- `decrypt_aead`. -/
def decryptAead (key : SymmetricKey) (nonce : Bytes 12) (ciphertext : List UInt8) (tag : Bytes 16)
    (associatedData : List UInt8) : Outcome CryptoError (List UInt8) :=
  .okOr .verificationFailed (P.chachaDecrypt key nonce (ciphertext ++ tag.toList) associatedData)

/-- Decryption inverts encryption under the same key and nonce. -/
def AeadRoundTrip : Prop :=
  ∀ key nonce plaintext ciphertext tag,
    encryptAead P key nonce plaintext [] = .ok (ciphertext, tag) →
      decryptAead P key nonce ciphertext tag [] = .ok plaintext

/-- Key derivation does not fail. -/
def HkdfTotal : Prop :=
  ∀ salt ikm info, (P.hkdfExpand salt ikm info).isSome = true

/-! ## A transparent instance -/

/-- What `Primitives.plain` appends to a message: the key, the nonce and a zero tag. -/
def plainTrailer (key : SymmetricKey) (nonce : Bytes 12) : List UInt8 :=
  key.toList ++ nonce.toList ++ List.replicate 16 0

/-- Primitives that hide nothing: a message is sealed by appending the key and the nonce, and
a key is derived by writing the info string over the old key. -/
def Primitives.plain : Primitives where
  chachaEncrypt := fun key nonce msg _ => some (msg ++ plainTrailer key nonce)
  chachaDecrypt := fun key nonce sealed _ =>
    if sealed.drop (sealed.length - 60) = plainTrailer key nonce then
      some (sealed.take (sealed.length - 60))
    else none
  hkdfExpand := fun _ ikm info => Bytes.ofList? 32 ((info ++ ikm ++ List.replicate 32 0).take 32)
  heapAddr := 0
  heapAddr_aligned := rfl

theorem length_plainTrailer (key : SymmetricKey) (nonce : Bytes 12) :
    (plainTrailer key nonce).length = 60 := by
  simp [plainTrailer]

theorem plain_roundTrip : AeadRoundTrip Primitives.plain := by
  intro key nonce msg ciphertext tag h
  have hlen : (msg ++ plainTrailer key nonce).length = msg.length + 60 := by
    rw [List.length_append, length_plainTrailer]
  simp only [encryptAead, Primitives.plain] at h
  split at h
  · cases h
  · cases h
    show Outcome.okOr _ (Primitives.plain.chachaDecrypt key nonce
      (List.take _ (msg ++ plainTrailer key nonce) ++ List.drop _ (msg ++ plainTrailer key nonce)) [])
        = _
    rw [List.take_append_drop]
    simp [Primitives.plain, hlen, Outcome.okOr]

/-- What opens under a key ends in the trailer of that key. -/
theorem plain_decryptAead {key : SymmetricKey} {nonce : Bytes 12}
    {msg ciphertext plaintext : List UInt8} {tag : Bytes 16} {sealKey : SymmetricKey}
    {sealNonce : Bytes 12} (hc : ciphertext ++ tag.toList = msg ++ plainTrailer sealKey sealNonce)
    (h : decryptAead .plain key nonce ciphertext tag [] = .ok plaintext) : key = sealKey := by
  have hlen : (msg ++ plainTrailer sealKey sealNonce).length - 60 = msg.length := by
    rw [List.length_append, length_plainTrailer, Nat.add_sub_cancel]
  simp only [decryptAead, hc, Primitives.plain, Outcome.okOr_eq_ok] at h
  split at h
  · next htrailer =>
    rw [hlen, List.drop_left] at htrailer
    simp only [plainTrailer, List.append_assoc] at htrailer
    exact (Bytes.append_inj htrailer).1.symm
  · cases h

theorem plain_hkdfTotal : HkdfTotal Primitives.plain := by
  intro salt ikm info
  refine Bytes.ofList?_isSome.mpr ?_
  rw [List.length_take, List.length_append, List.length_replicate]
  exact Nat.min_eq_left (Nat.le_add_left _ _)

end Blackwing.Protocol
