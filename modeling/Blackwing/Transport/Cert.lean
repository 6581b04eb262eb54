import Blackwing.Lib.Call
import Blackwing.Lib.Scan
import Blackwing.Relay.Client

/-!
# Certificate pinning

`bw-transport/src/cert.rs`: the client's verifier of the server certificate. It looks
for an Ed25519 public key in the bytes of the certificate, hashes it, and compares the
hash with the `DeviceId` it expects. The TLS library then asks the same verifier whether
the handshake signature is valid.

* `extractEd25519SpkiRaw`: the byte scan, and `FirstSpki` what it looks for.
* `extract_eq_ok`: the scan returns the key of the first match.
* `accepts_iff`: what the verifier accepts. The transcript and the signature do not occur.
* `pinning_authenticates_iff`: for which certificates acceptance proves who signed.
-/

namespace Blackwing.Transport

open Relay (DeviceId)

/-- SHA-256, and Ed25519 verification of a message and a signature under a key. -/
structure TlsCrypto where
  sha256 : List UInt8 → Bytes 32
  verify : Bytes 32 → List UInt8 → List UInt8 → Bool

/-- `CertError`, the variant that the extraction returns. -/
inductive CertError where
  | invalidPublicKey
deriving DecidableEq

/-- `rustls::Error`, the variant that the verifier returns. -/
inductive TlsError where
  | general (message : String)
deriving DecidableEq

/-- `SignatureScheme`, as a number on the wire. -/
abbrev SignatureScheme : Type := UInt16

/-- `DigitallySignedStruct`: the signature of a handshake. -/
structure DigitallySignedStruct where
  scheme : SignatureScheme
  signature : List UInt8
deriving DecidableEq

/-- The two digits of `{:02x}`. -/
def hexByte (b : UInt8) : String :=
  String.ofList [Nat.digitChar (b.toNat / 16), Nat.digitChar (b.toNat % 16)]

/-- `Display` of a `DeviceId`. -/
def displayDeviceId (id : DeviceId) : String :=
  "bw-id-" ++ String.join (id.toList.map hexByte)

/-! ## The extraction of the key -/

/-- `oid_pattern`, the object identifier of Ed25519. -/
def oidPattern : List UInt8 := [0x06, 0x03, 0x2b, 0x65, 0x70]

/-- The loop of `extract_ed25519_spki_raw`, on the slice `cert_der[oid_pos..]`. -/
def extractFrom : Nat → List UInt8 → Outcome CertError (Bytes 32)
  | 0, _ => .panicked
  | fuel + 1, der =>
    if oidPattern.length < der.length then
      match position oidPattern der with
      | none => .err .invalidPublicKey
      | some offset =>
        match der.drop (offset + oidPattern.length) with
        | tag :: length :: unusedBits :: content =>
          -- a bit string of 33 bytes is the key, one of 65 bytes is the signature
          if tag = 0x03 ∧ length = 0x21 then
            if unusedBits ≠ 0x00 then .err .invalidPublicKey
            else .okOr .invalidPublicKey (Bytes.ofList? 32 (content.take 32))
          else extractFrom fuel (tag :: length :: unusedBits :: content)
        | _ => .err .invalidPublicKey
    else .err .invalidPublicKey

/-- `extract_ed25519_spki_raw`. Each pass shortens the slice. -/
def extractEd25519SpkiRaw (certDer : List UInt8) : Outcome CertError (Bytes 32) :=
  extractFrom (certDer.length + 1) certDer

/-- The first identifier that is followed by the head of a bit string of 33 bytes is followed by a
whole one, without unused bits, and the key is its content. -/
def FirstSpki (der : List UInt8) (key : Bytes 32) : Prop :=
  ∃ p, OccursAt (oidPattern ++ ([0x03, 0x21] ++ ([0x00] ++ key.toList))) der p ∧
    ∀ j < p, ¬ OccursAt (oidPattern ++ [0x03, 0x21]) der j

/-! ## The verifier -/

/-- `DeviceIdPinningVerifier`. -/
structure DeviceIdPinningVerifier where
  expectedId : DeviceId

namespace DeviceIdPinningVerifier

variable (C : TlsCrypto) (verifier : DeviceIdPinningVerifier)

/-- `verify_server_cert`. It reads only the end-entity certificate. -/
def verifyServerCert (endEntity : List UInt8) : Outcome TlsError Unit := do
  let publicKeyBytes ← (extractEd25519SpkiRaw endEntity).mapErr fun _ =>
    .general "invalid certificate public key"
  let actualId := C.sha256 publicKeyBytes.toList
  if actualId ≠ verifier.expectedId then
    .err (.general ("server identity mismatch: expected " ++ displayDeviceId verifier.expectedId ++
      ", got " ++ displayDeviceId actualId))
  else .ok ()

/-- `verify_tls12_signature`. -/
def verifyTls12Signature (_verifier : DeviceIdPinningVerifier) (_message _cert : List UInt8)
    (_dss : DigitallySignedStruct) : Outcome TlsError Unit := .ok ()

/-- `verify_tls13_signature`. -/
def verifyTls13Signature (_verifier : DeviceIdPinningVerifier) (_message _cert : List UInt8)
    (_dss : DigitallySignedStruct) : Outcome TlsError Unit := .ok ()

/-- The client accepts the certificate and the signature of the handshake. -/
def Accepts (cert transcript : List UInt8) (dss : DigitallySignedStruct) : Prop :=
  verifier.verifyServerCert C cert = .ok () ∧
    (verifier.verifyTls13Signature transcript cert dss = .ok () ∨
      verifier.verifyTls12Signature transcript cert dss = .ok ())

/-- The signature is valid over the transcript under a key that hashes to the expected device. -/
def SignedByExpected (transcript : List UInt8) (dss : DigitallySignedStruct) : Prop :=
  ∃ key : Bytes 32, C.sha256 key.toList = verifier.expectedId ∧
    C.verify key transcript dss.signature = true

end DeviceIdPinningVerifier

/-! ## What the scan finds -/

namespace CertLemmas

theorem oidPattern_ne_nil : oidPattern ≠ [] := List.cons_ne_nil _ _

/-- Occurrences of the identifier do not overlap: its first byte does not come again in it. -/
theorem oid_disjoint {der : List UInt8} {i j : Nat} (hi : OccursAt oidPattern der i)
    (hj : OccursAt oidPattern der j) (hlt : i < j) : i + oidPattern.length ≤ j :=
  occursAt_disjoint (by decide) hi hj hlt

/-- Behind the first identifier, when no bit string of 33 bytes follows it, the search goes on as
before. -/
theorem firstSpki_skip {der : List UInt8} {i : Nat} (hi : OccursAt oidPattern der i)
    (hfirst : ∀ j < i, ¬ OccursAt oidPattern der j)
    (hother : ¬ OccursAt [0x03, 0x21] der (i + oidPattern.length)) (key : Bytes 32) :
    FirstSpki der key ↔ FirstSpki (der.drop (i + oidPattern.length)) key := by
  -- an identifier that a bit string of 33 bytes follows stands behind this one
  have hbehind : ∀ {j}, OccursAt (oidPattern ++ [0x03, 0x21]) der j →
      ∃ k, j = i + oidPattern.length + k := by
    intro j hj
    obtain ⟨hoid, htag⟩ := occursAt_append.mp hj
    rcases Nat.lt_trichotomy j i with hlt | rfl | hgt
    · exact absurd hoid (hfirst j hlt)
    · exact absurd htag hother
    · exact Nat.exists_eq_add_of_le (oid_disjoint hi hoid hgt)
  constructor
  · rintro ⟨p, hocc, hmin⟩
    have hhead : OccursAt (oidPattern ++ [0x03, 0x21]) der p := by
      rw [← List.append_assoc] at hocc
      exact (occursAt_append.mp hocc).1
    obtain ⟨k, rfl⟩ := hbehind hhead
    refine ⟨k, occursAt_drop.mpr hocc, fun j hj h => ?_⟩
    exact hmin _ (Nat.add_lt_add_left hj _) (occursAt_drop.mp h)
  · rintro ⟨k, hocc, hmin⟩
    refine ⟨i + oidPattern.length + k, occursAt_drop.mp hocc, fun j hj h => ?_⟩
    obtain ⟨l, rfl⟩ := hbehind h
    exact hmin l (Nat.lt_of_add_lt_add_left hj) (occursAt_drop.mpr h)

/-- At the first identifier that a bit string of 33 bytes follows, the search ends. -/
theorem firstSpki_here {der : List UInt8} {i : Nat} (hi : OccursAt oidPattern der i)
    (hfirst : ∀ j < i, ¬ OccursAt oidPattern der j)
    (htag : OccursAt [0x03, 0x21] der (i + oidPattern.length)) (key : Bytes 32) :
    FirstSpki der key ↔
      OccursAt ([0x00] ++ key.toList) der (i + oidPattern.length + 2) := by
  constructor
  · rintro ⟨p, hocc, hmin⟩
    obtain ⟨hoid, hrest⟩ := occursAt_append.mp hocc
    rcases Nat.lt_trichotomy p i with hlt | rfl | hgt
    · exact absurd hoid (hfirst p hlt)
    · exact (occursAt_append.mp hrest).2
    · exact absurd (occursAt_append.mpr ⟨hi, htag⟩) (hmin i hgt)
  · intro hkey
    refine ⟨i, occursAt_append.mpr ⟨hi, occursAt_append.mpr ⟨htag, hkey⟩⟩, fun j hj h => ?_⟩
    exact hfirst j hj (occursAt_append.mp h).1

theorem okOr_take_eq_ok {content : List UInt8} {key : Bytes 32} :
    Outcome.okOr CertError.invalidPublicKey (Bytes.ofList? 32 (content.take 32)) = .ok key ↔
      key.toList <+: content := by
  rw [Outcome.okOr_eq_ok, Bytes.ofList?_eq_some, List.prefix_iff_eq_take, Bytes.length_toList]
  exact eq_comm

/-- A match takes 40 bytes, from the first identifier or from a later one. -/
theorem firstSpki_length {der : List UInt8} {i : Nat} (hfirst : ∀ j < i, ¬ OccursAt oidPattern der j)
    {key : Bytes 32} (h : FirstSpki der key) : i + 40 ≤ der.length := by
  obtain ⟨p, hocc, -⟩ := h
  have hle : i ≤ p := Nat.not_lt.mp fun hlt => hfirst p hlt (occursAt_append.mp hocc).1
  have hlen : 40 ≤ der.length - p := by simpa [oidPattern] using hocc.length_le
  have hpos : p ≤ der.length :=
    Nat.le_of_lt (Nat.lt_of_sub_pos (Nat.lt_of_lt_of_le (by decide) hlen))
  calc i + 40 ≤ p + 40 := Nat.add_le_add_right hle 40
    _ ≤ der.length := Nat.add_le_of_le_sub' hpos hlen

/-- Each pass shortens the slice. -/
theorem length_drop_lt {fuel i : Nat} {der : List UInt8} (hlong : oidPattern.length < der.length)
    (hfuel : der.length < fuel + 1) : (der.drop (i + oidPattern.length)).length < fuel := by
  rw [List.length_drop]
  exact Nat.lt_of_lt_of_le (Nat.sub_lt (Nat.zero_lt_of_lt hlong) (Nat.succ_pos _))
    (Nat.le_of_lt_succ hfuel)

/-- The loop returns exactly the key that the search is for, when it has enough passes. -/
theorem extractFrom_eq_ok {fuel : Nat} {der : List UInt8} (hfuel : der.length < fuel)
    (key : Bytes 32) : extractFrom fuel der = .ok key ↔ FirstSpki der key := by
  induction fuel generalizing der with
  | zero => exact absurd hfuel (Nat.not_lt_zero _)
  | succ fuel ih =>
    rw [extractFrom]
    split
    case isFalse hshort =>
      refine iff_of_false (fun h => nomatch h) fun h => hshort ?_
      have hlen := firstSpki_length (i := 0) (fun j hj => absurd hj (Nat.not_lt_zero j)) h
      exact Nat.lt_of_lt_of_le (by decide) hlen
    case isTrue hlong =>
      cases hpos : position oidPattern der with
      | none =>
        refine iff_of_false (fun h => nomatch h) ?_
        rintro ⟨p, hocc, -⟩
        exact (position_eq_none oidPattern_ne_nil).mp hpos p (occursAt_append.mp hocc).1
      | some i =>
        obtain ⟨hi, hfirst⟩ := (position_eq_some oidPattern_ne_nil).mp hpos
        dsimp only
        split
        · next tag length unusedBits content htail =>
          have htag : OccursAt [0x03, 0x21] der (i + oidPattern.length) ↔
              tag = 0x03 ∧ length = 0x21 := by
            rw [OccursAt, htail]
            simp [eq_comm]
          split
          · next h =>
            rw [firstSpki_here hi hfirst (htag.mpr h), OccursAt, ← List.drop_drop, htail]
            show _ ↔ 0x00 :: key.toList <+: unusedBits :: content
            rw [List.cons_prefix_cons]
            split
            · next hbits => exact iff_of_false (fun h => nomatch h) fun h => hbits h.1.symm
            · next hbits =>
              rw [okOr_take_eq_ok, and_iff_right (not_not.mp hbits).symm]
          · next h =>
            have hshorter : (tag :: length :: unusedBits :: content).length < fuel := by
              rw [← htail]
              exact length_drop_lt hlong hfuel
            rw [ih hshorter, firstSpki_skip hi hfirst (fun hocc => h (htag.mp hocc)), htail]
        · next hshort =>
          refine iff_of_false (fun h => nomatch h) fun h => ?_
          have hlen : 3 ≤ (der.drop (i + oidPattern.length)).length := by
            rw [List.length_drop]
            refine Nat.le_sub_of_add_le (Nat.le_trans ?_ (firstSpki_length hfirst h))
            rw [Nat.add_left_comm]
            exact Nat.add_le_add_left (by decide) i
          rcases hd : der.drop (i + oidPattern.length) with _ | ⟨a, _ | ⟨b, _ | ⟨c, l⟩⟩⟩
          · exact absurd (hd ▸ hlen) (by decide)
          · exact absurd (hd ▸ hlen) (by simp)
          · exact absurd (hd ▸ hlen) (by simp)
          · exact hshort a b c l hd

end CertLemmas

open CertLemmas

/-- The extraction returns the key of the first match. -/
theorem extract_eq_ok (certDer : List UInt8) (key : Bytes 32) :
    extractEd25519SpkiRaw certDer = .ok key ↔ FirstSpki certDer key :=
  extractFrom_eq_ok (Nat.lt_succ_self _) key

/-- The verifier accepts every handshake with a certificate of the expected device. -/
theorem accepts_iff (C : TlsCrypto) (verifier : DeviceIdPinningVerifier)
    (cert transcript : List UInt8) (dss : DigitallySignedStruct) :
    verifier.Accepts C cert transcript dss ↔
      ∃ key, FirstSpki cert key ∧ C.sha256 key.toList = verifier.expectedId := by
  have hcert : verifier.verifyServerCert C cert = .ok () ↔
      ∃ key, FirstSpki cert key ∧ C.sha256 key.toList = verifier.expectedId := by
    rw [DeviceIdPinningVerifier.verifyServerCert, Outcome.bind_eq_ok]
    refine exists_congr fun key => ?_
    rw [Outcome.mapErr_eq_ok, extract_eq_ok]
    refine and_congr_right fun _ => ?_
    dsimp only
    split
    · next hne => exact iff_of_false (fun h => nomatch h) hne
    · next heq => exact iff_of_true rfl (not_not.mp heq)
  rw [DeviceIdPinningVerifier.Accepts, hcert]
  -- both signature callbacks answer `Ok`, whatever they are given
  exact and_iff_left (Or.inl rfl)

/-- Some signature is valid under no key. -/
def TlsCrypto.Refuses (C : TlsCrypto) : Prop :=
  ∃ transcript signature, ∀ key, C.verify key transcript signature = false

/-- Every accepted handshake with a certificate is signed by the expected device exactly if none is
accepted: the first key of the certificate is not that device's. Acceptance itself proves no
possession of the private key. -/
theorem pinning_authenticates_iff (C : TlsCrypto) (hrefuses : C.Refuses)
    (verifier : DeviceIdPinningVerifier) (cert : List UInt8) :
    (∀ transcript dss, verifier.Accepts C cert transcript dss →
        verifier.SignedByExpected C transcript dss) ↔
      ∀ key, FirstSpki cert key → C.sha256 key.toList ≠ verifier.expectedId := by
  simp only [accepts_iff]
  constructor
  · intro hsigned key hkey hid
    obtain ⟨transcript, signature, hrefused⟩ := hrefuses
    obtain ⟨signer, -, hverify⟩ := hsigned transcript ⟨0, signature⟩ ⟨key, hkey, hid⟩
    exact Bool.false_ne_true ((hrefused signer).symm.trans hverify)
  · rintro hother transcript dss ⟨key, hkey, hid⟩
    exact absurd hid (hother key hkey)

/-- A transparent instance: a signature is the key and the message. -/
def TlsCrypto.plain : TlsCrypto where
  sha256 := Relay.plainSha256
  verify := fun key message signature => decide (signature = key.toList ++ message)

/-- The bytes around a public key in a certificate, copied from its owner. -/
def copiedCertificate : List UInt8 :=
  [0x30, 0x05] ++ oidPattern ++ [0x03, 0x21, 0x00] ++ (Bytes.fill 32 7).toList ++ [0x30, 0x05]

/-- With the certificate of another device nothing is accepted. -/
theorem pinning_authenticates_iff_other :
    let verifier := DeviceIdPinningVerifier.mk (Relay.plainSha256 (Bytes.fill 32 8).toList)
    TlsCrypto.plain.Refuses ∧ ∀ transcript dss,
      verifier.Accepts .plain copiedCertificate transcript dss →
        verifier.SignedByExpected .plain transcript dss := by
  have hrefuses : TlsCrypto.plain.Refuses := by
    refine ⟨[], [], fun key => decide_eq_false fun h => ?_⟩
    have hlength := congrArg List.length h
    rw [List.append_nil, Bytes.length_toList] at hlength
    exact absurd hlength (by decide)
  refine ⟨hrefuses, (pinning_authenticates_iff .plain hrefuses _ _).mpr fun key hkey => ?_⟩
  have hextract : extractEd25519SpkiRaw copiedCertificate = .ok (Bytes.fill 32 7) := by decide +kernel
  cases ((extract_eq_ok _ _).mpr hkey).symm.trans hextract
  decide +kernel

/-- A peer that copied the certificate and signed nothing is accepted. -/
theorem copied_certificate_accepted :
    (DeviceIdPinningVerifier.mk (Relay.plainSha256 (Bytes.fill 32 7).toList)).Accepts .plain
      copiedCertificate [1, 2, 3] ⟨0x0807, []⟩ ∧
    ¬ (DeviceIdPinningVerifier.mk (Relay.plainSha256 (Bytes.fill 32 7).toList)).SignedByExpected
      .plain [1, 2, 3] ⟨0x0807, []⟩ := by
  constructor
  · exact ⟨by decide +kernel, Or.inl rfl⟩
  · rintro ⟨key, -, hverify⟩
    have hempty := of_decide_eq_true hverify
    simp at hempty

end Blackwing.Transport
