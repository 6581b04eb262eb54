import Blackwing.Transport.Cert

/-!
# The subject key and the scan for it

`extract_ed25519_spki_raw` does not parse the certificate. It takes the bytes behind
the first Ed25519 identifier that is followed by the head of a bit string of 33 bytes,
wherever it stands. `SubjectPublicKeyInfo` comes after the serial number, the names
and the validity, and their content is chosen by whoever made the certificate.

* `Certificate.der`: the certificate as its nested DER elements, and
  `Certificate.der_eq`, where the subject key stands in it.
* `extract_subject_key_iff`: the scan returns the subject key exactly if the first
  such head before it, if there is one, is itself followed by the same key.
* `name_hides_subject_key`: a certificate whose issuer name holds another key.
-/

namespace Blackwing.Transport

/-- A certificate with this subject key, cut at its `SubjectPublicKeyInfo`: the algorithm's
identifier, the head of the bit string and the key, between the other bytes. -/
def certificateBytes (before : List UInt8) (subjectKey : Bytes 32) (after : List UInt8) :
    List UInt8 :=
  before ++ (oidPattern ++ ([0x03, 0x21] ++ ([0x00] ++ subjectKey.toList)) ++ after)

/-- The first identifier that is followed by the head of a bit string of 33 bytes stands at `j`. -/
def FirstHead (der : List UInt8) (j : Nat) : Prop :=
  OccursAt (oidPattern ++ [0x03, 0x21]) der j ∧
    ∀ i < j, ¬ OccursAt (oidPattern ++ [0x03, 0x21]) der i

namespace SubjectKeyLemmas

variable {der : List UInt8} {key : Bytes 32}

/-- The scan reads what follows the first head. -/
theorem firstSpki_iff_of_firstHead {j : Nat} (hj : FirstHead der j) :
    FirstSpki der key ↔ OccursAt ([0x00] ++ key.toList) der (j + 7) := by
  constructor
  · rintro ⟨p, hocc, hmin⟩
    rw [← List.append_assoc] at hocc
    obtain ⟨hhead, hkey⟩ := occursAt_append.mp hocc
    rcases Nat.lt_trichotomy p j with hlt | rfl | hgt
    · exact absurd hhead (hj.2 p hlt)
    · exact hkey
    · exact absurd hj.1 (hmin j hgt)
  · intro hkey
    refine ⟨j, ?_, hj.2⟩
    rw [← List.append_assoc]
    exact occursAt_append.mpr ⟨hj.1, hkey⟩

theorem occursAt_subject_key (before after : List UInt8) (key : Bytes 32) :
    OccursAt (oidPattern ++ ([0x03, 0x21] ++ ([0x00] ++ key.toList)))
      (certificateBytes before key after) before.length := by
  unfold OccursAt certificateBytes
  rw [List.drop_left]
  exact List.prefix_append _ _

theorem exists_firstHead_le (before after : List UInt8) (key : Bytes 32) :
    ∃ j ≤ before.length, FirstHead (certificateBytes before key after) j := by
  have hhead : OccursAt (oidPattern ++ [0x03, 0x21]) (certificateBytes before key after)
      before.length := by
    have hocc := occursAt_subject_key before after key
    rw [← List.append_assoc] at hocc
    exact (occursAt_append.mp hocc).1
  have hsome : ∃ j, OccursAt (oidPattern ++ [0x03, 0x21]) (certificateBytes before key after) j :=
    ⟨_, hhead⟩
  exact ⟨Nat.find hsome, Nat.find_min' hsome hhead, Nat.find_spec hsome,
    fun i hi => Nat.find_min hsome hi⟩

end SubjectKeyLemmas

open SubjectKeyLemmas

/-- Whatever stands before and after the subject key, the scan returns the subject key if and only
if the first head that stands before it, if there is one, is followed by that key as well. -/
theorem extract_subject_key_iff (before after : List UInt8) (subjectKey : Bytes 32) :
    extractEd25519SpkiRaw (certificateBytes before subjectKey after) = .ok subjectKey ↔
      ∀ j < before.length, FirstHead (certificateBytes before subjectKey after) j →
        OccursAt ([0x00] ++ subjectKey.toList) (certificateBytes before subjectKey after) (j + 7) := by
  rw [extract_eq_ok]
  constructor
  · intro hfirst j _ hj
    exact (firstSpki_iff_of_firstHead hj).mp hfirst
  · intro hbefore
    obtain ⟨j, hle, hj⟩ := exists_firstHead_le before after subjectKey
    rw [firstSpki_iff_of_firstHead hj]
    rcases Nat.lt_or_eq_of_le hle with hlt | rfl
    · exact hbefore j hlt hj
    · -- the first head is the one of the subject key
      have hocc := occursAt_subject_key before after subjectKey
      rw [← List.append_assoc] at hocc
      exact (occursAt_append.mp hocc).2

/-! ## Certificates -/

/-- The length of a DER element, for contents of less than 64 KiB. -/
def derLength (n : Nat) : List UInt8 :=
  if n < 128 then [UInt8.ofNat n]
  else if n < 256 then [0x81, UInt8.ofNat n]
  else [0x82, UInt8.ofNat (n / 256), UInt8.ofNat n]

/-- A DER element. -/
def derElement (tag : UInt8) (content : List UInt8) : List UInt8 :=
  tag :: derLength content.length ++ content

/-- The fields of an Ed25519 certificate; the names, the validity and the extensions as the
elements they are. -/
structure Certificate where
  serialNumber : List UInt8
  issuer : List UInt8
  validity : List UInt8
  subject : List UInt8
  subjectKey : Bytes 32
  extensions : List UInt8
  signature : Bytes 64

namespace Certificate

variable (c : Certificate)

/-- `AlgorithmIdentifier` of Ed25519. -/
def algorithm : List UInt8 := derElement 0x30 oidPattern

/-- `SubjectPublicKeyInfo`. -/
def subjectPublicKeyInfo : List UInt8 :=
  derElement 0x30 (algorithm ++ derElement 0x03 ([0x00] ++ c.subjectKey.toList))

/-- The fields before `SubjectPublicKeyInfo`. -/
def fieldsBefore : List UInt8 :=
  derElement 0xa0 (derElement 0x02 [2]) ++ derElement 0x02 c.serialNumber ++ algorithm ++
    c.issuer ++ c.validity ++ c.subject

/-- `TBSCertificate`. -/
def tbsCertificate : List UInt8 :=
  derElement 0x30 (c.fieldsBefore ++ (c.subjectPublicKeyInfo ++ c.extensions))

/-- The certificate. -/
def der : List UInt8 :=
  derElement 0x30 (c.tbsCertificate ++ (algorithm ++ derElement 0x03 ([0x00] ++ c.signature.toList)))

/-- The bytes before the subject key's algorithm identifier. -/
def beforeKey : List UInt8 :=
  0x30 :: derLength
      (c.tbsCertificate ++ (algorithm ++ derElement 0x03 ([0x00] ++ c.signature.toList))).length ++
    (0x30 :: derLength (c.fieldsBefore ++ (c.subjectPublicKeyInfo ++ c.extensions)).length ++
      (c.fieldsBefore ++ [0x30, 0x2a, 0x30, 0x05]))

/-- The bytes after the subject key. -/
def afterKey : List UInt8 :=
  c.extensions ++ (algorithm ++ derElement 0x03 ([0x00] ++ c.signature.toList))

theorem subjectPublicKeyInfo_eq :
    c.subjectPublicKeyInfo = [0x30, 0x2a, 0x30, 0x05] ++
      (oidPattern ++ ([0x03, 0x21] ++ ([0x00] ++ c.subjectKey.toList))) := by
  have hbits : derElement 0x03 ([0x00] ++ c.subjectKey.toList) =
      [0x03, 0x21] ++ ([0x00] ++ c.subjectKey.toList) := by
    rw [derElement, List.length_append, Bytes.length_toList]
    rfl
  have halgorithm : algorithm = [0x30, 0x05] ++ oidPattern := rfl
  rw [subjectPublicKeyInfo, hbits, halgorithm, derElement]
  simp only [List.length_append, Bytes.length_toList]
  rfl

/-- In every certificate the subject key stands between the other fields as the scan expects it. -/
theorem der_eq : c.der = certificateBytes c.beforeKey c.subjectKey c.afterKey := by
  unfold der certificateBytes beforeKey afterKey
  generalize algorithm ++ derElement 0x03 ([0x00] ++ c.signature.toList) = signed
  rw [derElement]
  generalize derLength (c.tbsCertificate ++ signed).length = total
  rw [tbsCertificate, derElement]
  generalize derLength (c.fieldsBefore ++ (c.subjectPublicKeyInfo ++ c.extensions)).length = inner
  rw [subjectPublicKeyInfo_eq]
  simp only [List.append_assoc, List.cons_append]

end Certificate

/-- A certificate for the key `07..07` whose issuer has a common name of 40 bytes: the identifier,
the head of a bit string, and the key `09..09`. -/
def forgedName : Certificate where
  serialNumber := [1]
  issuer := derElement 0x30 (derElement 0x31 (derElement 0x30
    (derElement 0x06 [0x55, 0x04, 0x03] ++
      derElement 0x0c (oidPattern ++ [0x03, 0x21, 0x00] ++ (Bytes.fill 32 9).toList))))
  validity := derElement 0x30
    (derElement 0x17 (utf8 "260101000000Z") ++ derElement 0x17 (utf8 "270101000000Z"))
  subject := derElement 0x30 []
  subjectKey := Bytes.fill 32 7
  extensions := []
  signature := Bytes.fill 64 5

/-- The key that the scan returns is the one in the issuer's name. -/
theorem name_hides_subject_key :
    extractEd25519SpkiRaw
        (certificateBytes forgedName.beforeKey (Bytes.fill 32 7) forgedName.afterKey) =
      .ok (Bytes.fill 32 9) ∧
    forgedName.der = certificateBytes forgedName.beforeKey (Bytes.fill 32 7) forgedName.afterKey :=
  ⟨by decide +kernel, forgedName.der_eq⟩

end Blackwing.Transport
