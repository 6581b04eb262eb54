import Blackwing.Relay.Message

/-!
# The relay client

`bw-relay/src/relay_client.rs`: the requests of `RelayControlClient`. The four
signed calls read the system clock for their timestamp and sign the SHA-256 of
their payload. Of what the client makes of the responses, only the poll for intents is
modelled, beside the pass of the relay that answers it.

* `ClientCall.payload`: what a call signs.
* `RelayControlClient.request`: what it sends.
* `RelayCrypto.plain`: a transparent instance of SHA-256 and Ed25519, for evaluating
  the relay on concrete inputs.
-/

namespace Blackwing.Relay

/-- `SigningKey`: its verify key and its signer. -/
structure SigningKey (C : RelayCrypto) where
  verifyKey : VerifyKey C
  sign : Bytes 32 → Bytes 64

/-- `RelayControlClient`, without its socket. -/
structure RelayControlClient (C : RelayCrypto) where
  signingKey : SigningKey C

/-- A call on a `RelayControlClient`, with the reading of its clock. -/
inductive ClientCall where
  | register (timestamp : UInt64)
  | connectIntent (target : DeviceId) (intentId : IntentId) (candidates : List Candidate)
      (timestamp : UInt64)
  | acceptConnect (intentId : IntentId) (initiator : DeviceId) (candidates : List Candidate)
      (timestamp : UInt64)
  | getCandidates (intentId : IntentId)
  | pollPendingIntents
  | establishRelay (intentId : IntentId) (timestamp : UInt64)
deriving DecidableEq

namespace RelayControlClient

variable {C : RelayCrypto} (c : RelayControlClient C)

/-- `RelayControlClient::device_id`. -/
def deviceId : DeviceId := c.signingKey.verifyKey.deviceId

/-- The bytes of the client's public key. -/
def verifyKeyBytes : Bytes 32 := c.signingKey.verifyKey.bytes

/-- The bytes that a call signs the SHA-256 of, if it signs. -/
def payload : ClientCall → Option (List UInt8)
  | .register timestamp => some (registerPayload c.deviceId c.verifyKeyBytes timestamp)
  | .connectIntent target intentId _ timestamp =>
    some (pairPayload intentId.toList c.deviceId target timestamp)
  | .acceptConnect intentId initiator _ timestamp =>
    some (pairPayload intentId.toList c.deviceId initiator timestamp)
  | .getCandidates _ => none
  | .pollPendingIntents => none
  | .establishRelay intentId timestamp =>
    some (establishPayload intentId.toList c.deviceId timestamp)

/-- The signature of a payload, as it is sent. -/
def signatureBytes (payload : List UInt8) : List UInt8 :=
  (c.signingKey.sign (C.sha256 payload)).toList

/-- The message that a call sends: the bodies of `register`, `connect_intent`, `accept_connect`,
`get_candidates`, `poll_pending_intents` and `establish_relay`. -/
def request : ClientCall → RelayMessage
  | .register timestamp =>
    .registerRequest c.deviceId c.verifyKeyBytes timestamp
      (c.signatureBytes (registerPayload c.deviceId c.verifyKeyBytes timestamp))
  | .connectIntent target intentId candidates timestamp =>
    .connectIntent c.deviceId target intentId.toList candidates timestamp
      (c.signatureBytes (pairPayload intentId.toList c.deviceId target timestamp))
  | .acceptConnect intentId initiator candidates timestamp =>
    .acceptConnect c.deviceId intentId.toList candidates timestamp
      (c.signatureBytes (pairPayload intentId.toList c.deviceId initiator timestamp))
  | .getCandidates intentId => .getCandidates c.deviceId intentId.toList
  | .pollPendingIntents => .pollPendingIntents c.deviceId
  | .establishRelay intentId timestamp =>
    .relayEstablishRequest intentId.toList c.deviceId timestamp
      (c.signatureBytes (establishPayload intentId.toList c.deviceId timestamp))

end RelayControlClient

/-! ## A transparent instance -/

/-- A polynomial hash of a byte string and its length. -/
def plainSha256 (bytes : List UInt8) : Bytes 32 :=
  ⟨toBE 32 ((fromBE bytes * 256 + bytes.length) % (2 ^ 256 - 189)), length_toBE 32 _⟩

/-- Every key is valid, and a signature is the key and the digest. -/
def RelayCrypto.plain : RelayCrypto where
  sha256 := plainSha256
  validKey := fun _ => true
  verify := fun key digest signature => decide (signature.toList = key.toList ++ digest.toList)

/-- A client whose key bytes are all `b`. -/
def plainClient (b : UInt8) : RelayControlClient .plain where
  signingKey :=
    { verifyKey := ⟨Bytes.fill 32 b, rfl⟩
      sign := fun digest => ⟨(Bytes.fill 32 b).toList ++ digest.toList, by simp⟩ }

/-- The client with the `i`-th key. -/
def numberedClient (i : Nat) : RelayControlClient .plain where
  signingKey :=
    { verifyKey := ⟨Bytes.ofNat 32 i, rfl⟩
      sign := fun digest => ⟨(Bytes.ofNat 32 i).toList ++ digest.toList, by simp⟩ }

theorem numberedClient_deviceId_injective {i j : Nat} (hi : i < 2 ^ 32) (hj : j < 2 ^ 32)
    (h : (numberedClient i).deviceId = (numberedClient j).deviceId) : i = j := by
  have hdigest : ∀ k < 2 ^ 32, (numberedClient k).deviceId = Bytes.ofNat 32 (k * 256 + 32) := by
    intro k hk
    have hkey : fromBE (toBE 32 k) = k := by
      rw [fromBE_toBE, Nat.mod_eq_of_lt (Nat.lt_trans hk (by decide))]
    refine Bytes.toList_injective (congrArg (toBE 32) ?_)
    show (fromBE (toBE 32 k) * 256 + (toBE 32 k).length) % _ = _
    rw [hkey, length_toBE, Nat.mod_eq_of_lt (by omega)]
  rw [hdigest i hi, hdigest j hj] at h
  have hnum := Bytes.ofNat_injective (by omega) (by omega) h
  omega

end Blackwing.Relay
