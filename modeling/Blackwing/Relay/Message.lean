import Blackwing.Lib.Bytes
import Blackwing.Lib.Call

/-!
# Relay messages

The control messages of the relay (`bw-relay/src/protocol.rs`), its addresses and
candidates (`candidate.rs`), its errors, and the signed payloads. SHA-256 and
Ed25519 are parameters (`RelayCrypto`).

Four kinds of message are signed, each over the SHA-256 of a concatenation of
fixed-width fields without a kind tag: `registerPayload`, `pairPayload` (for both
`ConnectIntent` and `AcceptConnect`) and `establishPayload`.
-/

namespace Blackwing.Relay

/-! ## Addresses and candidates -/

/-- `IpAddr`. -/
inductive IpAddr where
  | v4 (octets : Bytes 4)
  | v6 (octets : Bytes 16)
deriving DecidableEq

/-- `SocketAddr`. -/
inductive SocketAddr where
  | v4 (ip : Bytes 4) (port : UInt16)
  | v6 (ip : Bytes 16) (port : UInt16) (flowinfo scopeId : UInt32)
deriving DecidableEq

/-- `SocketAddr::ip`. -/
def SocketAddr.ip : SocketAddr → IpAddr
  | .v4 ip _ => .v4 ip
  | .v6 ip _ _ _ => .v6 ip

/-- `CandidateType`. -/
inductive CandidateType where
  | host
  | serverReflexive
  | relay
deriving DecidableEq

/-- `Candidate`. -/
structure Candidate where
  candidateType : CandidateType
  addr : SocketAddr
  priority : UInt32
deriving DecidableEq

/-! ## Identities and signatures -/

/-- `DeviceId`, a SHA-256 digest. -/
abbrev DeviceId : Type := Bytes 32

/-- A 16-byte intent identifier. -/
abbrev IntentId : Type := Bytes 16

/-- A 32-byte relay token. -/
abbrev RelayToken : Type := Bytes 32

/-- SHA-256 and Ed25519. -/
structure RelayCrypto where
  sha256 : List UInt8 → Bytes 32
  /-- `VerifyKey::from_bytes` accepts these bytes. -/
  validKey : Bytes 32 → Bool
  /-- `VerifyKey::verify` of a payload and a signature. -/
  verify : Bytes 32 → Bytes 32 → Bytes 64 → Bool

/-- `VerifyKey`: key bytes that passed `from_bytes`. -/
structure VerifyKey (C : RelayCrypto) where
  bytes : Bytes 32
  valid : C.validKey bytes = true

variable (C : RelayCrypto)

/-- `VerifyKey::from_bytes`. -/
def VerifyKey.fromBytes (bytes : Bytes 32) : Option (VerifyKey C) :=
  if h : C.validKey bytes = true then some ⟨bytes, h⟩ else none

variable {C} in
/-- `VerifyKey::device_id`. -/
def VerifyKey.deviceId (k : VerifyKey C) : DeviceId := C.sha256 k.bytes.toList

variable {C} in
/-- `VerifyKey::verify`. -/
def VerifyKey.verify (k : VerifyKey C) (payload : Bytes 32) (signature : Bytes 64) : Bool :=
  C.verify k.bytes payload signature

/-- The bytes that `RegisterRequest` signs: `device_id || verify_key_bytes || timestamp`. -/
def registerPayload (deviceId : DeviceId) (verifyKeyBytes : Bytes 32) (timestamp : UInt64) :
    List UInt8 :=
  deviceId.toList ++ verifyKeyBytes.toList ++ (beBytes64 timestamp).toList

/-- The bytes that `ConnectIntent` and `AcceptConnect` sign:
`intent_id || own device_id || other device_id || timestamp`. -/
def pairPayload (intentId : List UInt8) (own other : DeviceId) (timestamp : UInt64) : List UInt8 :=
  intentId ++ own.toList ++ other.toList ++ (beBytes64 timestamp).toList

/-- The bytes that `RelayEstablishRequest` signs: `intent_id || device_id || timestamp`. -/
def establishPayload (intentId : List UInt8) (deviceId : DeviceId) (timestamp : UInt64) :
    List UInt8 :=
  intentId ++ deviceId.toList ++ (beBytes64 timestamp).toList

/-! ## Messages -/

/-- `PendingIntentInfo`. -/
structure PendingIntentInfo where
  sender : DeviceId
  intentId : List UInt8
deriving DecidableEq

/-- `RelayMessage`. -/
inductive RelayMessage where
  | registerRequest (deviceId : DeviceId) (verifyKeyBytes : Bytes 32) (timestamp : UInt64)
      (signatureBytes : List UInt8)
  | registerAck (relaySessionId : UInt64) (serverReflexiveAddr : Option SocketAddr)
  | discoverRequest (target : DeviceId)
  | discoverResponse (target : DeviceId) (isOnline : Bool)
  | errorResponse (reason : String)
  | connectIntent (initiatorDeviceId target : DeviceId) (intentId : List UInt8)
      (candidates : List Candidate) (timestamp : UInt64) (signatureBytes : List UInt8)
  | connectInvite (sender : DeviceId) (intentId : List UInt8)
  | acceptConnect (acceptorDeviceId : DeviceId) (intentId : List UInt8)
      (candidates : List Candidate) (timestamp : UInt64) (signatureBytes : List UInt8)
  | candidateExchange (intentId : List UInt8) (candidates : List Candidate) (relayToken : RelayToken)
  | getCandidates (requesterDeviceId : DeviceId) (intentId : List UInt8)
  | connectTimeout (target : DeviceId)
  | connectRejected (target : DeviceId) (reason : String)
  | relayEstablishRequest (intentId : List UInt8) (deviceId : DeviceId) (timestamp : UInt64)
      (signatureBytes : List UInt8)
  | relayEstablishAck (intentId : List UInt8)
  | pollPendingIntents (deviceId : DeviceId)
  | pendingIntents (intents : List PendingIntentInfo)
deriving DecidableEq

/-- `RelayError`. -/
inductive RelayError where
  | authFailed (reason : String)
  | notFound
  | internal (reason : String)
deriving DecidableEq

/-- What a call reads from outside: the clock, which may tick between two readings of one call,
and the operating system's random source, which may fail. -/
structure Env where
  /-- The `i`-th reading of `Clock::now_ms` in the call. -/
  clock : Nat → UInt64
  /-- What `getrandom` yields. -/
  random : Option (Bytes 32)

/-- An environment whose clock stands still. -/
def Env.at (now : UInt64) (random : Option (Bytes 32)) : Env := ⟨fun _ => now, random⟩

end Blackwing.Relay
