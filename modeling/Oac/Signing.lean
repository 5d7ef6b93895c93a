import Oac.Canonical
import Oac.Replay.Store

/-! The trusted key set (`core/src/trust.rs`), signature verification (`core/src/signing.rs`) and
registration records (`core/src/registration.rs`). -/

namespace Oac

open JsonObject

structure TrustedKey where
  principal : Token
  keyId : KeyId
  publicKey : PublicKey
  deriving DecidableEq

def TrustedKey.securityPrincipal (entry : TrustedKey) : SecurityPrincipal :=
  ⟨entry.principal, entry.keyId⟩

abbrev TrustedKeySet := Table KeyId TrustedKey

inductive VerifyError where
  | malformedSecurity
  | unknownKey
  | signatureInvalid
  deriving DecidableEq

def securityMembersOf : SigningDomain → List String
  | .envelope => ["principal", "key_id", "nonce", "signature"]
  | .registration | .receipt | .presence | .agreement => ["principal", "key_id", "signature"]

/-- The order of the Ed25519 base point, little-endian. -/
def ed25519L : List UInt8 :=
  [0xed, 0xd3, 0xf5, 0x5c, 0x1a, 0x63, 0x12, 0x58, 0xd6, 0x9c, 0xf7, 0xa2, 0xde, 0xf9, 0xde, 0x14,
   0, 0, 0, 0, 0, 0, 0, 0, 0, 0, 0, 0, 0, 0, 0, 0x10]

/-- The comparison of two little-endian numbers, both given from the most significant octet. -/
def belowFrom : List (UInt8 × UInt8) → Bool
  | [] => false
  | (a, b) :: rest => if a ≠ b then decide (a < b) else belowFrom rest

def scalarIsReduced (s : List UInt8) : Bool := belowFrom (s.zip ed25519L).reverse

def TrustedKeySet.resolve (keys : TrustedKeySet) (principal keyId : String) : Option TrustedKey := do
  let principal ← Token.parse principal
  let keyId ← KeyId.parse keyId
  (keys.lookup keyId).filter (·.principal == principal)

variable [Libraries]

def TrustedKey.new (principal : Token) (publicKey : PublicKey) : TrustedKey :=
  ⟨principal, publicKey.keyId, publicKey⟩

def TrustedKeySet.addPairedKey (keys : TrustedKeySet) (principal : Token) (publicKey : PublicKey) :
    Except Token TrustedKeySet :=
  let entry := TrustedKey.new principal publicKey
  match keys.lookup entry.keyId with
  | some existing => .error existing.principal
  | none => .ok (keys.insert entry.keyId entry)

def verifyWithRequirement (keys : TrustedKeySet) (domain : SigningDomain) (obj : JsonObject) :
    Except (VerifyError × String) TrustedKey := do
  let malformed := (VerifyError.malformedSecurity, "SC-ENV-070")
  let invalid (requirement : String) := (VerifyError.signatureInvalid, requirement)
  let sec ← okOr ((get obj "security").bind Json.asObject) malformed
  let members := securityMembersOf domain
  if sec.length ≠ members.length ∨ members.any (fun m => !contains sec m) then
    .error malformed
  let member (m : String) := okOr ((get sec m).bind Json.asStr) malformed
  let principal ← member "principal"
  let keyId ← member "key_id"
  let signature ← member "signature"
  let nonce ← match domain with
    | .envelope => (member "nonce").map some
    | _ => .ok none
  let entry ← okOr (keys.resolve principal keyId) (.unknownKey, "SEC-KEY-030")
  if nonce.any (fun n => (Base64url.decodeExact 16 n).isNone) then .error (invalid "SEC-SIG-003")
  let octets ← okOr (Base64url.decodeExact 64 signature) (invalid "SEC-SIG-004")
  let input ← (signingInput domain obj).mapError fun _ => invalid "SEC-SIG-013"
  if !scalarIsReduced (octets.drop 32) then .error (invalid "SEC-SIG-021")
  if !Libraries.verifyStrict entry.publicKey input octets then .error (invalid "SEC-SIG-024")
  .ok entry

def verifySigned (keys : TrustedKeySet) (domain : SigningDomain) (obj : JsonObject) :
    Except VerifyError TrustedKey :=
  (verifyWithRequirement keys domain obj).mapError Prod.fst

/-- Steps 1 and 2 of the security stage. -/
def authenticate (msg : ChannelMessage) (keys : TrustedKeySet) : Except SecurityRejection ChannelMessage :=
  match verifyWithRequirement keys .envelope msg.envelope.wire with
  | .ok entry => .ok (msg.verified entry.securityPrincipal)
  | .error (.unknownKey, requirement) => .error ⟨.rejected, .unknownKey, requirement⟩
  | .error (.signatureInvalid, requirement) => .error ⟨.rejected, .signatureInvalid, requirement⟩
  | .error (.malformedSecurity, requirement) => .error ⟨.rejected, .malformedEnvelope, requirement⟩

/-- The identity of this device; its private key is used for signing only. -/
structure DeviceIdentity where
  entry : TrustedKey

def DeviceIdentity.new (publicKey : PublicKey) (principal : Token) : DeviceIdentity :=
  ⟨TrustedKey.new principal publicKey⟩

def DeviceIdentity.keyId (own : DeviceIdentity) : KeyId := own.entry.keyId

def TrustedKeySet.ofDevice (own : DeviceIdentity) : TrustedKeySet :=
  AList.insert own.keyId own.entry ∅

structure RegistrationRecord where
  sessionId : SessionId
  harnessLabel : Token
  registeredAt : Timestamp
  wire : JsonObject

namespace RegistrationRecord

def workingDirectory (record : RegistrationRecord) : String :=
  ((get record.wire "working_directory").bind Json.asStr).getD ""

def nativeId (record : RegistrationRecord) : String :=
  ((get record.wire "native_id").bind Json.asStr).getD ""

def bindingUsable (record : RegistrationRecord) (own : DeviceIdentity) : Bool :=
  match verifySigned (TrustedKeySet.ofDevice own) .registration record.wire with
  | .ok entry => entry.keyId == own.keyId
  | .error _ => false

end RegistrationRecord

end Oac
