import Oac.Delivery
import Oac.Ids
import Oac.Json.Parse

/-! The message envelope of `core/src/envelope.rs` and envelope-stage validation of received
octets. Building an envelope to send is not part of this module. -/

namespace Oac

open Json

def maxTtlMs : Nat := 86400000

def securityMembers : List String := ["principal", "key_id", "nonce", "signature"]

/-- The principal and key id of one entry of the trusted key set. -/
structure SecurityPrincipal where
  principal : Token
  keyId : KeyId
  deriving DecidableEq

/-- The top-level `security` member: claims, until the security stage has verified them. -/
structure SecurityMetadata where
  principal : String
  keyId : String
  nonce : String
  signature : String
  deriving DecidableEq

inductive ContentPart where
  | text (text : String) (wire : JsonObject)
  | other (partType : String) (wire : JsonObject)

def ContentPart.partType : ContentPart → String
  | text _ _ => "text"
  | other partType _ => partType

structure EnvelopeLimits where
  supportedMajors : List Nat
  maxEnvelopeOctets : Nat
  partTypes : List String
  deriving DecidableEq

structure EnvelopeRejection where
  state : DeliveryState
  error : ErrorCode
  requirement : String
  deriving DecidableEq

def rejected (error : ErrorCode) (requirement : String) : EnvelopeRejection :=
  ⟨.rejected, error, requirement⟩

structure Envelope where
  octets : List UInt8
  wire : JsonObject
  version : Version
  id : Token
  fromSession : SessionId
  toSession : SessionId
  conversationId : Option Token
  replyTo : Option Token
  correlationId : Option Token
  createdAt : Timestamp
  ttlMs : Option Nat
  content : List ContentPart
  security : SecurityMetadata

namespace Envelope

def expiryUnixNanos (env : Envelope) : Option Int :=
  env.ttlMs.map fun t => env.createdAt.unixNanos + t * 1000000

def isExpiredAt (env : Envelope) (now : Timestamp) : Bool :=
  env.expiryUnixNanos.any fun e => decide (e ≤ now.unixNanos)

end Envelope

/-- One envelope inside an implementation, with the local member `verified_by`. -/
structure ChannelMessage where
  envelope : Envelope
  verifiedBy : Option SecurityPrincipal

def ChannelMessage.verified (msg : ChannelMessage) (entry : SecurityPrincipal) : ChannelMessage :=
  { msg with verifiedBy := some entry }

section Structure

def malformed (requirement : String) : EnvelopeRejection := rejected .malformedEnvelope requirement

/-- `Option::ok_or`. -/
def okOr {α ε : Type} (value : Option α) (error : ε) : Except ε α :=
  match value with
  | some a => .ok a
  | none => .error error

def tokenMember (o : JsonObject) (name : String) : Except EnvelopeRejection (Option Token) :=
  match o.get name with
  | none => .ok none
  | some v => (okOr (v.asStr.bind Token.parse) (malformed "SC-ENV-010")).map some

def requiredMembers : List (String × String) :=
  [("id", "SC-ENV-022"), ("from", "SC-ENV-025"), ("to", "SC-ENV-026"),
    ("created_at", "SC-ENV-040"), ("content", "SC-ENV-060"), ("security", "SC-ENV-070")]

def checkRequired (o : JsonObject) : Except EnvelopeRejection Unit :=
  match requiredMembers.find? fun m => !o.contains m.1 with
  | some m => .error (malformed m.2)
  | none => .ok ()

def ttlMember (o : JsonObject) : Except EnvelopeRejection (Option Nat) :=
  match o.get "ttl_ms" with
  | none => .ok none
  | some t => (okOr (t.asNumber.bind (·.plainIntegerIn 1 maxTtlMs)) (malformed "SC-ENV-050")).map some

def contentPart (part : Json) : Except EnvelopeRejection ContentPart := do
  let p ← okOr part.asObject (malformed "SC-ENV-061")
  let partType ← okOr ((p.get "type").bind asStr) (malformed "SC-ENV-061")
  if partType = "text" then
    let text ← okOr (((p.get "text").bind asStr).filter (· ≠ "")) (malformed "SC-ENV-062")
    return .text text p
  else return .other partType p

def securityMember (o : JsonObject) : Except EnvelopeRejection SecurityMetadata := do
  let sec ← okOr ((o.get "security").bind asObject) (malformed "SC-ENV-070")
  if securityMembers.any fun m => !sec.contains m then .error (malformed "SC-ENV-071")
  else
    let s := fun m => okOr ((sec.get m).bind asStr) (malformed "SC-ENV-072")
    let security : SecurityMetadata := ⟨← s "principal", ← s "key_id", ← s "nonce", ← s "signature"⟩
    if sec.names.any fun n => !securityMembers.contains n then .error (malformed "SC-ENV-073")
    else return security

def envelopeStructure (octets : List UInt8) (o : JsonObject) (version : Version) :
    Except EnvelopeRejection Envelope := do
  if o.any fun m => m.2.containsNull then .error (malformed "SC-ENV-003")
  else
    checkRequired o
    let id ← okOr (← tokenMember o "id") (malformed "SC-ENV-022")
    let fromToken ← okOr (← tokenMember o "from") (malformed "SC-ENV-025")
    let toToken ← okOr (← tokenMember o "to") (malformed "SC-ENV-026")
    let conversationId ← tokenMember o "conversation_id"
    let replyTo ← tokenMember o "reply_to"
    let correlationId ← tokenMember o "correlation_id"
    let fromSession ← okOr (SessionId.parse fromToken.text) (malformed "SC-ID-001")
    let toSession ← okOr (SessionId.parse toToken.text) (malformed "SC-ID-001")
    let createdAt ← okOr (((o.get "created_at").bind asStr).bind Timestamp.parse) (malformed "SC-ENV-041")
    let ttlMs ← ttlMember o
    let parts ← okOr (((o.get "content").bind asArray).filter (!·.isEmpty)) (malformed "SC-ENV-060")
    let content ← parts.mapM contentPart
    let security ← securityMember o
    return { octets, wire := o, version, id, fromSession, toSession, conversationId, replyTo,
             correlationId, createdAt, ttlMs, content, security }

end Structure

/-- Envelope-stage validation, in the order size, encoding and version, major version, structure,
part types, expiry. -/
def receiveEnvelope (octets : List UInt8) (limits : EnvelopeLimits) (now : Timestamp) :
    Except EnvelopeRejection ChannelMessage := do
  if octets.length > limits.maxEnvelopeOctets then .error (rejected .envelopeTooLarge "SC-RCP-076")
  else
    let v ← (parse octets).mapError fun _ => malformed "SC-ENV-002"
    let o ← okOr v.asObject (malformed "SC-ENV-001")
    let version ← okOr (((o.get "version").bind asStr).bind Version.parse) (malformed "SC-ENV-020")
    if !limits.supportedMajors.contains version.major then
      .error (rejected .unsupportedVersion "SC-VER-001")
    else
      let envelope ← envelopeStructure octets o version
      if envelope.content.any fun part =>
          part.partType != "text" && !limits.partTypes.contains part.partType then
        .error (rejected .unsupportedContentType "SC-ENV-065")
      else if envelope.isExpiredAt now then .error ⟨.expired, .expired, "SC-ENV-100"⟩
      else return ⟨envelope, none⟩

end Oac
