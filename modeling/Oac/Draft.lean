import Oac.Base64url
import Oac.Json.Compact
import Oac.Signing

/-! An envelope about to be sent: its content parts and the draft of `core/src/envelope.rs`, and its
signing with the device key in `core/src/keys.rs`. -/

namespace Oac

open JsonObject

def TextPart.new (text : String) : Option ContentPart :=
  if text = "" ∨ !isIjsonString text.toList then none
  else some (.text text [("type", .string "text"), ("text", .string text)])

namespace ContentPart

/-- A content part a harness asked to send, read from its JSON form. A text part is built from its
text alone; any other part keeps the object as given. -/
def fromJson (v : Json) : Option ContentPart := do
  let o ← v.asObject
  if v.containsNull || !(Json.parse (Utf8.encode v.toCompact)).toOption.isSome then none
  else
    let partType ← (get o "type").bind Json.asStr
    if partType = "text" then
      TextPart.new (← (get o "text").bind Json.asStr)
    else if isCoreType partType || isExtensionType partType then some (.other partType o)
    else none

def wire : ContentPart → JsonObject
  | text _ wire => wire
  | other _ wire => wire

end ContentPart

structure Nonce where
  octets : List UInt8
  length : octets.length = 16

def Nonce.text (nonce : Nonce) : String := Base64url.encode nonce.octets

structure Signature where
  octets : List UInt8
  length : octets.length = 64

def Signature.text (signature : Signature) : String := Base64url.encode signature.octets

/-- An envelope before it is signed; it has content, and a lifetime only in the allowed range. -/
structure EnvelopeDraft where
  version : Version
  id : Token
  fromSession : SessionId
  toSession : SessionId
  conversationId : Option Token
  replyTo : Option Token
  correlationId : Option Token
  createdAt : Timestamp
  ttlMs : Option Nat
  content : List ContentPart
  hasContent : content ≠ []
  ttlRange : ∀ t ∈ ttlMs, 1 ≤ t ∧ t ≤ maxTtlMs

namespace EnvelopeDraft

theorem noTtl : ∀ t ∈ (none : Option Nat), 1 ≤ t ∧ t ≤ maxTtlMs := nofun

def withParts (id : Token) (fromSession toSession : SessionId) (createdAt : Timestamp)
    (content : List ContentPart) : Option EnvelopeDraft :=
  if some_ : content ≠ [] then
    some { version := implementedVersion, id, fromSession, toSession, conversationId := none, replyTo := none,
           correlationId := none, createdAt, ttlMs := none, content, hasContent := some_,
           ttlRange := noTtl }
  else none

variable [Libraries] (draft : EnvelopeDraft)

def withVersion (version : Version) : EnvelopeDraft := { draft with version }

def withConversationId (v : Token) : EnvelopeDraft := { draft with conversationId := some v }

def withReplyTo (v : Token) : EnvelopeDraft := { draft with replyTo := some v }

def withCorrelationId (v : Token) : EnvelopeDraft := { draft with correlationId := some v }

def insertToken (o : JsonObject) (name : String) (v : Option Token) : JsonObject :=
  v.elim o fun v => insert o name (.string v.text)

def wire (security : JsonObject) : JsonObject :=
  let o := [("version", .string draft.version.text), ("id", .string draft.id.text),
    ("from", .string draft.fromSession.text), ("to", .string draft.toSession.text)]
  let o := insertToken o "conversation_id" draft.conversationId
  let o := insertToken o "reply_to" draft.replyTo
  let o := insertToken o "correlation_id" draft.correlationId
  let o := insert o "created_at" (.string draft.createdAt.text)
  let o := draft.ttlMs.elim o fun t => insert o "ttl_ms" (.number (.fromU64 t))
  let o := insert o "content" (.array (draft.content.map fun p => .object p.wire))
  insert o "security" (.object security)

def security (signer : SecurityPrincipal) (nonce : Nonce) : JsonObject :=
  [("principal", .string signer.principal.text), ("key_id", .string signer.keyId.text),
    ("nonce", .string nonce.text)]

def signingInput (signer : SecurityPrincipal) (nonce : Nonce) :
    Except CanonicalError (List UInt8) :=
  Oac.signingInput .envelope (draft.wire (security signer nonce))

def sealed (signer : SecurityPrincipal) (nonce : Nonce) (signature : Signature) : Envelope :=
  let sec := insert (security signer nonce) "signature" (.string signature.text)
  let wire := draft.wire sec
  { octets := Utf8.encode (Json.toCompact (.object wire))
    wire
    version := draft.version
    id := draft.id
    fromSession := draft.fromSession
    toSession := draft.toSession
    conversationId := draft.conversationId
    replyTo := draft.replyTo
    correlationId := draft.correlationId
    createdAt := draft.createdAt
    ttlMs := draft.ttlMs
    content := draft.content
    security := ⟨signer.principal.text, signer.keyId.text, nonce.text, signature.text⟩ }

end EnvelopeDraft

/-- A device with its private key, of which only the signatures it makes are known. -/
structure SigningDevice extends DeviceIdentity where
  sign : List UInt8 → Signature

namespace SigningDevice

def securityPrincipal (own : SigningDevice) : SecurityPrincipal := own.entry.securityPrincipal

/-- The signed envelope. The source expects that a draft always has a signing input and panics when
it has none; that is the absent result here. -/
def signEnvelope [Libraries] (own : SigningDevice) (draft : EnvelopeDraft) (nonce : Nonce) : Option Envelope :=
  match draft.signingInput own.securityPrincipal nonce with
  | .ok input => some (draft.sealed own.securityPrincipal nonce (own.sign input))
  | .error _ => none

def signObject [Libraries] (own : SigningDevice) (domain : SigningDomain) (o : JsonObject) :
    Except CanonicalError Signature :=
  (signingInput domain o).map own.sign

/-- The object `o` with its `security` member, signed under `domain`: the common part of what a
device issues. An absent result stands for a panic of the source. -/
def signed [Libraries] (own : SigningDevice) (domain : SigningDomain) (o : JsonObject) : Option JsonObject :=
  let sec := [("principal", .string own.entry.principal.text), ("key_id", .string own.entry.keyId.text)]
  let o := insert o "security" (.object sec)
  (own.signObject domain o).toOption.map fun signature =>
    insert o "security" (.object (insert sec "signature" (.string signature.text)))

end SigningDevice

end Oac
