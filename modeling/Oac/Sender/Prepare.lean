import Oac.Capabilities
import Oac.Reply

/-! The send decision and the send stage of `core/src/sender.rs`. A result that is absent stands for
a panic of the source; the only one is where a draft is signed. -/

namespace Oac

/-- A harness's request to send, without the attachment it came in on. -/
structure SendRequest where
  toSession : SessionId
  content : List ContentPart
  requestedTarget : Option String
  conversationId : Option String
  correlationId : Option String

inductive Correlation where
  | correlated
  | uncorrelated
  deriving DecidableEq

abbrev PresenceAnswer := SessionId → SessionId → Except ErrorCode SessionCapabilities

/-- The send decision: the first of the six refusals that applies. The envelope's size is asked for,
and with it what was built to measure it, once the first five steps have passed. -/
def checkSend {β : Type} (requester : Option SessionId) (toSession : SessionId) (presence : PresenceAnswer)
    (implemented : List Implemented) (partTypes : List String) (envelopeOctets : Version → Option (Nat × β)) :
    Option (Except ErrorCode (Agreed × β)) :=
  match requester with
  | none => some (.error .unauthorized)
  | some requester =>
    match presence requester toSession with
    | .error code => some (.error code)
    | .ok declaration =>
      match declaration.agree implemented with
      | none => some (.error .unsupportedVersion)
      | some agreed =>
        if !agreed.entry.activeInbound then some (.error .unsupportedCapability)
        else if !partTypes.all agreed.entry.acceptsPartType then some (.error .unsupportedContentType)
        else
          match envelopeOctets agreed.revision with
          | none => none
          | some (octets, built) =>
            if agreed.entry.envelopeOctets < octets then some (.error .envelopeTooLarge)
            else some (.ok (agreed, built))

structure PreparedSend where
  envelope : Envelope
  agreed : Agreed
  correlation : Option Correlation

def tokenOf (v : Option String) : Except ErrorCode (Option Token) :=
  match v with
  | none => .ok none
  | some s => (okOr (Token.parse s) .invalidRequest).map some

def SendRequest.headers (request : SendRequest) (reply : ReplyHeaders) :
    Except ErrorCode (ReplyHeaders × Option Correlation) :=
  if request.requestedTarget.isSome then
    .ok (reply, some (if reply.correlated then .correlated else .uncorrelated))
  else do
    let conversationId ← tokenOf request.conversationId
    let correlationId ← tokenOf request.correlationId
    .ok (⟨none, conversationId, correlationId⟩, none)

variable [Libraries]

/-- The envelope built and signed under `version`, with its size; the largest size when there is no
draft. -/
def SendRequest.build (request : SendRequest) (headers : ReplyHeaders) (fromSession : SessionId)
    (own : SigningDevice) (nonce : Nonce) (id : Token) (createdAt : Timestamp) (version : Version) :
    Option (Nat × Option Envelope) :=
  match EnvelopeDraft.withParts id fromSession request.toSession createdAt request.content with
  | none => some (2 ^ 64 - 1, none)
  | some draft => (own.signEnvelope (headers.apply (draft.withVersion version)) nonce).map fun env =>
    (env.octets.length, some env)

/-- The send stage: attribution first, then the form of the request, then the send decision on the
envelope itself. `nonce` is the one the signing draws. -/
def prepareSend (requester : Option SessionId) (request : SendRequest) (presence : PresenceAnswer)
    (implemented : List Implemented) (reply : ReplyHeaders) (own : SigningDevice) (nonce : Nonce) (id : Token)
    (createdAt : Timestamp) : Option (Except ErrorCode PreparedSend) :=
  match requester with
  | none => some (.error .unauthorized)
  | some fromSession =>
    if request.content.isEmpty then some (.error .invalidRequest)
    else
      match request.headers reply with
      | .error code => some (.error code)
      | .ok (headers, correlation) =>
        match checkSend (some fromSession) request.toSession presence implemented
            (request.content.map ContentPart.partType)
            (request.build headers fromSession own nonce id createdAt) with
        | none => none
        | some (.error code) => some (.error code)
        | some (.ok (_, none)) => some (.error .internalError)
        | some (.ok (agreed, some envelope)) => some (.ok ⟨envelope, agreed, correlation⟩)

end Oac
