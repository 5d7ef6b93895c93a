import Mathlib.Data.Finset.Basic
import Oac.Envelope
import Oac.Foundation.Table

/-! Grants, bindings, records, requests and decisions of `core/src/authorization.rs`. -/

namespace Oac

def replyPeriodMs : Nat := 86400000

def nanosPerMs : Int := 1000000

def periodEnd (t : Timestamp) : Int := t.unixNanos + replyPeriodMs * nanosPerMs

def withinReplyPeriod (createdAt now : Timestamp) : Bool :=
  decide (now.unixNanos < createdAt.unixNanos + replyPeriodMs * nanosPerMs)

structure WorkingDirectoryScope where
  text : String
  deriving DecidableEq

abbrev OwnSessions := Table SessionId WorkingDirectoryScope

inductive LocalSide where
  | session (id : SessionId)
  | scope (scope : WorkingDirectoryScope)
  | device
  deriving DecidableEq

def LocalSide.includes (side : LocalSide) (s : SessionId) (own : OwnSessions) : Bool :=
  match side with
  | session id => id == s
  | scope wanted => own.lookup s == some wanted
  | device => (own.lookup s).isSome

structure PeerSide where
  keyId : KeyId
  sessionId : Option SessionId
  deriving DecidableEq

def PeerSide.names (side : PeerSide) (key : KeyId) (session : SessionId) : Bool :=
  side.keyId == key && side.sessionId.all (· == session)

inductive Grant where
  | inbound (writer : PeerSide) (target : LocalSide)
  | outbound (writer : LocalSide) (target : PeerSide)
  deriving DecidableEq

def Grant.namesKey (grant : Grant) (key : KeyId) : Bool :=
  match grant with
  | inbound writer _ => writer.keyId == key
  | outbound _ target => target.keyId == key

/-- What the binding table holds for a session id. -/
inductive Binding where
  | key (key : KeyId)
  | conflict (keys : Finset KeyId)
  deriving DecidableEq

def Binding.names (binding : Binding) (k : KeyId) : Bool :=
  match binding with
  | key held => held == k
  | conflict keys => decide (k ∈ keys)

inductive BindOutcome where
  | bound
  | alreadyBound
  | boundToOther (key : KeyId)
  | underConflict
  deriving DecidableEq

structure SentRecord where
  id : Token
  fromSession : SessionId
  toSession : SessionId
  toKeyId : KeyId
  createdAt : Timestamp
  nonce : Option String
  ttlMs : Option Nat
  deriving DecidableEq

structure HandOffRecord where
  id : Token
  fromSession : SessionId
  toSession : SessionId
  createdAt : Timestamp
  conversationId : Option Token
  correlationId : Option Token
  keyId : Option KeyId
  deriving DecidableEq

def HandOffRecord.of (env : Envelope) : HandOffRecord where
  id := env.id
  fromSession := env.fromSession
  toSession := env.toSession
  createdAt := env.createdAt
  conversationId := env.conversationId
  correlationId := env.correlationId
  keyId := KeyId.parse env.security.keyId

inductive Kind where
  | deliver
  | discover
  | releasePresence
  | acceptPresence
  | relayPermission
  deriving DecidableEq

structure DeliverQuestion where
  verifyingKey : KeyId
  fromSession : SessionId
  toSession : SessionId
  replyTo : Option Token
  deriving DecidableEq

inductive Requester where
  | session (id : SessionId)
  | device (key : KeyId)
  deriving DecidableEq

inductive AuthorizationRequest where
  | deliver (question : DeliverQuestion)
  | discover (requester : Requester) (session : SessionId)
  | releasePresence (session : SessionId) (device : KeyId)
  | acceptPresence (signingKey : KeyId) (session : SessionId)
  | relayPermission (session : SessionId)
  deriving DecidableEq

def AuthorizationRequest.ofMessage (msg : ChannelMessage) : Option AuthorizationRequest :=
  msg.verifiedBy.map fun verifier =>
    .deliver ⟨verifier.keyId, msg.envelope.fromSession, msg.envelope.toSession, msg.envelope.replyTo⟩

def AuthorizationRequest.kind : AuthorizationRequest → Kind
  | deliver _ => .deliver
  | discover _ _ => .discover
  | releasePresence _ _ => .releasePresence
  | acceptPresence _ _ => .acceptPresence
  | relayPermission _ => .relayPermission

/-- The fact a permission rests on. -/
inductive Basis where
  | inboundGrant (grant : Grant)
  | outboundGrant (grant : Grant)
  | replyRight (record : SentRecord)
  | sent (record : SentRecord)
  | handOff (record : HandOffRecord)
  | relaySetting (session : SessionId)
  deriving DecidableEq

inductive Outcome where
  | permit (basis : Basis)
  | deny
  deriving DecidableEq

structure AuthorizationDecision where
  kind : Kind
  outcome : Outcome
  deriving DecidableEq

def AuthorizationDecision.permits (d : AuthorizationDecision) (kind : Kind) : Bool :=
  d.kind == kind && match d.outcome with
    | .permit _ => true
    | .deny => false

/-- An envelope verified under one key names a session bound to another. -/
structure BindingFinding where
  sessionId : SessionId
  boundTo : KeyId
  claimedBy : KeyId
  deriving DecidableEq

structure AuthorizationRefusal where
  state : DeliveryState
  error : ErrorCode
  requirement : String
  finding : Option BindingFinding
  deriving DecidableEq

/-- A message that passed security step 4, with the decision that permitted it. -/
structure AuthorizedMessage where
  message : ChannelMessage
  decision : AuthorizationDecision

end Oac
