import Oac.Authorization.Engine
import Oac.Presence

/-! Authenticated presence records of `core/src/presence_auth.rs`: the checks a consumer makes
before the registry's own rules, and what a record does to the binding table. The clock of the
engine is read once for freshness and once more for the relation test. -/

namespace Oac

open JsonObject

/-- A presence record, the device it is issued to and the issuer's signature over both. -/
structure AuthenticatedPresenceRecord where
  wire : JsonObject

def AuthenticatedPresenceRecord.fromJson (v : Json) : Option AuthenticatedPresenceRecord :=
  v.asObject.map fun o => ⟨o⟩

/-- Why a consumer discarded an authenticated presence record. -/
inductive PresenceAuthDiscard where
  | malformed
  | signature
  | audience
  | stale
  | underConflict
  | boundElsewhere
  | unrelated
  | withdrawalUnbound
  | registry
  deriving DecidableEq

structure PresenceAuthOutcome where
  result : Except PresenceAuthDiscard PresenceAcceptance
  /-- A claim on a session bound to another key was seen. -/
  finding : Bool
  deriving DecidableEq

namespace PresenceAuthOutcome

def discard (why : PresenceAuthDiscard) : PresenceAuthOutcome := ⟨.error why, false⟩

def accepted (outcome : PresenceAuthOutcome) : Bool :=
  match outcome.result with
  | .ok (.accepted _) => true
  | _ => false

end PresenceAuthOutcome

def claimedSession (record : JsonObject) : Option SessionId :=
  ((get record "session_id").bind Json.asStr).bind SessionId.parse

/-- Whether the object's `issued_at` is inside the replay window at `now`. -/
def issuedInWindow (record : JsonObject) (now : Timestamp) : Bool :=
  (((get record "issued_at").bind Json.asStr).bind Timestamp.parse).any (insideReplayWindow · now)

def AuthenticatedPresenceRecord.about (record : AuthenticatedPresenceRecord) : Option SessionId :=
  ((get record.wire "record").bind Json.asObject).bind claimedSession

namespace AuthorizationEngine

variable [Libraries] (e : AuthorizationEngine)

/-- The relation test: the `accept-presence` decision for `key` and `session`. -/
def acceptsPresence (key : KeyId) (session : SessionId) (now : Timestamp) : Bool :=
  (e.decideAt (.acceptPresence key session) now).permits .acceptPresence

/-- The engine after a claim of `key` on a session bound to another key: a related claimant locks
the session, unless it is an own one. -/
def refuseClaim (key : KeyId) (session : SessionId) (now : Timestamp) :
    AuthorizationEngine :=
  if (e.ownSessions.lookup session).isNone && e.acceptsPresence key session now then
    (e.markConflict session key).2
  else e

def forgetBindings (sessions : List SessionId) : AuthorizationEngine :=
  sessions.foldl (fun e s => (e.forgetBinding s).2) e

def presenceSigner (o : JsonObject) : Except PresenceAuthDiscard KeyId :=
  match verifySigned e.trusted .presence o with
  | .ok entry => .ok entry.keyId
  | .error .malformedSecurity => .error .malformed
  | .error _ => .error .signature

/-- The checks of signature, audience and freshness, in this order: the signing key and the
record. -/
def checkAuthenticity (record : AuthenticatedPresenceRecord) (now : Timestamp) :
    Except PresenceAuthDiscard (KeyId × JsonObject) :=
  match get record.wire "record", get record.wire "audience" with
  | some inner, some audience => do
      let key ← e.presenceSigner record.wire
      if audience.asStr ≠ some e.ownKey.text then .error .audience
      let inner ← okOr inner.asObject .registry
      if !issuedInWindow inner now then .error .stale
      .ok (key, inner)
  | _, _ => .error .malformed

end AuthorizationEngine

/-- What a consumer of presence keeps. -/
structure Consumer where
  engine : AuthorizationEngine
  registry : PresenceRegistry

namespace Consumer

variable [Libraries] (c : Consumer)

/-- A well-formed record goes to the registry; the sessions the registry forgot lose their bindings,
and the session of an accepted record is bound to the signing key. -/
def offer (key : KeyId) (record : PresenceRecord) (carrier : CarrierHandle) (now : Instant) :
    PresenceAuthOutcome × Consumer :=
  let (acceptance, registry) := c.registry.acceptSigned record carrier key now
  let (forgotten, registry) := registry.takeForgotten
  let engine := c.engine.forgetBindings forgotten
  match acceptance with
  | .accepted _ => (⟨.ok acceptance, false⟩, ⟨(engine.bind record.sessionId key).2, registry⟩)
  | .discarded _ => (.discard .registry, ⟨engine, registry⟩)

/-- The relation test, for an announcement, and the record itself. -/
def takeClaim (key : KeyId) (inner : JsonObject) (carrier : CarrierHandle) (again : Timestamp)
    (now : Instant) : PresenceAuthOutcome × Consumer :=
  let session := claimedSession inner
  let present := (get inner "present").bind Json.asBool
  if present = some true ∧ !session.any (c.engine.acceptsPresence key · again) then (.discard .unrelated, c)
  else match PresenceRecord.fromJson (.object inner) with
    | .error _ => (.discard .registry, c)
    | .ok record =>
      if (c.registry.latestSeq record.sessionId).any (record.seq ≤ ·) then (.discard .registry, c)
      else if !record.present && (session.bind c.engine.bindings.lookup).isNone then
        (.discard .withdrawalUnbound, c)
      else c.offer key record carrier now

def acceptAuthenticatedRecord (record : AuthenticatedPresenceRecord) (carrier : CarrierHandle)
    (clock again : Timestamp) (now : Instant) : PresenceAuthOutcome × Consumer :=
  match c.engine.checkAuthenticity record clock with
  | .error why => (.discard why, c)
  | .ok (key, inner) =>
    let session := claimedSession inner
    match session.bind c.engine.bindings.lookup, session with
    | some (.conflict _), _ => (.discard .underConflict, c)
    | some (.key bound), some s =>
      if bound ≠ key then
        (⟨.error .boundElsewhere, true⟩, { c with engine := c.engine.refuseClaim key s again })
      else c.takeClaim key inner carrier again now
    | _, _ => c.takeClaim key inner carrier again now

end Consumer

end Oac
