import Oac.Authorization.EnvelopeBindings
import Oac.Capabilities

/-! Presence records (`core/src/presence.rs`) and the presence registry of one implementation
(`core/src/registry.rs`). A state is computed when it is read, at the instant the caller gives. -/

namespace Oac

open JsonObject

/-- An instant of the monotonic clock, in nanoseconds. -/
abbrev Instant := Nat

def fromMillis (ms : Nat) : Nat := ms * 1000000

inductive PresenceState where
  | online
  | unreachable
  | unknown
  deriving DecidableEq

inductive PresenceKind where
  | announcement (lifetimeMs : Nat) (descriptor : SessionDescriptor)
  | withdrawal

def maxSeq : Nat := 9007199254740991

def lifetimeMsMin : Nat := 1000

def lifetimeMsMax : Nat := 3600000

/-- The requirement a presence record fails. -/
inductive PresenceViolation where
  | notIJsonObject
  | missingMember
  | badSessionId
  | badSeq
  | badPresent
  | badIssuedAt
  | announcementIncomplete
  | badLifetime
  | badDescriptor
  | descriptorOtherSession
  | withdrawalWithAnnouncementMember
  deriving DecidableEq

structure PresenceRecord where
  sessionId : SessionId
  seq : Nat
  issuedAt : Timestamp
  kind : PresenceKind
  wire : JsonObject

namespace PresenceRecord

def present (record : PresenceRecord) : Bool :=
  match record.kind with
  | .announcement _ _ => true
  | .withdrawal => false

def announcementKind (o : JsonObject) (session : SessionId) : Except PresenceViolation PresenceKind :=
  match get o "lifetime_ms", get o "descriptor" with
  | some lifetime, some descriptor => do
      let lifetimeMs ← okOr (lifetime.asNumber.bind fun n =>
        n.plainIntegerIn lifetimeMsMin lifetimeMsMax) .badLifetime
      let descriptor ← okOr (SessionDescriptor.fromJson descriptor) .badDescriptor
      if descriptor.sessionId ≠ session then .error .descriptorOtherSession
      else .ok (.announcement lifetimeMs descriptor)
  | _, _ => .error .announcementIncomplete

def withdrawalKind (o : JsonObject) : Except PresenceViolation PresenceKind :=
  if contains o "lifetime_ms" || contains o "descriptor" then
    .error .withdrawalWithAnnouncementMember
  else .ok .withdrawal

/-- Reads a record from a parsed value; the error is the first requirement it fails. -/
def fromJson (v : Json) : Except PresenceViolation PresenceRecord := do
  let o ← okOr (v.asObject.filter fun _ => !v.containsNull) .notIJsonObject
  if ["session_id", "seq", "present", "issued_at"].any fun m => !contains o m then .error .missingMember
  let sessionId ← okOr (((get o "session_id").bind Json.asStr).bind SessionId.parse) .badSessionId
  let seq ← okOr (((get o "seq").bind Json.asNumber).bind fun n => n.plainIntegerIn 0 maxSeq) .badSeq
  let present ← okOr ((get o "present").bind Json.asBool) .badPresent
  let issuedAt ← okOr (((get o "issued_at").bind Json.asStr).bind Timestamp.parse) .badIssuedAt
  let kind ← if present then announcementKind o sessionId else withdrawalKind o
  .ok ⟨sessionId, seq, issuedAt, kind, o⟩

def header (sessionId : SessionId) (seq : Nat) (present : Bool) (issuedAt : Timestamp) : JsonObject :=
  [("session_id", .string sessionId.text), ("seq", .number (.fromU64 seq)),
    ("present", .bool present), ("issued_at", .string issuedAt.text)]

def announcement (seq : Nat) (issuedAt : Timestamp) (lifetimeMs : Nat)
    (descriptor : SessionDescriptor) : Except PresenceViolation PresenceRecord :=
  if maxSeq < seq then .error .badSeq
  else if lifetimeMs < lifetimeMsMin ∨ lifetimeMsMax < lifetimeMs then .error .badLifetime
  else
    let sessionId := descriptor.sessionId
    let wire := header sessionId seq true issuedAt
    let wire := insert wire "lifetime_ms" (.number (.fromU64 lifetimeMs))
    let wire := insert wire "descriptor" (.object descriptor.wire)
    .ok ⟨sessionId, seq, issuedAt, .announcement lifetimeMs descriptor, wire⟩

end PresenceRecord

/-- The longest an announcement from another implementation counts: 5 minutes. -/
def crossImplementationPresenceCapMs : Nat := 300000

inductive RecordOrigin where
  | sameImplementation
  | otherImplementation
  deriving DecidableEq

/-- Why a record was discarded by the registry. -/
inductive PresenceDiscard where
  | invalid (violation : PresenceViolation)
  | notNewer
  | full
  | issuerQuota
  deriving DecidableEq

inductive PresenceAcceptance where
  | accepted (effectiveLifetimeMs : Option Nat)
  | discarded (why : PresenceDiscard)
  deriving DecidableEq

abbrev CarrierHandle := Nat

structure HeldPresence where
  record : PresenceRecord
  /-- When the announcement stops counting; nothing for a withdrawal. -/
  staleAt : Option Instant
  carrier : CarrierHandle
  carrierLost : Bool
  /-- The key that signed the record; nothing for one from inside this implementation. -/
  issuer : Option KeyId
  /-- When the session was first taken in, in insertion order. -/
  admitted : Nat

def HeldPresence.state (h : HeldPresence) (now : Instant) : PresenceState :=
  match h.staleAt with
  | some at_ => if !h.carrierLost && decide (now < at_) then .online else .unreachable
  | none => .unreachable

structure Own where
  descriptor : SessionDescriptor
  withheld : Bool

structure PresenceRegistry where
  own : Table SessionId Own
  /-- Own sessions whose binding has ended. -/
  ended : Table SessionId Unit
  held : Table SessionId HeldPresence
  capacity : Nat
  perIssuerQuota : Nat
  forgotten : List SessionId
  admitted : Nat

namespace PresenceRegistry

def defaultPresenceCapacity : Nat := 4096

def defaultIssuerShareDivisor : Nat := 4

def withLimits (capacity perIssuerQuota : Nat) : PresenceRegistry where
  own := ∅
  ended := ∅
  held := ∅
  capacity := max capacity 1
  perIssuerQuota := min (max perIssuerQuota 1) (max capacity 1)
  forgotten := []
  admitted := 0

def withCapacity (capacity : Nat) : PresenceRegistry :=
  withLimits capacity (capacity / defaultIssuerShareDivisor)

def new : PresenceRegistry := withCapacity defaultPresenceCapacity

variable (r : PresenceRegistry)

def heldBy (issuer : Option KeyId) : Nat := r.held.entries.countP fun e => e.2.issuer == issuer

def len : Nat := r.held.size + r.ended.size

def noteForgotten (s : SessionId) : PresenceRegistry :=
  let kept := if r.forgotten.length ≥ r.capacity then r.forgotten.drop 1 else r.forgotten
  { r with forgotten := kept ++ [s] }

section Sessions

variable (session : SessionId)

def evict : PresenceRegistry :=
  match r.held.lookup session with
  | some _ => { r with held := r.held.erase session }.noteForgotten session
  | none => r

/-- A session forgotten by a sweep, held or ended. -/
def sweepOne (s : SessionId) : PresenceRegistry :=
  { r with held := r.held.erase s, ended := r.ended.erase s }.noteForgotten s

/-- Forgets every session that is unreachable at `now`. -/
def sweep (now : Instant) : PresenceRegistry :=
  let stale := (r.held.entries.filter fun e =>
    (r.own.lookup e.1).isNone && e.2.state now ≠ .online).map (·.1)
  (stale ++ sortedKeys r.ended.keys).foldl sweepOne r

def makeIssuerRoom (issuer : Option KeyId) (now : Instant) : PresenceRegistry :=
  if r.heldBy issuer ≥ r.perIssuerQuota then
    ((r.held.entries.filter fun e => e.2.issuer == issuer && e.2.state now ≠ .online).map (·.1)).foldl evict r
  else r

def mostHeld : Nat := (r.held.entries.map fun e => r.heldBy e.2.issuer).foldl max 0

/-- The session most recently taken in among those of the issuers that hold `most`. -/
def newestOf (most : Nat) : Option SessionId :=
  ((r.held.entries.filter fun e => r.heldBy e.2.issuer == most).foldl
    (fun best e => match best with
      | some (s, admitted) => if admitted ≤ e.2.admitted then some (e.1, e.2.admitted) else some (s, admitted)
      | none => some (e.1, e.2.admitted)) none).map (·.1)

def makeRoom (issuer : Option KeyId) (now : Instant) :
    Except PresenceDiscard Unit × PresenceRegistry :=
  let r := r.makeIssuerRoom issuer now
  if r.heldBy issuer ≥ r.perIssuerQuota then (.error .issuerQuota, r)
  else if r.len < r.capacity then (.ok (), r)
  else
    let r := r.sweep now
    if r.len < r.capacity then (.ok (), r)
    else if r.mostHeld < r.heldBy issuer + 2 then (.error .full, r)
    else match r.newestOf r.mostHeld with
      | some victim => (.ok (), r.evict victim)
      | none => (.error .full, r)

def takeForgotten : List SessionId × PresenceRegistry :=
  (r.forgotten, { r with forgotten := [] })

/-! Own sessions. -/

def registerOwn (descriptor : SessionDescriptor) : PresenceRegistry :=
  let id := descriptor.sessionId
  let withheld := (r.own.lookup id).any (·.withheld)
  { r with ended := r.ended.erase id, own := r.own.insert id ⟨descriptor, withheld⟩ }

def setWithheld (withheld : Bool) : Bool × PresenceRegistry :=
  match r.own.lookup session with
  | some o => (true, { r with own := r.own.insert session { o with withheld := withheld } })
  | none => (false, r)

/-- The ended session a full registry forgets to make room for another. -/
def forgetEnded : PresenceRegistry :=
  if r.len ≥ r.capacity then
    match (sortedKeys r.ended.keys).head? with
    | some evicted =>
      { r with ended := r.ended.erase evicted, held := r.held.erase evicted }.noteForgotten evicted
    | none => r
  else r

def deregisterOwn : Bool × PresenceRegistry :=
  match r.own.lookup session with
  | some _ =>
    let r := { r with own := r.own.erase session }.forgetEnded
    (true, { r with ended := r.ended.insert session () })
  | none => (false, r)

def isOwn : Bool := (r.own.lookup session).isSome

def ownDescriptor : Option SessionDescriptor :=
  (r.own.lookup session).map (·.descriptor)

/-! Records. -/

def effectiveLifetime (kind : PresenceKind) (origin : RecordOrigin) : Option Nat :=
  match kind, origin with
  | .announcement lifetimeMs _, .sameImplementation => some lifetimeMs
  | .announcement lifetimeMs _, .otherImplementation => some (min lifetimeMs crossImplementationPresenceCapMs)
  | .withdrawal, _ => none

/-- The record becomes the latest of its session; a newer one keeps the session's place. -/
def place (record : PresenceRecord) (carrier : CarrierHandle)
    (lifetime : Option Nat) (issuer : Option KeyId) (now : Instant) : PresenceRegistry :=
  let staleAt := lifetime.map fun ms => now + fromMillis ms
  match r.held.lookup record.sessionId with
  | some h => { r with
      held := r.held.insert record.sessionId ⟨record, staleAt, carrier, false, issuer, h.admitted⟩ }
  | none => { r with
      admitted := r.admitted + 1
      held := r.held.insert record.sessionId ⟨record, staleAt, carrier, false, issuer, r.admitted + 1⟩ }

def insert (record : PresenceRecord) (carrier : CarrierHandle)
    (origin : RecordOrigin) (issuer : Option KeyId) (now : Instant) : PresenceAcceptance × PresenceRegistry :=
  let lifetime := effectiveLifetime record.kind origin
  match r.held.lookup record.sessionId with
  | some h =>
    if record.seq ≤ h.record.seq then (.discarded .notNewer, r)
    else (.accepted lifetime, r.place record carrier lifetime issuer now)
  | none =>
    match r.makeRoom issuer now with
    | (.error why, r) => (.discarded why, r)
    | (.ok (), r) => (.accepted lifetime, r.place record carrier lifetime issuer now)

def accept (record : PresenceRecord) (carrier : CarrierHandle)
    (origin : RecordOrigin) (now : Instant) : PresenceAcceptance × PresenceRegistry :=
  r.insert record carrier origin none now

def acceptSigned (record : PresenceRecord) (carrier : CarrierHandle)
    (issuer : KeyId) (now : Instant) : PresenceAcceptance × PresenceRegistry :=
  r.insert record carrier .otherImplementation (some issuer) now

def acceptJson (record : Json) (carrier : CarrierHandle)
    (origin : RecordOrigin) (now : Instant) : PresenceAcceptance × PresenceRegistry :=
  match PresenceRecord.fromJson record with
  | .ok record => r.accept record carrier origin now
  | .error violation => (.discarded (.invalid violation), r)

/-- The sequence number of the latest record accepted for `session`, while it is remembered. -/
def latestSeq : Option Nat := (r.held.lookup session).map (·.record.seq)

def HeldPresence.lose (carrier : CarrierHandle) (h : HeldPresence) : HeldPresence :=
  if h.carrier = carrier ∧ h.record.present ∧ !h.carrierLost then { h with carrierLost := true } else h

def carrierLoss (carrier : CarrierHandle) : PresenceRegistry :=
  { r with held := r.held.keys.foldl (fun held s => Table.modify s (HeldPresence.lose carrier) held) r.held }

/-! States. -/

def state (now : Instant) : PresenceState :=
  match r.own.lookup session with
  | some o => if o.withheld then .unreachable else .online
  | none =>
    if (r.ended.lookup session).isSome then .unreachable
    else match r.held.lookup session with
      | some h => h.state now
      | none => .unknown

def forget (now : Instant) : Bool × PresenceRegistry :=
  if r.state session now ≠ .unreachable then (false, r)
  else ((r.ended.lookup session).isSome || (r.held.lookup session).isSome,
    { r with ended := r.ended.erase session, held := r.held.erase session })

end Sessions

/-- The operations that neither add nor end an own session. -/
inductive Op where
  | accept (record : PresenceRecord) (carrier : CarrierHandle) (origin : RecordOrigin) (now : Instant)
  | acceptSigned (record : PresenceRecord) (carrier : CarrierHandle) (issuer : KeyId) (now : Instant)
  | carrierLoss (carrier : CarrierHandle)
  | forget (session : SessionId) (now : Instant)
  | takeForgotten

def after : Op → PresenceRegistry
  | .accept record carrier origin now => (r.accept record carrier origin now).2
  | .acceptSigned record carrier issuer now => (r.acceptSigned record carrier issuer now).2
  | .carrierLoss carrier => r.carrierLoss carrier
  | .forget session now => (r.forget session now).2
  | .takeForgotten => r.takeForgotten.2

/-- Every call on a registry. -/
inductive Call where
  | registerOwn (descriptor : SessionDescriptor)
  | setWithheld (session : SessionId) (withheld : Bool)
  | deregisterOwn (session : SessionId)
  | acceptJson (record : Json) (carrier : CarrierHandle) (origin : RecordOrigin) (now : Instant)
  | on (op : Op)

def step : Call → PresenceRegistry → Option PresenceRegistry
  | .registerOwn descriptor, r => some (r.registerOwn descriptor)
  | .setWithheld session withheld, r => some (r.setWithheld session withheld).2
  | .deregisterOwn session, r => some (r.deregisterOwn session).2
  | .acceptJson record carrier origin now, r => some (r.acceptJson record carrier origin now).2
  | .on op, r => some (r.after op)

end PresenceRegistry

end Oac
