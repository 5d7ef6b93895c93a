import Oac.Agreement
import Oac.Authorization.EnvelopeBindings
import Oac.Foundation.Transition

/-! The authorization engine of `core/src/authorization.rs`. Each operation takes the reading of
the engine's clock and, where it saves, the answer of the pairing store. The decision log is
written to and never read, so it is left out. -/

namespace Oac

/-- The partition of a hand-off record: the verifying key and, when that is the own key, the
sending session. -/
structure HandOffPartition where
  key : Option KeyId
  sender : Option SessionId
  deriving DecidableEq

instance : Ord HandOffPartition :=
  ⟨fun a b => (compareOption a.key b.key).then (compareOption a.sender b.sender)⟩

structure AuthorizationEngine where
  ownKey : KeyId
  trusted : TrustedKeySet
  paired : Table KeyId PairingRecord
  ownSessions : OwnSessions
  grants : List Grant
  bindings : Table SessionId Binding
  envelopeBound : EnvelopeBindings
  sent : RecordBook SessionId SentRecord
  handedOff : RecordBook HandOffPartition HandOffRecord
  relay : List SessionId
  agreements : Table KeyId HeldStatement

inductive PairError where
  | alreadyTrusted (principal : Token)
  | notSaved (error : PairingStoreError)
  deriving DecidableEq

inductive RemoveKeyError where
  | ownKey
  | notTrusted
  | notSaved (error : PairingStoreError)
  deriving DecidableEq

inductive RestoreError where
  | store (error : PairingStoreError)
  | duplicateKey (key : KeyId)
  | statementWithoutKey (key : KeyId)
  | statementBelowConfirmed (key : KeyId)
  deriving DecidableEq

structure KeyRemoval where
  grants : List Grant
  bindings : List SessionId
  agreementStatement : Option HeldStatement
  confirmed : Option ConfirmedValues
  deriving DecidableEq

def valuesInOrder {K V : Type} [DecidableEq K] [Ord K] (t : Table K V) : List V :=
  (sortedKeys t.keys).filterMap t.lookup

namespace AuthorizationEngine

def new (own : DeviceIdentity) : AuthorizationEngine where
  ownKey := own.keyId
  trusted := TrustedKeySet.ofDevice own
  paired := ∅
  ownSessions := ∅
  grants := []
  bindings := ∅
  envelopeBound := .new maxEnvelopeBindings maxEnvelopeBindingsPerKey
  sent := .new false
  handedOff := .new true
  relay := []
  agreements := ∅

section Calls

variable [Libraries] (e : AuthorizationEngine)

def snapshot : PairingSnapshot where
  paired := valuesInOrder e.paired
  grants := e.grants
  relayEnabled := sortedKeys e.relay
  agreementStatements := (valuesInOrder e.agreements).filter (·.keyId ≠ e.ownKey)

def handoffPartition (key : Option KeyId) (sender : SessionId) : HandOffPartition :=
  ⟨key, if key = some e.ownKey then some sender else none⟩

/-- One change of the sender index carried over to the pin of the sender's binding. -/
def noteChange (t : EnvelopeBindings) (change : HandOffPartition × SessionId × Bool) : EnvelopeBindings :=
  match change.1.key with
  | some k => t.setPinned change.2.1 k change.2.2
  | none => t

def syncPins : AuthorizationEngine :=
  let (changes, handedOff) := e.handedOff.takeSenderChanges
  { e with handedOff := handedOff, envelopeBound := changes.foldl noteChange e.envelopeBound }

def evict (victim : SessionId) : AuthorizationEngine :=
  { e with envelopeBound := e.envelopeBound.untrack victim, bindings := e.bindings.erase victim }

section Sessions

variable (session : SessionId)

/-- A binding that an envelope created, pinned by what the sender's partition holds. -/
def bindTracked (key : KeyId) (partition : HandOffPartition) :
    AuthorizationEngine :=
  { e with
    bindings := e.bindings.insert session (.key key)
    envelopeBound := e.envelopeBound.track session key (e.handedOff.holdsSender partition session) }

def restorePaired (record : PairingRecord) : Except RestoreError AuthorizationEngine :=
  match e.trusted.addPairedKey record.principal record.publicKey with
  | .error _ => .error (.duplicateKey record.keyId)
  | .ok trusted => .ok { e with trusted := trusted, paired := e.paired.insert record.keyId record }

def restoreGrant (grant : Grant) : AuthorizationEngine :=
  if grant ∈ e.grants then e else { e with grants := e.grants ++ [grant] }

def restoreStatement (held : HeldStatement) : Except RestoreError AuthorizationEngine :=
  let key := held.keyId
  if (e.paired.lookup key).isNone || (e.agreements.lookup key).isSome then
    .error (.statementWithoutKey key)
  else
    match checkConfirmed held ((e.paired.lookup key).bind PairingRecord.confirmed) with
    | .error _ => .error (.statementBelowConfirmed key)
    | .ok () => .ok { e with agreements := e.agreements.insert key held }

def restore (own : DeviceIdentity) (loaded : Except PairingStoreError PairingSnapshot) :
    Except RestoreError AuthorizationEngine := do
  let snapshot ← loaded.mapError .store
  let e ← snapshot.paired.foldlM restorePaired (new own)
  let e := snapshot.grants.foldl restoreGrant e
  let e := { e with relay := snapshot.relayEnabled.foldl (fun relay s => relay.insert s) [] }
  snapshot.agreementStatements.foldlM restoreStatement e

/-- The statement a peer sent while pairing, when it is signed by the key being paired. -/
def pairedStatement (trusted : TrustedKeySet) (key : KeyId) (statement : Option AgreementStatement)
    (now : Timestamp) : Option HeldStatement :=
  statement.bind fun st =>
    match checkStatement st trusted (fun _ => none) now with
    | .ok held => if held.keyId = key then some held else none
    | .error _ => none

def pair (peer : PairedPeer) (store : PairingSave) (now : Timestamp) :
    Except PairError Unit × AuthorizationEngine :=
  let key := peer.record.keyId
  match e.trusted.addPairedKey peer.record.principal peer.record.publicKey with
  | .error principal => (.error (.alreadyTrusted principal), e)
  | .ok trusted =>
    let held := pairedStatement trusted key peer.statement now
    let record := { peer.record with confirmed := held.map ConfirmedValues.ofHeld }
    let paired := { e with
      trusted := trusted
      paired := e.paired.insert key record
      agreements := match held with
        | some h => e.agreements.insert key h
        | none => e.agreements }
    match store paired.snapshot with
    | .ok () => (.ok (), paired)
    | .error error => (.error (.notSaved error), { paired with
        trusted := paired.trusted.erase key
        paired := paired.paired.erase key
        agreements := paired.agreements.erase key })

def admitOwnStatement (statement : AgreementStatement) (now : Timestamp) :
    Except StatementRefusal HeldStatement × AuthorizationEngine :=
  match checkStatement statement e.trusted (fun _ => none) now with
  | .error refusal => (.error refusal, e)
  | .ok held =>
    if held.keyId ≠ e.ownKey then (.error .signature, e)
    else match e.agreements.lookup e.ownKey with
      | some h =>
        if h = held then (.ok h, e)
        else if held.seq ≤ h.seq then (.error .notNewer, e)
        else (.ok held, { e with agreements := e.agreements.insert e.ownKey held })
      | none => (.ok held, { e with agreements := e.agreements.insert e.ownKey held })

/-- The own key's statement is checked again, at a second clock reading. -/
def admitStatement (statement : AgreementStatement) (store : PairingSave)
    (now again : Timestamp) : Except StatementRefusal HeldStatement × AuthorizationEngine :=
  match checkStatement statement e.trusted e.agreements.lookup now with
  | .error refusal => (.error refusal, e)
  | .ok held =>
    let key := held.keyId
    if key = e.ownKey then e.admitOwnStatement statement again
    else match checkConfirmed held ((e.paired.lookup key).bind PairingRecord.confirmed) with
      | .error refusal => (.error refusal, e)
      | .ok () =>
        let previous := e.agreements.lookup key
        let taken := { e with agreements := e.agreements.insert key held }
        match store taken.snapshot with
        | .ok () => (.ok held, taken)
        | .error error => (.error (.notSaved error), { taken with
            agreements := match previous with
              | some p => taken.agreements.insert key p
              | none => taken.agreements.erase key })

def dropBinding (s : SessionId) : AuthorizationEngine :=
  { e with bindings := e.bindings.erase s, envelopeBound := e.envelopeBound.untrack s }

def removeKey (key : KeyId) (store : PairingSave) :
    Except RemoveKeyError KeyRemoval × AuthorizationEngine :=
  if key = e.ownKey then (.error .ownKey, e)
  else match e.trusted.lookup key with
    | none => (.error .notTrusted, e)
    | some _ =>
      let confirmed := (e.paired.lookup key).bind PairingRecord.confirmed
      let statement := e.agreements.lookup key
      let named := (sortedKeys e.bindings.keys).filter fun s => (e.bindings.lookup s).any (·.names key)
      let removed := e.grants.filter (·.namesKey key)
      let e := { e with
        trusted := e.trusted.erase key
        paired := e.paired.erase key
        agreements := e.agreements.erase key
        grants := e.grants.filter (!·.namesKey key) }
      let e := named.foldl dropBinding e
      let e := { e with handedOff := e.handedOff.dropPartitions fun p => p.key == some key }.syncPins
      match store e.snapshot with
      | .error error => (.error (.notSaved error), e)
      | .ok () => (.ok ⟨removed, named, statement, confirmed⟩, e)

def addGrant (grant : Grant) (store : PairingSave) :
    Except PairingStoreError Bool × AuthorizationEngine :=
  if grant ∈ e.grants then (.ok false, e)
  else
    let added := { e with grants := e.grants ++ [grant] }
    match store added.snapshot with
    | .ok () => (.ok true, added)
    | .error error => (.error error, { added with grants := added.grants.dropLast })

def removeGrant (grant : Grant) (store : PairingSave) :
    Except PairingStoreError Bool × AuthorizationEngine :=
  let kept := { e with grants := e.grants.filter (· ≠ grant) }
  if kept.grants.length = e.grants.length then (.ok false, kept)
  else match store kept.snapshot with
    | .ok () => (.ok true, kept)
    | .error error => (.error error, kept)

def setRelay (enabled : Bool) (store : PairingSave) :
    Except PairingStoreError Unit × AuthorizationEngine :=
  if enabled then
    let added := decide (session ∉ e.relay)
    let on := { e with relay := e.relay.insert session }
    match store on.snapshot with
    | .ok () => (.ok (), on)
    | .error error => (.error error, if added then { on with relay := on.relay.filter (· ≠ session) } else on)
  else
    let off := { e with relay := e.relay.filter (· ≠ session) }
    match store off.snapshot with
    | .ok () => (.ok (), off)
    | .error error => (.error error, off)

/-! Sessions and the binding table. -/

def registerSession (record : RegistrationRecord)
    (own : DeviceIdentity) : Bool × AuthorizationEngine :=
  if own.keyId ≠ e.ownKey || !record.bindingUsable own then (false, e)
  else
    let s := record.sessionId
    (true, { e with
      ownSessions := e.ownSessions.insert s ⟨record.workingDirectory⟩
      envelopeBound := e.envelopeBound.untrack s
      bindings := e.bindings.insert s (.key e.ownKey) })

def endSession : Bool × AuthorizationEngine :=
  match e.ownSessions.lookup session with
  | none => (false, e)
  | some _ =>
    let handedOff := (e.handedOff.retain fun r => r.toSession ≠ session).dropPartitions
      fun p => p.key == some e.ownKey && p.sender == some session
    (true, { e with
      ownSessions := e.ownSessions.erase session
      bindings := e.bindings.erase session
      sent := e.sent.dropPartitions (· == session)
      handedOff := handedOff }.syncPins)

def bind (key : KeyId) : BindOutcome × AuthorizationEngine :=
  match e.bindings.lookup session with
  | none => (.bound, { e with bindings := e.bindings.insert session (.key key) })
  | some (.key k) =>
    if k = key then (.alreadyBound, { e with envelopeBound := e.envelopeBound.untrack session })
    else (.boundToOther k, e)
  | some (.conflict _) => (.underConflict, e)

def markConflict (claimant : KeyId) : Bool × AuthorizationEngine :=
  if (e.ownSessions.lookup session).isSome then (false, e)
  else match e.bindings.lookup session with
    | none => (false, e)
    | some entry =>
      let keys := match entry with
        | .key k => {k, claimant}
        | .conflict keys => insert claimant keys
      (true, { e with
        bindings := e.bindings.insert session (.conflict keys)
        envelopeBound := e.envelopeBound.untrack session })

def forgetBinding : Bool × AuthorizationEngine :=
  if (e.ownSessions.lookup session).isSome then (false, e)
  else match e.bindings.lookup session with
    | some (.key _) => (true, e.dropBinding session)
    | some (.conflict _) | none => (false, e)

/-- New limits with nothing tracked: meant for a new engine, possible on any. -/
def withEnvelopeBindingLimits (capacity perKey : Nat) : AuthorizationEngine :=
  { e with envelopeBound := .new capacity perKey }

def bindFromEnvelope (key : KeyId) : Bool × AuthorizationEngine :=
  let partition := e.handoffPartition (some key) session
  if e.envelopeBound.hasRoom key then (true, e.bindTracked session key partition)
  else match e.envelopeBound.victim key with
    | none => (false, e)
    | some victim => (true, (e.evict victim).bindTracked session key partition)

/-! Records. -/

def recordSent (record : SentRecord) (now : Timestamp) : AuthorizationEngine :=
  { e with sent := (e.sent.push record.fromSession record now).2 }

def rebindKey (record : HandOffRecord) : Option KeyId :=
  match record.keyId, e.bindings.lookup record.fromSession with
  | some k, none => if k ≠ e.ownKey ∧ (e.trusted.lookup k).isSome then some k else none
  | _, _ => none

/-- A binding created again, within the bound when an entry can go and above it otherwise. -/
def rebind (key : KeyId) (partition : HandOffPartition) :
    AuthorizationEngine :=
  let roomy := if e.envelopeBound.hasRoom key then e
    else match e.envelopeBound.victim key with
      | some victim => e.evict victim
      | none => e
  roomy.bindTracked session key partition

end Sessions

def recordHandoff (record : HandOffRecord) (outcome : DeliveryState)
    (now : Timestamp) : AuthorizationEngine :=
  if outcome ≠ .handedToHarness ∧ outcome ≠ .unknown then e
  else if record.keyId = some e.ownKey ∧ (e.ownSessions.lookup record.fromSession).isNone then e
  else
    let partition := e.handoffPartition record.keyId record.fromSession
    let kept := { e with handedOff := (e.handedOff.push partition record now).2 }.syncPins
    match e.rebindKey record with
    | some k => kept.rebind record.fromSession k partition
    | none => kept

def forgetHandoff (record : HandOffRecord) : Bool × AuthorizationEngine :=
  let partition := e.handoffPartition record.keyId record.fromSession
  let (removed, handedOff) := e.handedOff.removeFirst partition fun r =>
    r.id == record.id && r.fromSession == record.fromSession && r.toSession == record.toSession
  (removed, { e with handedOff := handedOff }.syncPins)

def handoffsFrom (sender : SessionId) : List HandOffRecord :=
  match e.bindings.lookup sender with
  | some (.key k) =>
    e.handedOff.partition (e.handoffPartition (some k) sender) ++ e.handedOff.partition ⟨none, none⟩
  | _ => e.handedOff.partition ⟨none, none⟩

def prune (now : Timestamp) : AuthorizationEngine :=
  { e with
    sent := e.sent.retain fun r => withinReplyPeriod r.createdAt now
    handedOff := e.handedOff.retain fun r => withinReplyPeriod r.createdAt now }.syncPins

/-! Decisions. -/

/-- An inbound grant lets `key`, or its session `writer`, write to `target`. -/
def inboundLets (own : OwnSessions) (key : KeyId) (writer target : SessionId) : Grant → Bool
  | .inbound peer side => peer.names key writer && side.includes target own
  | .outbound _ _ => false

/-- An outbound grant lets the own session `writer` write to `key`, or its session `target`. -/
def outboundLets (own : OwnSessions) (writer : SessionId) (key : KeyId) (target : SessionId) : Grant → Bool
  | .outbound side peer => side.includes writer own && peer.names key target
  | .inbound _ _ => false

def refusesSender (sender : SessionId) (key : KeyId) : Bool :=
  match e.bindings.lookup sender with
  | some (.key k) => decide (k ≠ key)
  | some (.conflict _) => true
  | none => false

def hasReplyRight (q : DeliverQuestion) (replyTo : Token) (now : Timestamp)
    (r : SentRecord) : Bool :=
  r.toKeyId == q.verifyingKey && r.toSession == q.fromSession && r.fromSession == q.toSession &&
    r.id == replyTo && withinReplyPeriod r.createdAt now && (e.ownSessions.lookup r.fromSession).isSome

def deliver (q : DeliverQuestion) (now : Timestamp) : Option Basis :=
  if e.refusesSender q.fromSession q.verifyingKey then none
  else match e.grants.find? (inboundLets e.ownSessions q.verifyingKey q.fromSession q.toSession) with
    | some g => some (.inboundGrant g)
    | none => q.replyTo.bind fun replyTo =>
      ((e.sent.partition q.toSession).find? (e.hasReplyRight q replyTo now)).map .replyRight

def discoverGrant (l s : SessionId) : Option Grant :=
  if (e.ownSessions.lookup s).isSome then e.grants.find? (inboundLets e.ownSessions e.ownKey l s)
  else match e.bindings.lookup s with
    | some (.key k) => e.grants.find? (outboundLets e.ownSessions l k s)
    | _ => none

def grantBasis : Grant → Basis
  | .inbound writer target => .inboundGrant (.inbound writer target)
  | .outbound writer target => .outboundGrant (.outbound writer target)

def discover (l s : SessionId) (now : Timestamp) : Option Basis :=
  if (e.ownSessions.lookup l).isNone then none
  else match e.discoverGrant l s with
    | some g => some (grantBasis g)
    | none =>
      ((e.handoffsFrom s).find? fun h =>
        h.toSession == l && h.fromSession == s && withinReplyPeriod h.createdAt now).map .handOff

/-- A grant that names device `k` on one side and covers the own session `s` on the other. -/
def releasesTo (own : OwnSessions) (k : KeyId) (s : SessionId) : Grant → Bool
  | .inbound peer side => peer.keyId == k && side.includes s own
  | .outbound side peer => peer.keyId == k && side.includes s own

/-- A grant that names device `k`, or its session `r`, on the peer side. -/
def namesPeer (k : KeyId) (r : SessionId) : Grant → Bool
  | .inbound peer _ => peer.names k r
  | .outbound _ peer => peer.names k r

def release (s : SessionId) (k : KeyId) : Option Basis :=
  if (e.ownSessions.lookup s).isNone then none
  else (e.grants.find? (releasesTo e.ownSessions k s)).map grantBasis

def related (k : KeyId) (r : SessionId) (now : Timestamp) : Option Basis :=
  let byGrant := (e.grants.find? (namesPeer k r)).map grantBasis
  let bySent := (e.sent.iter.find? fun s =>
    s.toSession == r && s.toKeyId == k && withinReplyPeriod s.createdAt now).map Basis.sent
  let byHandoff := ((e.handoffsFrom r).find? fun h =>
    h.fromSession == r && withinReplyPeriod h.createdAt now).map Basis.handOff
  byGrant.orElse fun _ => bySent.orElse fun _ => byHandoff

def evaluate (request : AuthorizationRequest) (now : Timestamp) : Outcome :=
  let found := match request with
    | .deliver q => e.deliver q now
    | .discover (.session l) s => e.discover l s now
    | .discover (.device k) s => e.release s k
    | .releasePresence s k => e.release s k
    | .acceptPresence k s => e.related k s now
    | .relayPermission s =>
      if (e.ownSessions.lookup s).isSome && decide (s ∈ e.relay) then some (.relaySetting s) else none
  found.elim .deny .permit

def decideAt (request : AuthorizationRequest) (now : Timestamp) : AuthorizationDecision :=
  ⟨request.kind, e.evaluate request now⟩

def unauthorized (requirement : String) (finding : Option BindingFinding) : AuthorizationRefusal :=
  ⟨.rejected, .unauthorized, requirement, finding⟩

/-- Security step 4. -/
def authorizeDelivery (msg : ChannelMessage) (now : Timestamp) :
    Except AuthorizationRefusal AuthorizedMessage × AuthorizationEngine :=
  match msg.verifiedBy with
  | none => (.error (unauthorized "SEC-STG-003" none), e)
  | some verifier =>
    let sender := msg.envelope.fromSession
    let key := verifier.keyId
    let decision := e.decideAt (.deliver ⟨key, sender, msg.envelope.toSession, msg.envelope.replyTo⟩) now
    let checked : Except AuthorizationRefusal Unit := match e.bindings.lookup sender with
      | some (.key bound) =>
        if bound ≠ key then .error (unauthorized "SEC-AUZ-003" (some ⟨sender, bound, key⟩)) else .ok ()
      | some (.conflict _) => .error (unauthorized "SEC-PRS-012" none)
      | none => .ok ()
    match checked with
    | .error refusal => (.error refusal, e)
    | .ok () =>
      if !decision.permits .deliver then (.error (unauthorized "SEC-AUZ-001" none), e)
      else if (e.bindings.lookup sender).isSome then (.ok ⟨msg, decision⟩, e)
      else match e.bindFromEnvelope sender key with
        | (true, bound) => (.ok ⟨msg, decision⟩, bound)
        | (false, same) => (.error ⟨.failed, .internalError, "SEC-PRS-005", none⟩, same)

end Calls

/-- A call of one operation of the engine, with its arguments, its clock readings and the answer
of the store. -/
inductive Op where
  | pair (peer : PairedPeer) (store : PairingSave) (now : Timestamp)
  | admitStatement (statement : AgreementStatement) (store : PairingSave) (now again : Timestamp)
  | admitOwnStatement (statement : AgreementStatement) (now : Timestamp)
  | removeKey (key : KeyId) (store : PairingSave)
  | addGrant (grant : Grant) (store : PairingSave)
  | removeGrant (grant : Grant) (store : PairingSave)
  | setRelay (session : SessionId) (enabled : Bool) (store : PairingSave)
  | registerSession (record : RegistrationRecord) (own : DeviceIdentity)
  | endSession (session : SessionId)
  | bind (session : SessionId) (key : KeyId)
  | markConflict (session : SessionId) (claimant : KeyId)
  | forgetBinding (session : SessionId)
  | withEnvelopeBindingLimits (capacity perKey : Nat)
  | recordSent (record : SentRecord) (now : Timestamp)
  | recordHandoff (record : HandOffRecord) (outcome : DeliveryState) (now : Timestamp)
  | forgetHandoff (record : HandOffRecord)
  | prune (now : Timestamp)
  | decide (request : AuthorizationRequest) (now : Timestamp)
  | authorizeDelivery (msg : ChannelMessage) (now : Timestamp)

section Runs

variable [Libraries]

def after (e : AuthorizationEngine) : Op → AuthorizationEngine
  | .pair peer store now => (e.pair peer store now).2
  | .admitStatement statement store now again => (e.admitStatement statement store now again).2
  | .admitOwnStatement statement now => (e.admitOwnStatement statement now).2
  | .removeKey key store => (e.removeKey key store).2
  | .addGrant grant store => (e.addGrant grant store).2
  | .removeGrant grant store => (e.removeGrant grant store).2
  | .setRelay session enabled store => (e.setRelay session enabled store).2
  | .registerSession record own => (e.registerSession record own).2
  | .endSession session => (e.endSession session).2
  | .bind session key => (e.bind session key).2
  | .markConflict session claimant => (e.markConflict session claimant).2
  | .forgetBinding session => (e.forgetBinding session).2
  | .withEnvelopeBindingLimits capacity perKey => e.withEnvelopeBindingLimits capacity perKey
  | .recordSent record now => e.recordSent record now
  | .recordHandoff record outcome now => e.recordHandoff record outcome now
  | .forgetHandoff record => (e.forgetHandoff record).2
  | .prune now => e.prune now
  | .decide _ _ => e
  | .authorizeDelivery msg now => (e.authorizeDelivery msg now).2

def step (op : Op) (e : AuthorizationEngine) : Option AuthorizationEngine := some (e.after op)

def Started (e : AuthorizationEngine) : Prop :=
  ∃ own, e = new own ∨ ∃ loaded, restore own loaded = .ok e

/-- The engines any sequence of calls leads to. -/
def Reachable (e : AuthorizationEngine) : Prop :=
  ∃ first, Started first ∧ Transition.Reaches step Transition.anyMove first e

/-- What holds of every started engine and is kept by every call holds of every reachable one. -/
theorem Reachable.invariant {P : AuthorizationEngine → Prop} (reachable : Reachable e)
    (starts : ∀ e, Started e → P e) (keeps : ∀ e op, P e → P (e.after op)) : P e := by
  obtain ⟨first, started, run⟩ := reachable
  refine Transition.Reaches.invariant (fun op s t _ stepped held => ?_) run (starts first started)
  cases stepped
  exact keeps s op held

end Runs

end AuthorizationEngine

end Oac
