import Oac.Authorization.Engine
import Oac.IssuedPairing
import Oac.Receiver.Delivery
import Oac.SessionBinding

/-! The state the pipelines change under their one lock (`Core` in `core/src/pipeline.rs`), as far
as attachments, bindings and native signals go, and what each critical section computes. The wall
clock and the monotonic clock are read by the caller of a section. Announcements, trackers and
payloads are not part of this model. -/

namespace Oac

abbrev AdapterId := Nat

structure PipelineConfig where
  maxConnections : Nat
  nativeSignalWindow : Nat
  maxPendingSignals : Nat
  pairingWindow : Nat
  deriving DecidableEq

def PipelineConfig.default : PipelineConfig := ⟨1024, fromMillis 10000, 64, fromMillis 30000⟩

structure TransportCapabilities where
  sealing : Bool
  maxPayloadOctets : Nat
  deriving DecidableEq

/-- The largest size the core may declare over a sealing transport. -/
def envelopeLimit (caps : Option TransportCapabilities) : Option Nat :=
  (caps.filter (·.sealing)).map fun c => c.maxPayloadOctets - frameOverhead

structure AttachmentEntry where
  adapter : AdapterId
  isOpen : Bool
  session : Option SessionId
  nativeId : Option String
  crossCheck : Option String
  /-- Delivery and send requests are withheld. -/
  withheld : Bool
  /-- The arrival number of the latest dropped or unpairable signal not yet answered. -/
  withheldBy : Option Nat
  /-- The arrival number of the latest signal that paired with it. -/
  pairedSeq : Option Nat
  deriving DecidableEq

def AttachmentEntry.opened (adapter : AdapterId) (crossCheck : Option String) : AttachmentEntry :=
  ⟨adapter, true, none, none, crossCheck, false, none, none⟩

/-- What the `revealed` value of a signal meant when the signal was reported. -/
inductive Reveal where
  | none
  | issued (attachment : Attachment)
  | conflict (attachment : Attachment)
  | rejected (requirement : String)
  deriving DecidableEq

def Reveal.narrow : Reveal → Option Attachment
  | issued a => some a
  | _ => Option.none

structure QueuedSignal where
  adapter : AdapterId
  signal : NativeSignal
  key : Option PairingKey
  /-- Its place in arrival order. -/
  seq : Nat
  reveal : Reveal
  deriving DecidableEq

structure HeldSignal where
  adapter : AdapterId
  signal : NativeSignal
  key : PairingKey
  heldAt : Instant
  seq : Nat
  deriving DecidableEq

/-- Whose share of the bound a pending signal counts against. -/
inductive SignalHolder where
  | key (adapter : AdapterId) (key : PairingKey)
  | connection (handle : Attachment)
  | unattributed
  deriving DecidableEq

def SignalHolder.of (adapter : AdapterId) : Option PairingKey → Option Attachment → SignalHolder
  | some k, _ => key adapter k
  | none, some c => connection c
  | none, none => unattributed

def QueuedSignal.holder (q : QueuedSignal) : SignalHolder := .of q.adapter q.key q.signal.connection

/-- How a native signal pairs, at one moment. -/
inductive PairAttempt where
  | paired (attachment : Attachment)
  | notYet (key : PairingKey)
  | unpairable (bound : List Attachment)
  | rejected (requirement : String)
  | conflict (attachment : Attachment)
  deriving DecidableEq

/-- A signal taken out of the pending ones, to be dropped outside the lock. -/
structure Dropped where
  signal : NativeSignal
  attempt : PairAttempt
  seq : Nat
  deriving DecidableEq

/-- Why a bind was refused. -/
inductive PipelineError where
  | unknownAttachment
  | alreadyBound
  | invalidCapabilities
  | transport
  | invalidRegistration
  deriving DecidableEq

structure Core where
  engine : AuthorizationEngine
  registry : PresenceRegistry
  /-- The number of adapters added so far. -/
  adapters : Nat
  connections : Table Attachment AdapterId
  attachments : Table Attachment AttachmentEntry
  sessions : Table SessionId Attachment
  subscriptions : Table SessionId Unit
  transportCaps : Option TransportCapabilities
  observed : Table Attachment PeerObservation
  signals : List QueuedSignal
  held : List HeldSignal
  nextSignalSeq : Nat
  carriers : Table Attachment AdapterId
  pairing : PairingWindows Attachment

def withheldUntilAfter (withheldBy : Option Nat) (seq : Nat) : Nat :=
  withheldBy.elim seq (max · seq)

/-- Whether a signal of arrival order `seq`, or none, ends a withholding set by `withheldBy`. -/
def answers : Option Nat → Option Nat → Bool
  | none, _ => true
  | some w, some s => decide (w < s)
  | some _, none => false

section FairShare

variable {H : Type} [DecidableEq H]

/-- How many signals a holder has pending, and the latest and the oldest of them. -/
structure Share where
  count : Nat
  latest : Nat
  oldest : Nat
  deriving DecidableEq

def countShare (counts : Table H Share) (pending : H × Nat) : Table H Share :=
  let c := (counts.lookup pending.1).getD ⟨0, pending.2, pending.2⟩
  counts.insert pending.1 ⟨c.count + 1, max c.latest pending.2, min c.oldest pending.2⟩

def latestShare : List Share → Option Share
  | [] => none
  | s :: rest =>
    match latestShare rest with
    | none => some s
    | some t => if s.latest ≤ t.latest then some t else some s

/-- The signal that makes room for a new one from `holder`, or none when the new one goes. -/
def fairShareVictim (pending : List (H × Nat)) (holder : H) : Option Nat :=
  let counts := pending.foldl countShare ∅
  let shares := counts.entries.map fun e => e.2
  let mine := (counts.lookup holder).elim 0 (·.count)
  let most := (shares.map (·.count)).foldl max 0
  if most ≥ mine + 2 then (latestShare (shares.filter (·.count == most))).map (·.oldest)
  else (counts.lookup holder).map (·.oldest)

end FairShare

namespace Core

/-! Reads. -/

variable [Libraries] (c : Core)

def requester (closedHandles : List Attachment) (adapter : AdapterId) (a : Attachment) :
    Option SessionId :=
  match c.attachments.lookup a with
  | some e =>
    if e.adapter == adapter && e.isOpen && !e.withheld && !closedHandles.contains a then e.session
    else none
  | none => none

/-- The attachment a hand-off for `to` is passed to, with its adapter. -/
def handOffTarget (to_ : SessionId) : Option (AdapterId × Attachment) := do
  let a ← c.sessions.lookup to_
  let e ← c.attachments.lookup a
  if e.withheld then none else some (e.adapter, a)

/-- The delivery target of the receiver's checks, before the adapter's capabilities are asked. -/
def target (to_ : SessionId) (now : Instant) : Option (AdapterId × Attachment × Bool) := do
  let a ← c.sessions.lookup to_
  let e ← c.attachments.lookup a
  return (e.adapter, a, e.isOpen && !e.withheld && c.registry.state to_ now == .online)

def observedKey (a : Attachment) : Option PairingKey := (c.observed.lookup a).bind (·.pairingKey)

section Signals

variable (adapter : AdapterId)

def signalKey (signal : NativeSignal) : Option PairingKey :=
  (signal.connection.filter fun h => c.connections.lookup h == some adapter).bind c.observedKey

def isCandidate (key : PairingKey) (narrow : Option Attachment)
    (a : Attachment) (e : AttachmentEntry) : Bool :=
  narrow.all (· == a) && e.adapter == adapter && e.isOpen && c.observedKey a == some key

def candidates (key : PairingKey) (narrow : Option Attachment) : List Attachment :=
  (c.attachments.entries.filter fun e => c.isCandidate adapter key narrow e.1 e.2).map (·.1)

def isBound (a : Attachment) : Bool := (c.attachments.lookup a).any (·.session.isSome)

def pairByKey (key : PairingKey) (narrow : Option Attachment) : PairAttempt :=
  match c.candidates adapter key narrow with
  | [] => .notYet key
  | [one] => .paired one
  | many => .unpairable (many.filter c.isBound)

def pair (key : Option PairingKey) (narrow : Option Attachment) : PairAttempt :=
  match key with
  | none => .unpairable []
  | some key =>
    match c.pairByKey adapter key narrow with
    | .notYet k => if narrow.isSome then .unpairable [] else .notYet k
    | attempt => attempt

def attempt (key : Option PairingKey) : Reveal → PairAttempt
  | .rejected requirement => .rejected requirement
  | .conflict a => .conflict a
  | reveal => c.pair adapter key reveal.narrow

def attachmentStates : List (AttachmentState Attachment) :=
  (c.attachments.entries.filter fun e => e.2.adapter == adapter && e.2.isOpen).map fun e =>
    ⟨e.1, e.2.crossCheck, match e.2.session, e.2.nativeId with
      | some sessionId, some nativeId => some ⟨nativeId, sessionId⟩
      | _, _ => none⟩

/-! Connections and attachments. -/

def new (engine : AuthorizationEngine) (config : PipelineConfig)
    (caps : Option TransportCapabilities) : Core where
  engine := engine
  registry := .new
  adapters := 0
  connections := ∅
  attachments := ∅
  sessions := ∅
  subscriptions := ∅
  transportCaps := caps
  observed := ∅
  signals := []
  held := []
  nextSignalSeq := 0
  carriers := ∅
  pairing := .new config.pairingWindow

def connectDesignated (a : Attachment) (adapter : AdapterId) (observation : PeerObservation)
    (carrier : Bool) : Core :=
  { c with
    observed := if observation = .none then c.observed else c.observed.insert a observation
    carriers := if carrier then c.carriers.insert a adapter else c.carriers
    connections := c.connections.insert a adapter }

/-- Only a handle given to this adapter becomes its attachment; one it has keeps its entry. -/
def attachmentOpened (a : Attachment) (crossCheck : Option String) : Core :=
  if c.connections.lookup a = some adapter ∧ (c.attachments.lookup a).isNone then
    { c with attachments := c.attachments.insert a (.opened adapter crossCheck) }
  else c

def modifyEntry (a : Attachment) (f : AttachmentEntry → AttachmentEntry) : Core :=
  { c with attachments := Table.modify a f c.attachments }

def markClosed (a : Attachment) : Core := c.modifyEntry a fun e => { e with isOpen := false }

def forgetConnection (a : Attachment) : Core :=
  { c with
    attachments := c.attachments.erase a
    connections := c.connections.erase a
    carriers := c.carriers.erase a
    pairing := c.pairing.forget a
    observed := c.observed.erase a }

/-- An own session gone from the engine, the registry and the pipelines' own tables. -/
def endSession (session : SessionId) (now : Timestamp) : Core :=
  { c with
    sessions := c.sessions.erase session
    engine := (c.engine.endSession session).2.prune now
    registry := (c.registry.deregisterOwn session).2
    subscriptions := c.subscriptions.erase session }

def applyClosure (a : Attachment) (adapter : AdapterId) (now : Timestamp) : Core :=
  if c.connections.lookup a ≠ some adapter then c
  else match (c.attachments.lookup a).bind (·.session) with
    | some session => (c.forgetConnection a).endSession session now
    | none => c.forgetConnection a

def boundSession (a : Attachment) : Option SessionId := (c.attachments.lookup a).bind (·.session)

/-- The second section of `unbind`, for the session the first one read. -/
def unbind (a : Attachment) (session : SessionId) (now : Timestamp) : Core :=
  (c.modifyEntry a fun e =>
    { e with session := none, nativeId := none, withheld := false }).endSession session now

/-! Withholding. -/

/-- The entry stopped by arrival number `seq`. An attachment between bindings has nothing to stop
yet, but its next binding starts withheld. -/
def stoppedBy (e : AttachmentEntry) (seq : Nat) : AttachmentEntry :=
  { e with
    withheldBy := some (withheldUntilAfter e.withheldBy seq)
    withheld := e.withheld || e.session.isSome }

/-- What `stop_unconfirmed` leaves and, for an attachment of `adapter`, the session it was bound
to. -/
def stopUnconfirmed (a : Attachment) : Core × Option (Option SessionId) :=
  match (c.attachments.lookup a).filter (·.adapter == adapter) with
  | none => (c, none)
  | some e =>
    ({ c with
      nextSignalSeq := c.nextSignalSeq + 1
      attachments := c.attachments.insert a (stoppedBy e c.nextSignalSeq) }, some e.session)

/-- A signal older than one that already paired with the attachment withholds nothing. -/
def ignoresDrop (e : AttachmentEntry) (seq : Nat) : Bool :=
  e.pairedSeq.any fun p => decide (seq < p)

/-- What `withhold` leaves and, when the drop counts, whether the adapter has to be told. -/
def withhold (a : Attachment) (seq : Nat) : Core × Option Bool :=
  match c.attachments.lookup a with
  | none => (c, none)
  | some e =>
    if ignoresDrop e seq then (c, none)
    else ({ c with attachments := c.attachments.insert a (stoppedBy e seq) }, some e.session.isSome)

def releasedEntry (e : AttachmentEntry) : AttachmentEntry :=
  { e with withheldBy := none, withheld := false }

/-- What `release_withheld` leaves and the session the adapter is told again. -/
def releaseWithheld (a : Attachment) (seq : Nat) : Core × Option SessionId :=
  match c.attachments.lookup a with
  | none => (c, none)
  | some e =>
    if !answers e.withheldBy (some seq) then (c, none)
    else ({ c with attachments := c.attachments.insert a (releasedEntry e) },
      if e.withheld then e.session else none)

/-! Binding. -/

/-- The checks of `bind_record` before the adapter and the transport are asked; the limit of the
transport when they pass. -/
def bindCheck (a : Attachment) (session : SessionId) : Except PipelineError (Option Nat) :=
  match (c.attachments.lookup a).filter (·.isOpen) with
  | none => .error .unknownAttachment
  | some e =>
    if e.session.isSome || (c.sessions.lookup session).isSome then .error .alreadyBound
    else .ok (envelopeLimit c.transportCaps)

def boundEntry (e : AttachmentEntry) (session : SessionId) (nativeId : String) (seq : Option Nat) :
    AttachmentEntry :=
  let withheldBy := if answers e.withheldBy seq then none else e.withheldBy
  { e with
    session := some session
    nativeId := some nativeId
    withheldBy := withheldBy
    withheld := withheldBy.isSome }

/-- The core in which `a` is bound to the session of `record`. -/
def register (engine : AuthorizationEngine) (a : Attachment) (bound : AttachmentEntry)
    (session : SessionId) (descriptor : DescriptorOf session) : Core :=
  { c with
    engine := engine
    registry := c.registry.registerOwn descriptor.1
    sessions := c.sessions.insert session a
    subscriptions := c.subscriptions.insert session ()
    attachments := c.attachments.insert a bound }

/-- The last section of `bind_record`: the checks again, then the registration. Nothing changes on
an error. -/
def bindRecord (own : DeviceIdentity) (a : Attachment) (record : RegistrationRecord)
    (descriptor : DescriptorOf record.sessionId) (seq : Option Nat) :
    Core × Except PipelineError AttachmentEntry :=
  match (c.attachments.lookup a).filter fun e => e.isOpen && e.session.isNone with
  | none => (c, .error .alreadyBound)
  | some e =>
    if (c.sessions.lookup record.sessionId).isSome then (c, .error .alreadyBound)
    else match c.engine.registerSession record own with
      | (false, _) => (c, .error .invalidRegistration)
      | (true, engine) =>
        let bound := boundEntry e record.sessionId record.nativeId seq
        (c.register engine a bound record.sessionId descriptor, .ok bound)

/-! Native signals. -/

/-- Whether the attachment a value was issued on may be paired now by a carrier observed with
`key`. -/
def mayPair (key : PairingKey) (a : Attachment) : Bool :=
  (c.attachments.lookup a).any (fun e => e.adapter == adapter && e.isOpen) && c.observedKey a == some key

def revealOf : RevealOutcome Attachment → Reveal
  | .fresh a => .issued a
  | .conflict a => .conflict a
  | .ended _ => .rejected "MCPB-ATT-009"
  | .replayed _ => .rejected "MCPB-ATT-010"
  | .refused _ => .rejected "MCPB-ATT-022"
  | .unknown => .rejected "MCPB-ATT-007"

/-- What the revealed value of a signal means, and the pairing windows it leaves. -/
def classifyReveal (signal : NativeSignal) (key : Option PairingKey)
    (now : Instant) : Reveal × PairingWindows Attachment :=
  match signal.revealed with
  | none => (.none, c.pairing)
  | some value =>
    match key, signal.connection.any fun h => c.carriers.lookup h == some adapter with
    | some key, true =>
      let (outcome, pairing) := c.pairing.reveal value signal.nativeId now (c.mayPair adapter key)
      (revealOf outcome, pairing)
    | _, _ => (.rejected "MCPB-ATT-006", c.pairing)

def pendingVictim (holder : SignalHolder) : Option Nat :=
  fairShareVictim (c.held.map (fun h => (.key h.adapter h.key, h.seq)) ++
    c.signals.map (fun q => (q.holder, q.seq))) holder

/-- The pending signal `seq` taken out, with how it pairs now. -/
def takePending (seq : Nat) : Core × Option Dropped :=
  match c.held.find? (·.seq == seq) with
  | some h =>
    ({ c with held := c.held.eraseP (·.seq == seq) }, some ⟨h.signal, c.pairByKey h.adapter h.key none, seq⟩)
  | none =>
    match c.signals.find? (·.seq == seq) with
    | some q =>
      ({ c with signals := c.signals.eraseP (·.seq == seq) },
        some ⟨q.signal, c.attempt q.adapter q.key q.reveal, seq⟩)
    | none => (c, none)

def pushSignal (q : QueuedSignal) : Core := { c with signals := c.signals ++ [q] }

/-- The queued form of a signal reported now, and the core that has numbered it. -/
def numberSignal (signal : NativeSignal) (now : Instant) : Core × QueuedSignal :=
  let key := c.signalKey adapter signal
  let (reveal, pairing) := c.classifyReveal adapter signal key now
  ({ c with pairing := pairing, nextSignalSeq := c.nextSignalSeq + 1 },
    ⟨adapter, signal, key, c.nextSignalSeq, reveal⟩)

/-- A numbered signal queued within the bound, and the signal that goes instead, if any. -/
def enqueue (config : PipelineConfig) (q : QueuedSignal) : Core × Option Dropped :=
  if c.signals.length + c.held.length < max config.maxPendingSignals 1 then (c.pushSignal q, none)
  else match c.pendingVictim q.holder with
    | some victim =>
      let (taken, dropped) := c.takePending victim
      (taken.pushSignal q, dropped)
    | none => (c, some ⟨q.signal, c.attempt q.adapter q.key q.reveal, q.seq⟩)

def queueSignal (config : PipelineConfig) (adapter : AdapterId) (signal : NativeSignal)
    (now : Instant) : Core × QueuedSignal × Option Dropped :=
  let (numbered, q) := c.numberSignal adapter signal now
  match q.reveal with
  | .rejected requirement => (numbered, q, some ⟨signal, .rejected requirement, q.seq⟩)
  | _ =>
    let (queued, dropped) := numbered.enqueue config q
    (queued, q, dropped)

/-- The held signals whose window ended, with how each pairs now. -/
def expireHeld (config : PipelineConfig) (now : Instant) : Core × List Dropped :=
  let overdue (h : HeldSignal) : Bool := now ≥ h.heldAt + config.nativeSignalWindow
  let kept := { c with held := c.held.filter (!overdue ·) }
  (kept, (c.held.filter overdue).map fun h => ⟨h.signal, kept.pairByKey h.adapter h.key none, h.seq⟩)

/-- The held signal `seq` when it is no longer waiting for a candidate, taken out to be resolved. -/
def takeHeld (seq : Nat) : Core × Option (HeldSignal × PairAttempt) :=
  match c.held.find? (·.seq == seq) with
  | none => (c, none)
  | some h =>
    match c.pairByKey h.adapter h.key none with
    | .notYet _ => (c, none)
    | attempt => ({ c with held := c.held.eraseP (·.seq == seq) }, some (h, attempt))

def popSignal : Core × Option QueuedSignal :=
  match c.signals with
  | [] => (c, none)
  | q :: rest => ({ c with signals := rest }, some q)

def holdSignal (h : HeldSignal) : Core := { c with held := c.held ++ [h] }

def notePaired (a : Attachment) : Core := { c with pairing := c.pairing.paired a }

/-- A held signal of the same adapter and key that arrived before `seq`. -/
def superseded (key : PairingKey) (seq : Nat) (h : HeldSignal) : Bool :=
  h.adapter == adapter && h.key == key && h.seq < seq

def notedBy (seq : Nat) (e : AttachmentEntry) : AttachmentEntry :=
  { e with pairedSeq := some (e.pairedSeq.elim seq (max · seq)) }

/-- The first section of `resolve` for a signal paired with `a`: the pairing is noted, and the
window of every older held signal of the attachment's observed key ends. -/
def supersede (a : Attachment) (seq : Nat) : Core :=
  let noted := c.modifyEntry a (notedBy seq)
  match c.observedKey a with
  | some key => { noted with held := c.held.filter (!superseded adapter key seq ·) }
  | none => noted

end Signals

/-- A pairing value for a refusal of a request from `a`, when it can be paired. -/
def pairingValueFor (closedHandles : List Attachment) (adapter : AdapterId) (a : Attachment)
    (now : Instant) (fresh : Option String) : Core :=
  match c.attachments.lookup a, c.observedKey a with
  | some e, some key =>
    let carried := c.carriers.entries.any fun h =>
      h.2 == adapter && c.connections.lookup h.1 == some adapter && c.observedKey h.1 == some key
    if e.adapter == adapter && e.isOpen && !closedHandles.contains a && carried then
      { c with pairing := (c.pairing.issue a now fresh).2 }
    else c
  | _, _ => c

end Core

end Oac
