import Oac.Authorization.OwnSessions
import Oac.Foundation.Threads
import Oac.Pipeline.Core

/-! The pipelines' threads (`Inner` in `core/src/pipeline.rs`): every call is a stack of frames, one
frame for each hold of the core lock and one for each call into an adapter or the transport. Any
thread may run its first frame next. The binding turn is a stack of its own, since only its holder
decides signals and binds. What comes from outside (clocks, random values, an adapter's answer) is
part of the step. The log of what happened is for the properties only; nothing reads it. -/

namespace Oac

inductive AdapterEvent where
  | attachmentOpened (attachment : Attachment) (crossCheck : Option String)
  | nativeSignal (signal : NativeSignal)
  | capabilitiesChanged (attachment : Attachment)
  | attachmentClosed (attachment : Attachment)
  | attachmentUnconfirmed (attachment : Attachment)
  deriving DecidableEq

/-- A frame any thread may run. A frame of `unbind` keeps the arrival number of the signal it is run
for, if any. -/
inductive Frame where
  | lockOnly
  | attachmentOpened (adapter : AdapterId) (a : Attachment) (crossCheck : Option String)
  | noteRepair
  | attachmentClosed (adapter : AdapterId) (a : Attachment)
  | markClosed (a : Attachment)
  | unbindRead (a : Attachment) (origin : Option Nat)
  | unbindWrite (a : Attachment) (session : SessionId) (origin : Option Nat)
  | setUnbound (a : Attachment)
  | forgetConnection (a : Attachment)
  | unbindAll
  | capabilitiesRead (adapter : AdapterId) (a : Attachment)
  | capabilitiesAsk (a : Attachment) (session : SessionId) (descriptor : SessionDescriptor) (limit : Option Nat)
  | capabilitiesWrite (session : SessionId) (updated : DescriptorOf session)
  | stopUnconfirmed (adapter : AdapterId) (a : Attachment)
  | queueSignal (adapter : AdapterId) (signal : NativeSignal) (now : Instant)
  | withhold (a : Attachment) (seq : Nat)
  | drainBinding
  | drainMore
  | request (adapter : AdapterId) (a : Attachment) (now : Instant)
  | handOff (msg : ChannelMessage)
  | recordHandOff (adapter : AdapterId) (a : Attachment) (msg : ChannelMessage)
  | deliver (adapter : AdapterId) (a : Attachment) (msg : ChannelMessage)
  | delivered (adapter : AdapterId) (a : Attachment) (msg : ChannelMessage)
  | forgetHandOff (record : HandOffRecord)

/-- A frame that only the holder of the binding turn runs. -/
inductive TurnFrame where
  | plain (action : Frame)
  | passStart
  | passExpire (now : Instant)
  | listHeld (queued : Nat) (now : Instant)
  | decideHeld (seq : Nat)
  | popQueued (left : Nat) (now : Instant)
  | attemptQueued (q : QueuedSignal) (now : Instant)
  | notePaired (a : Attachment)
  | holdSignal (h : HeldSignal)
  | supersede (adapter : AdapterId) (signal : NativeSignal) (a : Attachment) (seq : Nat)
  | decide (adapter : AdapterId) (signal : NativeSignal) (pairing : Pairing Attachment)
      (attributed : List Attachment) (seq : Nat)
  | bindFromSignal (a : Attachment) (nativeId : String) (seq : Nat)
  | bindCheck (a : Attachment) (record : RegistrationRecord) (displayName : Option String) (seq : Option Nat)
  | describe (a : Attachment) (record : RegistrationRecord) (displayName : Option String)
      (seq : Option Nat) (limit : Option Nat)
  | bindRecord (a : Attachment) (record : RegistrationRecord)
      (descriptor : DescriptorOf record.sessionId) (seq : Option Nat)
  | setBound (a : Attachment) (session : SessionId)
  | releaseWithheld (a : Attachment) (seq : Nat)

/-- The binding turn: what its holder still has to do, and what it does once it let the turn go. -/
structure Turn where
  work : List TurnFrame
  after : List Frame

structure LocalClosures where
  connections : Table Attachment AdapterId
  pending : Table Attachment AdapterId

/-- What happened, for the properties of runs. -/
inductive PipelineEvent where
  /-- A native signal was reported and numbered. -/
  | reported (adapter : AdapterId) (key : Option PairingKey) (seq : Nat)
  /-- `resolve` was called for a signal paired with the attachment. -/
  | paired (adapter : AdapterId) (key : Option PairingKey) (a : Attachment) (seq : Nat)
  /-- The pairing was noted in the attachment's entry. -/
  | noted (a : Attachment) (seq : Nat)
  /-- An arrival number withholds the attachment. -/
  | stopped (a : Attachment) (seq : Nat)
  | bound (a : Attachment) (session : SessionId) (seq : Option Nat)
  | unbound (a : Attachment) (session : SessionId) (origin : Option Nat)
  /-- A `set_binding` call took effect in the adapter. -/
  | told (a : Attachment) (session : Option SessionId)
  deriving DecidableEq

structure PipelineSetup where
  identity : DeviceIdentity
  config : PipelineConfig

structure Pipelines where
  core : Core
  closures : LocalClosures
  /-- The handles given to an adapter so far. -/
  given : List Attachment
  /-- The handles whose closure has begun. -/
  closedHandles : List Attachment
  repairNeeded : Bool
  turn : Option Turn
  threads : List (List Frame)
  /-- Newest first. -/
  log : List PipelineEvent

/-- What one frame takes from outside the pipelines. -/
structure Ext where
  now : Timestamp
  instant : Instant
  /-- The adapter's answer to a question for its capabilities; nothing when the call failed. -/
  capabilities : Option AdapterCapabilities
  /-- Whether the transport took the subscription. -/
  subscribed : Bool
  /-- The registration record the device makes for a binding from a signal, under a fresh id. -/
  record : Option RegistrationRecord
  /-- A fresh pairing value from the random source. -/
  value : Option String
  /-- How an adapter's hand-off call ended. -/
  outcome : HandOffOutcome

def unbindFrames (a : Attachment) (origin : Option Nat) : List Frame := [.unbindRead a origin]

def endConnection (a : Attachment) : List Frame :=
  .markClosed a :: (unbindFrames a none ++ [.forgetConnection a])

/-- The frames of `drop_signal`: a conflicting reveal ends its binding, and a signal attributed to
an attachment withholds it. -/
def dropSignal (attempt : PairAttempt) (seq : Nat) : List Frame :=
  match attempt with
  | .rejected _ | .notYet _ => []
  | .conflict a => .lockOnly :: unbindFrames a (some seq)
  | .paired a => [.withhold a seq]
  | .unpairable bound => bound.map (.withhold · seq)

def afterQueuedSignal (dropped : Option Dropped) : List Frame :=
  dropped.elim [] (fun d => dropSignal d.attempt d.seq) ++ [.drainBinding]

/-- What follows `stop_unconfirmed`: a bound attachment's adapter is told. -/
def finishUnconfirmed (a : Attachment) (stopped : Option (Option SessionId)) : List Frame :=
  match stopped with
  | some (some _) => [.setUnbound a]
  | _ => []

def onAdapterEvent (adapter : AdapterId) (now : Instant) : AdapterEvent → List Frame
  | .attachmentOpened a crossCheck => [.attachmentOpened adapter a crossCheck, .noteRepair, .drainBinding]
  | .attachmentClosed a => [.attachmentClosed adapter a]
  | .capabilitiesChanged a => [.capabilitiesRead adapter a]
  | .attachmentUnconfirmed a => [.stopUnconfirmed adapter a]
  | .nativeSignal signal => [.queueSignal adapter signal now]

def resolve (adapter : AdapterId) (signal : NativeSignal) (attempt : PairAttempt) (seq : Nat) :
    List TurnFrame :=
  match attempt with
  | .paired a => [.supersede adapter signal a seq]
  | .unpairable bound => [.decide adapter signal .unpairable bound seq]
  | .notYet _ | .rejected _ | .conflict _ => []

/-- The frames that make the change a decision asks for. -/
def actOn (action : BindingAction Attachment) (seq : Nat) : List TurnFrame :=
  match action with
  | .none => []
  | .deregister a => (unbindFrames a (some seq)).map .plain
  | .bind a nativeId deregisterFirst =>
    (if deregisterFirst then (unbindFrames a (some seq)).map .plain else []) ++ [.bindFromSignal a nativeId seq]

namespace Pipelines

def new (engine : AuthorizationEngine) (setup : PipelineSetup)
    (caps : Option TransportCapabilities) : Pipelines where
  core := .new engine setup.config caps
  closures := ⟨∅, ∅⟩
  given := []
  closedHandles := []
  repairNeeded := false
  turn := none
  threads := []
  log := []

variable (w : Pipelines)

/-- Taking the core lock applies every pending closure first. -/
def locked (now : Timestamp) : Pipelines :=
  { w with
    core := w.closures.pending.entries.foldl (fun c e => c.applyClosure e.1 e.2 now) w.core
    closures := { w.closures with pending := ∅ } }

def update (now : Timestamp) (change : Core → Core) : Pipelines :=
  let w := w.locked now
  { w with core := change w.core }

def note (event : PipelineEvent) : Pipelines := { w with log := event :: w.log }

def noteAll (events : List PipelineEvent) : Pipelines := { w with log := events ++ w.log }

def spawn (frames : List Frame) : Pipelines := { w with threads := Threads.spawn w.threads frames }

/-- `stop_unconfirmed` under the lock: the attachment's stop is noted, and the session it was bound
to. -/
def stopUnconfirmed (now : Timestamp) (adapter : AdapterId) (a : Attachment) :
    Pipelines × Option (Option SessionId) :=
  let w := w.locked now
  let (core, stopped) := w.core.stopUnconfirmed adapter a
  ({ w with core := core }.noteAll (stopped.elim [] fun _ => [.stopped a w.core.nextSignalSeq]), stopped)

def queueSignal (config : PipelineConfig) (clock : Timestamp) (adapter : AdapterId)
    (signal : NativeSignal) (now : Instant) : Pipelines × Option Dropped :=
  let w := w.locked clock
  let (core, q, dropped) := w.core.queueSignal config adapter signal now
  ({ w with core := core }.note (.reported adapter q.key q.seq), dropped)

/-- What running a frame leaves, and the frames to run before the rest of the stack. -/
def perform (p : PipelineSetup) (x : Ext) (w : Pipelines) : Frame → Pipelines × List Frame
  | .lockOnly => (w.locked x.now, [])
  | .attachmentOpened adapter a crossCheck => (w.update x.now (·.attachmentOpened adapter a crossCheck), [])
  | .noteRepair => ({ w with repairNeeded := true }, [])
  | .attachmentClosed adapter a =>
    let w := w.locked x.now
    (w, if (w.core.attachments.lookup a).any (·.adapter == adapter) then endConnection a else [])
  | .markClosed a => (w.update x.now (·.markClosed a), [])
  | .unbindRead a origin =>
    let w := w.locked x.now
    (w, match w.core.boundSession a with
      | some session => [.unbindWrite a session origin, .setUnbound a]
      | none => [])
  | .unbindWrite a session origin =>
    ((w.update x.now (·.unbind a session x.now)).note (.unbound a session origin), [])
  | .setUnbound a => (w.note (.told a none), [])
  | .forgetConnection a =>
    let w := w.update x.now (·.forgetConnection a)
    ({ w with closures := { w.closures with connections := w.closures.connections.erase a } }, [])
  | .unbindAll =>
    let w := w.locked x.now
    (w, w.core.attachments.keys.flatMap (unbindFrames · none))
  | .capabilitiesRead adapter a =>
    let w := w.locked x.now
    (w, match (w.core.attachments.lookup a).filter (·.adapter == adapter) with
      | some e =>
        match e.session with
        | some session =>
          match w.core.registry.ownDescriptor session with
          | some descriptor => [.capabilitiesAsk a session descriptor (envelopeLimit w.core.transportCaps)]
          | none => []
        | none => []
      | none => [])
  | .capabilitiesAsk a session descriptor limit =>
    (w, match x.capabilities with
      | some caps =>
        if w.closedHandles.contains a then []
        else match describeSession session caps limit descriptor.displayName descriptor.harnessLabel with
          | some updated => [.capabilitiesWrite session updated]
          | none => []
      | none => [])
  | .capabilitiesWrite _ updated =>
    (w.update x.now fun c => { c with registry := c.registry.registerOwn updated.1 }, [])
  | .stopUnconfirmed adapter a =>
    let (w, stopped) := w.stopUnconfirmed x.now adapter a
    (w, finishUnconfirmed a stopped)
  | .queueSignal adapter signal now =>
    let (w, dropped) := w.queueSignal p.config x.now adapter signal now
    (w, afterQueuedSignal dropped)
  | .withhold a seq =>
    let w := w.locked x.now
    match w.core.withhold a seq with
    | (core, some told) => ({ w with core := core }.note (.stopped a seq), if told then [.setUnbound a] else [])
    | (_, none) => (w, [])
  | .drainBinding =>
    match w.turn with
    | some _ => (w, [])
    | none => ({ w with turn := some ⟨[.passStart], [.drainMore]⟩ }, [])
  | .drainMore =>
    let w := w.locked x.now
    (w, if w.core.signals.isEmpty && !w.repairNeeded then [] else [.drainBinding])
  | .request adapter a now =>
    let w := w.locked x.now
    match w.core.requester w.closedHandles adapter a with
    | some _ => (w, [])
    | none => ({ w with core := w.core.pairingValueFor w.closedHandles adapter a now x.value }, [])
  | .handOff msg =>
    let w := w.locked x.now
    (w, match w.core.handOffTarget msg.envelope.toSession with
      | some (adapter, a) => if msg.verifiedBy.isSome then [.recordHandOff adapter a msg] else []
      | none => [])
  | .recordHandOff adapter a msg =>
    (w.update x.now fun c => { c with
      engine := c.engine.recordHandoff (.of msg.envelope) .handedToHarness x.now }, [.deliver adapter a msg])
  | .deliver adapter a msg => (w, [.delivered adapter a msg])
  | .delivered _ _ msg => (w, if x.outcome.mayBeHandedOff then [] else [.forgetHandOff (.of msg.envelope)])
  | .forgetHandOff record =>
    (w.update x.now fun c => { c with engine := (c.engine.forgetHandoff record).2 }, [])

/-- The record fits what `bind_from_signal` registers: a fresh session id over the observed
scope. -/
def recordFits (c : Core) (a : Attachment) (nativeId : String) (record : RegistrationRecord) : Bool :=
  (c.sessions.lookup record.sessionId).isNone && record.nativeId == nativeId &&
    (c.observed.lookup a).any fun o =>
      o.harnessLabel == some record.harnessLabel && o.workingDirectory == some record.workingDirectory

/-- What running a frame of the binding turn leaves. -/
def performTurn [Libraries] (p : PipelineSetup) (x : Ext) (w : Pipelines) :
    TurnFrame → Option (Pipelines × List TurnFrame)
  | .plain action =>
    let (w, frames) := w.perform p x action
    some (w, frames.map .plain)
  | .passStart => some ({ w with repairNeeded := false }, [.passExpire x.instant])
  | .passExpire now =>
    let w := w.locked x.now
    let (core, dropped) := w.core.expireHeld p.config now
    some ({ w with core := core },
      (dropped.flatMap fun d => dropSignal d.attempt d.seq).map .plain ++ [.listHeld core.signals.length now])
  | .listHeld queued now =>
    let w := w.locked x.now
    some (w, w.core.held.map (.decideHeld ·.seq) ++ [.popQueued queued now])
  | .decideHeld seq =>
    let w := w.locked x.now
    match w.core.takeHeld seq with
    | (_, none) => some (w, [])
    | (core, some (h, attempt)) =>
      let w := { w with core := core }
      let w := match attempt with
        | .paired a => w.note (.paired h.adapter (some h.key) a seq)
        | _ => w
      some (w, resolve h.adapter h.signal attempt seq)
  | .popQueued 0 _ => some (w, [])
  | .popQueued (left + 1) now =>
    let w := w.locked x.now
    match w.core.popSignal with
    | (_, none) => some (w, [])
    | (core, some q) => some ({ w with core := core }, [.attemptQueued q now, .popQueued left now])
  | .attemptQueued q now =>
    let w := w.locked x.now
    match w.core.attempt q.adapter q.key q.reveal with
    | .paired a =>
      let counts := match q.reveal with
        | .issued _ => [TurnFrame.notePaired a]
        | _ => []
      some (w.note (.paired q.adapter q.key a q.seq), counts ++ resolve q.adapter q.signal (.paired a) q.seq)
    | .notYet key => some (w, [.holdSignal ⟨q.adapter, q.signal, key, now, q.seq⟩])
    | .unpairable bound => some (w, resolve q.adapter q.signal (.unpairable bound) q.seq)
    | .rejected requirement => some (w, (dropSignal (.rejected requirement) q.seq).map .plain)
    | .conflict a => some (w, (dropSignal (.conflict a) q.seq).map .plain)
  | .notePaired a => some (w.update x.now (·.notePaired a), [])
  | .holdSignal h => some (w.update x.now (·.holdSignal h), [])
  | .supersede adapter signal a seq =>
    some ((w.update x.now (·.supersede adapter a seq)).note (.noted a seq),
      [.decide adapter signal (.paired a) [] seq, .releaseWithheld a seq])
  | .decide adapter signal pairing attributed seq =>
    let w := w.locked x.now
    let decision := decideBinding (w.core.attachmentStates adapter) signal pairing
    some (w, (attributed.map fun a => .plain (.withhold a seq)) ++ actOn decision.action seq)
  | .bindFromSignal a nativeId seq =>
    let w := w.locked x.now
    match x.record with
    | none => some (w, [])
    | some record =>
      if recordFits w.core a nativeId record then some (w, [.bindCheck a record none (some seq)]) else none
  | .bindCheck a record displayName seq =>
    let w := w.locked x.now
    match w.core.bindCheck a record.sessionId with
    | .error _ => some (w, [])
    | .ok limit => some (w, [.describe a record displayName seq limit])
  | .describe a record displayName seq limit =>
    match x.capabilities with
    | none => some (w, [])
    | some caps =>
      if w.closedHandles.contains a || !x.subscribed then some (w, [])
      else match describeSession record.sessionId caps limit displayName (some record.harnessLabel) with
        | none => some (w, [])
        | some descriptor => some (w, [.bindRecord a record descriptor seq])
  | .bindRecord a record descriptor seq =>
    let w := w.locked x.now
    match w.core.bindRecord p.identity a record descriptor seq with
    | (_, .error _) => some (w, [])
    | (core, .ok bound) =>
      some ({ w with core := core }.note (.bound a record.sessionId seq),
        if bound.withheld then [] else [.setBound a record.sessionId])
  | .setBound a session => some (w.note (.told a (some session)), [])
  | .releaseWithheld a seq =>
    let w := w.locked x.now
    match w.core.releaseWithheld a seq with
    | (core, some session) => some ({ w with core := core }, [.setBound a session])
    | (core, none) => some ({ w with core := core }, [])

end Pipelines

/-- One step of the pipelines or of their environment. -/
inductive Label where
  | addAdapter (now : Timestamp)
  | connect (a : Attachment) (adapter : AdapterId) (observation : PeerObservation) (carrier : Bool)
      (now : Timestamp)
  /-- An adapter reports an event on its own thread. -/
  | report (adapter : AdapterId) (event : AdapterEvent) (now : Instant)
  /-- An adapter reports an event through the cooperative local-call path. -/
  | reportLocal (adapter : AdapterId) (event : AdapterEvent) (now : Instant) (clock : Timestamp)
  | closeHandle (a : Attachment)
  | bind (a : Attachment) (record : RegistrationRecord) (displayName : Option String)
  | unbind (a : Attachment)
  | disconnect (a : Attachment)
  | expireSignals
  | request (adapter : AdapterId) (a : Attachment) (now : Instant)
  | handOff (msg : ChannelMessage)
  | engine (op : AuthorizationEngine.Op) (now : Timestamp)
  | registry (op : PresenceRegistry.Op) (now : Timestamp)
  | lockOnly (now : Timestamp)
  | shutdown
  /-- Thread `i` runs its first frame. -/
  | run (i : Nat) (x : Ext)
  /-- The holder of the binding turn runs its first frame. -/
  | turn (x : Ext)
  /-- The holder of the binding turn lets it go. -/
  | releaseTurn

namespace Pipelines

/-- A connection within the bound, under a handle not given before. -/
def connect (p : PipelineSetup) (w : Pipelines) (a : Attachment) (adapter : AdapterId)
    (observation : PeerObservation) (carrier : Bool) (now : Timestamp) : Option Pipelines :=
  let w := w.locked now
  if a ∈ w.given ∨ w.core.adapters ≤ adapter ∨ p.config.maxConnections ≤ w.core.connections.size then none
  else some { w with
    core := w.core.connectDesignated a adapter observation carrier
    closures := { w.closures with connections := w.closures.connections.insert a adapter }
    given := a :: w.given }

/-- A closure is recorded under its own lock; any other event is taken under the core lock, and the
rest of it is left to a worker. -/
def reportLocal (p : PipelineSetup) (w : Pipelines) (adapter : AdapterId)
    (now : Instant) (clock : Timestamp) (event : AdapterEvent) : Pipelines :=
  match event with
  | .attachmentClosed a =>
    if w.closures.connections.lookup a = some adapter then
      { w with closures := ⟨w.closures.connections.erase a,
        w.closures.pending.insert a adapter⟩ }.spawn [.lockOnly]
    else w
  | .attachmentOpened a crossCheck =>
    (w.update clock (·.attachmentOpened adapter a crossCheck)).spawn
      (onAdapterEvent adapter now (.attachmentOpened a crossCheck))
  | .attachmentUnconfirmed a =>
    let (w, stopped) := w.stopUnconfirmed clock adapter a
    w.spawn (finishUnconfirmed a stopped)
  | .nativeSignal signal =>
    let (w, dropped) := w.queueSignal p.config clock adapter signal now
    w.spawn (afterQueuedSignal dropped)
  | .capabilitiesChanged a => (w.locked clock).spawn (onAdapterEvent adapter now (.capabilitiesChanged a))

section Steps

variable [Libraries]

def step (p : PipelineSetup) (label : Label) (w : Pipelines) : Option Pipelines :=
  match label with
  | .addAdapter now => some (w.update now fun c => { c with adapters := c.adapters + 1 })
  | .connect a adapter observation carrier now => w.connect p a adapter observation carrier now
  | .report adapter event now => some (w.spawn (onAdapterEvent adapter now event))
  | .reportLocal adapter event now clock => some (w.reportLocal p adapter now clock event)
  | .closeHandle a => some { w with closedHandles := a :: w.closedHandles }
  | .bind a record displayName =>
    match w.turn with
    | some _ => none
    | none => some { w with turn := some ⟨[.bindCheck a record displayName none], [.drainBinding]⟩ }
  | .unbind a => some (w.spawn (unbindFrames a none))
  | .disconnect a => some (w.spawn (endConnection a))
  | .expireSignals => some (w.spawn [.drainBinding])
  | .request adapter a now => some (w.spawn [.request adapter a now])
  | .handOff msg => some (w.spawn [.handOff msg])
  | .engine op now =>
    if op.keepsOwn then some (w.update now fun c => { c with engine := c.engine.after op }) else none
  | .registry op now => some (w.update now fun c => { c with registry := c.registry.after op })
  | .lockOnly now => some (w.locked now)
  | .shutdown => some (w.spawn [.lockOnly, .unbindAll])
  | .run i x =>
    match w.threads[i]? with
    | some (action :: rest) =>
      let (w', frames) := w.perform p x action
      some { w' with threads := Threads.advance w'.threads i frames rest }
    | _ => none
  | .turn x =>
    match w.turn with
    | some ⟨action :: rest, after⟩ =>
      (w.performTurn p x action).map fun (w', frames) => { w' with turn := some ⟨frames ++ rest, after⟩ }
    | _ => none
  | .releaseTurn =>
    match w.turn with
    | some ⟨[], after⟩ => some ({ w with turn := none }.spawn after)
    | _ => none

/-- The states a run of the pipelines leads to, over a new core with any engine that has no own
session yet. -/
def Reachable (p : PipelineSetup) (guard : Label → Pipelines → Prop) (w : Pipelines) : Prop :=
  ∃ engine caps, engine.ownSessions = ∅ ∧ Transition.Reaches (step p) guard (new engine p caps) w

variable {guard : Label → Pipelines → Prop}

/-- What holds of every new pipelines and is kept by every guarded step holds in every state
reached. -/
theorem Reachable.invariant {P : Pipelines → Prop}
    (reachable : Reachable p guard w)
    (starts : ∀ engine caps, engine.ownSessions = ∅ → P (new engine p caps))
    (keeps : ∀ label w w', guard label w → step p label w = some w' → P w → P w') : P w := by
  obtain ⟨engine, caps, noOwn, run⟩ := reachable
  exact Transition.Reaches.invariant keeps run (starts engine caps noOwn)

/-- Taking the lock is a step of its own. -/
theorem Reachable.locked
    (reachable : Reachable p guard w) (now : Timestamp) (allowed : guard (.lockOnly now) w) :
    Reachable p guard (w.locked now) := by
  obtain ⟨engine, caps, noOwn, run⟩ := reachable
  exact ⟨engine, caps, noOwn, run.tail ⟨.lockOnly now, allowed, rfl⟩⟩

end Steps

end Pipelines

end Oac
