import Oac.Adapter.Bindings
import Oac.Pipeline.Told

/-! The pipelines together with their adapters. The core picks the attachment of a hand-off under
its lock and calls the adapter after it let the lock go; the adapter takes its own lock several
times in one `deliver`. A `set_binding` call takes effect in one hold of the adapter's lock, under
the admission of the call (`core/src/adapter_boundary.rs`, `core/src/local_call.rs`); one that is
refused or late takes no effect and closes the connection. -/

namespace Oac

/-- How far an adapter's `deliver` has come. -/
inductive CallStage where
  | entered
  | checked
  | recorded
  /-- The harness input call has been made. -/
  | started
  | ended (outcome : HandOffOutcome)
  deriving DecidableEq

/-- What `deliver` does next. -/
inductive CallStep where
  /-- The call is admitted in time or not, and the message's text is made or refused. -/
  | enter (admitted : Bool) (refusal : Option HandOffOutcome)
  | check
  /-- The attempt is kept, unless the client says that the thread is not served. -/
  | record (served : Bool)
  | start
  | finish (outcome : HandOffOutcome)
  deriving DecidableEq

/-- One step of `deliver` on the attachment, for a call at `stage`. -/
def Provider.advance (s : Provider) (closed : Bool) (a : Attachment) (env : Envelope)
    (stage : Option CallStage) (step : CallStep) : Option (Provider × CallStage) :=
  match stage, step with
  | none, .enter admitted refusal =>
    if !admitted || closed || s.down then some (s, .ended .failed)
    else match refusal with
      | some outcome => some (s, .ended outcome)
      | none => some (s, .entered)
  | some .entered, .check => some (s, if s.ready a then .checked else .ended .failed)
  | some .checked, .record served =>
    if s.asks && !served then some (s, .ended .failed) else some (s.recordHanded a env, .recorded)
  | some .recorded, .start => some (s, if s.mayStart then .started else .ended .failed)
  | some .started, .finish outcome =>
    some (if outcome = .completed then s.complete a env else s, .ended outcome)
  | _, _ => none

/-- What the adapters see: the `set_binding` calls that completed, and the harness input calls made
for messages to a session. -/
inductive BoundaryEvent where
  | told (a : Attachment) (session : Option SessionId)
  | input (a : Attachment) (session : SessionId)
  deriving DecidableEq

def BoundaryEvent.told? : BoundaryEvent → Option (Attachment × Option SessionId)
  | .told a session => some (a, session)
  | .input _ _ => none

inductive ProviderKind where
  | claude
  | codex
  deriving DecidableEq

def Provider.new : ProviderKind → Provider
  | .claude => .claude .new
  | .codex => .codex .new

def ProviderEvent.takes : ProviderEvent → Option Attachment
  | .claude (.takeConnection a) | .codex (.takeConnection a _) => some a
  | _ => none

structure System where
  pipelines : Pipelines
  providers : AdapterId → Provider
  /-- The adapter each connection was given to. -/
  owner : Table Attachment AdapterId
  /-- The `deliver` call that a thread is in. -/
  calls : Table Nat CallStage
  /-- Newest first. -/
  log : List BoundaryEvent

inductive SystemLabel where
  /-- A step of the pipelines; a `set_binding` call it makes completes or not. -/
  | core (label : Label) (completes : Bool)
  | call (i : Nat) (step : CallStep)
  | adapter (adapter : AdapterId) (event : ProviderEvent)

namespace System

def new (engine : AuthorizationEngine) (p : PipelineSetup) (caps : Option TransportCapabilities)
    (kinds : AdapterId → ProviderKind) : System where
  pipelines := .new engine p caps
  providers := fun adapter => .new (kinds adapter)
  owner := ∅
  calls := ∅
  log := []

variable (s : System)

def tolds : List (Attachment × Option SessionId) := s.log.filterMap BoundaryEvent.told?

def setProvider (adapter : AdapterId) (provider : Provider) : System :=
  { s with providers := Function.update s.providers adapter provider }

def setBinding (a : Attachment) (session : Option SessionId) : System :=
  match s.owner.lookup a with
  | some adapter => s.setProvider adapter ((s.providers adapter).setBinding a session)
  | none => s

def tell (a : Attachment) (session : Option SessionId) (completes : Bool) : System :=
  if completes ∧ a ∉ s.pipelines.closedHandles then
    { s.setBinding a session with log := .told a session :: s.log }
  else { s with pipelines := { s.pipelines with closedHandles := a :: s.pipelines.closedHandles } }

/-- A thread that called `deliver` goes on once the call has ended, with its outcome. -/
def goesOn : Label → Bool
  | .run i x =>
    match s.pipelines.threads[i]? with
    | some (.deliver _ _ _ :: _) =>
      match s.calls.lookup i with
      | some (.ended _) => true
      | _ => false
    | some (.delivered _ _ _ :: _) => s.calls.lookup i == some (.ended x.outcome)
    | _ => true
  | _ => true

def callsAfter : Label → Table Nat CallStage
  | .run i _ =>
    match s.pipelines.threads[i]? with
    | some (.delivered _ _ _ :: _) => s.calls.erase i
    | _ => s.calls
  | _ => s.calls

def ownerAfter : Label → Table Attachment AdapterId
  | .connect a adapter _ _ _ => s.owner.insert a adapter
  | _ => s.owner

def moved (label : Label) (w : Pipelines) : System :=
  { s with pipelines := w, owner := s.ownerAfter label, calls := s.callsAfter label }

def called (i : Nat) (adapter : AdapterId) (a : Attachment) (session : SessionId)
    (provider : Provider) (stage : CallStage) : System :=
  { s.setProvider adapter provider with
    calls := s.calls.insert i stage
    log := if stage = .started then .input a session :: s.log else s.log }

section Steps

variable [Libraries]

def step (p : PipelineSetup) (label : SystemLabel) (s : System) : Option System :=
  match label with
  | .core label completes =>
    if s.goesOn label then
      (Pipelines.step p label s.pipelines).map fun w =>
        match label.tells s.pipelines with
        | some (a, session) => (s.moved label w).tell a session completes
        | none => s.moved label w
    else none
  | .call i step =>
    match s.pipelines.threads[i]? with
    | some (.deliver adapter a msg :: _) =>
      ((s.providers adapter).advance (s.pipelines.closedHandles.contains a) a msg.envelope (s.calls.lookup i)
        step).map fun after => s.called i adapter a msg.envelope.toSession after.1 after.2
    | _ => none
  | .adapter adapter event =>
    if event.takes.all (s.owner.lookup · == some adapter) then
      some (s.setProvider adapter ((s.providers adapter).after event))
    else none

/-- The states a run leads to, over a new core without own sessions and new adapters of any
kinds. -/
def Reachable (p : PipelineSetup) (guard : SystemLabel → System → Prop) (s : System) : Prop :=
  ∃ engine caps kinds, engine.ownSessions = ∅ ∧ Transition.Reaches (step p) guard (new engine p caps kinds) s

end Steps

/-- The attachment and the session of a hand-off that thread `i` has looked up and whose input call
it has not made yet. -/
def awaits (i : Nat) : Option (Attachment × SessionId) :=
  match s.pipelines.threads[i]? with
  | some (.recordHandOff _ a msg :: _) => some (a, msg.envelope.toSession)
  | some (.deliver _ a msg :: _) =>
    match s.calls.lookup i with
    | some .started | some (.ended _) => none
    | _ => some (a, msg.envelope.toSession)
  | _ => none

/-- No hand-off to the attachment that awaits its input call is for another session than
`session`. -/
def admits (a : Attachment) (session : Option SessionId) : Bool :=
  (List.range s.pipelines.threads.length).all fun i =>
    (s.awaits i).all fun waiting => waiting.1 != a || session == some waiting.2

/-- The attachment that a hand-off to the session finds is bound to it, and the adapter is not just
about to be told so. -/
def looksUpTold (session : SessionId) (now : Timestamp) : Bool :=
  let c := (s.pipelines.locked now).core
  (c.handOffTarget session).all fun target =>
    c.boundSession target.2 == some session && s.pipelines.telling.all (·.1 != target.2)

end System

/-- Bindings do not change under a hand-off: a hand-off looks up an attachment that the core has
bound to its session with no `set_binding` call outstanding, and until its input call is made no
`set_binding` call for the attachment says anything else. -/
def SystemLabel.bindingStays (label : SystemLabel) (s : System) : Bool :=
  match label with
  | .core label _ =>
    (label.tells s.pipelines).all (fun call => s.admits call.1 call.2) &&
      match label.frame s.pipelines with
      | some (.plain (.handOff msg), x) => s.looksUpTold msg.envelope.toSession x.now
      | _ => true
  | _ => true

end Oac
