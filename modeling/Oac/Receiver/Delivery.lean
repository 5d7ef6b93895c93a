import Oac.Replay.Store

/-! Security step 5 and the delivery stage of `core/src/receiver.rs` for one copy. -/

namespace Oac

open HandOffDeadline

/-- What the delivery stage knows about the addressed local session. -/
structure DeliveryTarget where
  accepting : Bool
  activeInbound : Bool
  contentTypes : List String
  maxEnvelopeOctets : Option Nat
  deriving DecidableEq

def DeliveryTarget.takes (t : DeliveryTarget) (env : Envelope) : Bool :=
  t.activeInbound &&
    env.content.all (fun p => p.partType == "text" || t.contentTypes.contains p.partType) &&
    !t.maxEnvelopeOctets.any fun m => decide (env.octets.length > m)

/-- Steps 1 to 3 of the delivery stage; the first failing step decides. -/
def deliveryChecks (env : Envelope) (target : Option DeliveryTarget) :
    Except (DeliveryState × ErrorCode) Unit :=
  match target with
  | none => .error (.unreachable, .unknownDestination)
  | some t =>
    if !t.accepting then .error (.unreachable, .destinationUnavailable)
    else if !t.takes env then .error (.rejected, .unsupportedCapability)
    else .ok ()

inductive HandOffOutcome where
  | completed
  | notNow
  | failed
  | indeterminate
  | refused
  deriving DecidableEq

namespace HandOffOutcome

def recorded : HandOffOutcome → DeliveryState × Option ErrorCode
  | completed => (.handedToHarness, none)
  | notNow => (.unreachable, some .destinationUnavailable)
  | failed => (.failed, some .handoffFailed)
  | indeterminate => (.unknown, none)
  | refused => (.failed, some .internalError)

def mayBeHandedOff : HandOffOutcome → Bool
  | completed | indeterminate => true
  | notNow | failed | refused => false

end HandOffOutcome

/-- What a receiver reports for one copy. -/
structure ReceiverReport where
  state : DeliveryState
  error : Option ErrorCode
  duplicateReceiptAllowed : Option Bool
  deriving DecidableEq

namespace ReceiverReport

def valid (state : DeliveryState) (error : Option ErrorCode) : Bool :=
  state.allowedFor .receiver && match error with
    | none => !state.carriesError
    | some c => c.fitsReceipt state .receiver

/-- A report; a pair no receiver's receipt may carry becomes an internal error. -/
def of (state : DeliveryState) (error : Option ErrorCode) : ReceiverReport :=
  if valid state error then ⟨state, error, none⟩ else ⟨.failed, some .internalError, none⟩

def fromRejection (r : SecurityRejection) : ReceiverReport := of r.state (some r.error)

end ReceiverReport

/-- The outcome of security step 5 and the delivery stage for one copy. -/
inductive Received where
  | inFlight (key : DuplicateKey)
  | reported (report : ReceiverReport)
  deriving DecidableEq

/-- The delivery stage's outcome: the store it leaves, its report, the hand-off calls it made and
the settle callbacks that then run. -/
structure Staged where
  store : Inner
  report : ReceiverReport
  calls : List ChannelMessage
  notified : List SettleCallback

/-- Settle `key` as not handed off and report `refusal`. -/
def refuse (store : Inner) (key : DuplicateKey) (refusal : DeliveryState × ErrorCode) : Staged :=
  let (store, notified) := store.settle key false
  ⟨store, .of refusal.1 (some refusal.2), [], notified⟩

/-- The delivery stage for a copy that holds the reservation of `key`. `now` is the reading taken
just before the call. -/
def deliveryStage (store : Inner) (key : DuplicateKey) (msg : ChannelMessage)
    (target : SessionId → Option DeliveryTarget) (now : Timestamp)
    (handOff : ChannelMessage → HandOffOutcome) : Staged :=
  let env := msg.envelope
  match deliveryChecks env (target env.toSession) with
  | .error refusal => refuse store key refusal
  | .ok () =>
    match (of env).refusalAt now with
    | some refusal => refuse store key refusal
    | none =>
      let outcome := handOff msg
      let (store, notified) := store.settle key outcome.mayBeHandedOff
      ⟨store, .of outcome.recorded.1 outcome.recorded.2, [msg], notified⟩

section StageCases

variable {store : Inner} {key : DuplicateKey} {msg : ChannelMessage}
  {target : SessionId → Option DeliveryTarget} {now : Timestamp}
  {handOff : ChannelMessage → HandOffOutcome} {refusal : DeliveryState × ErrorCode}

theorem deliveryStage_checks
    (checked : deliveryChecks msg.envelope (target msg.envelope.toSession) = .error refusal) :
    deliveryStage store key msg target now handOff = refuse store key refusal := by
  simp only [deliveryStage, checked]

theorem deliveryStage_late (checked : deliveryChecks msg.envelope (target msg.envelope.toSession) =
    .ok ()) (late : (of msg.envelope).refusalAt now = some refusal) :
    deliveryStage store key msg target now handOff = refuse store key refusal := by
  simp only [deliveryStage, checked, late]

theorem deliveryStage_called (checked : deliveryChecks msg.envelope (target msg.envelope.toSession) = .ok ())
    (inTime : (of msg.envelope).refusalAt now = none) :
    deliveryStage store key msg target now handOff = ⟨(store.settle key (handOff msg).mayBeHandedOff).1,
        .of (handOff msg).recorded.1 (handOff msg).recorded.2, [msg],
        (store.settle key (handOff msg).mayBeHandedOff).2⟩ := by
  simp only [deliveryStage, checked, inTime]

end StageCases

/-- What `deliver` did: the store it leaves, the outcome, the hand-off calls made and the settle
callbacks that ran. -/
structure Delivered where
  store : Inner
  received : Except SecurityRejection Received
  calls : List ChannelMessage
  notified : List SettleCallback

/-- Security step 5 and the delivery stage for a copy past steps 1 to 4. `admission` is the store
clock's reading under the lock and `recheck` the receiver clock's just before the call. -/
def deliver (limits : StoreLimits) (store : Inner) (msg : AuthorizedMessage)
    (target : SessionId → Option DeliveryTarget) (admission recheck : Timestamp)
    (handOff : ChannelMessage → HandOffOutcome) : Delivered :=
  match keyAndDeadline msg with
  | .error e => ⟨store, .error e, [], []⟩
  | .ok (key, deadline) =>
    let (store, decided) := store.decideAdmission limits admission.unixNanos key deadline
    match decided with
    | none => ⟨store, .ok (.inFlight key), [], []⟩
    | some (.error e) => ⟨store, .error e, [], []⟩
    | some (.ok (.duplicate receiptAllowed)) =>
      let report := ReceiverReport.of .duplicate (some .duplicate)
      ⟨store, .ok (.reported { report with duplicateReceiptAllowed := some receiptAllowed }), [], []⟩
    | some (.ok .admitted) =>
      let staged := deliveryStage store key msg.message target recheck handOff
      ⟨staged.store, .ok (.reported staged.report), staged.calls, staged.notified⟩

end Oac
