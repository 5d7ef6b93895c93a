import Oac.Authorization.Engine
import Oac.Receiver.Delivery

/-! One copy through every check of `core/src/receiver.rs`, from its octets to the hand-off record.
The engine, the store and the receiver read one clock at the instants the caller gives here. -/

namespace Oac

/-- The clock readings one copy is checked at, in the order they are taken. -/
structure Readings where
  /-- Envelope-stage validation. -/
  arrival : Timestamp
  /-- Step 3, the replay window. -/
  window : Timestamp
  /-- Step 4, in the engine. -/
  authorization : Timestamp
  /-- Step 5, under the store's lock. -/
  admission : Timestamp
  /-- Just before the hand-off call. -/
  recheck : Timestamp
  /-- The hand-off record, in the engine. -/
  record : Timestamp

/-- What `receive` did with one copy. -/
structure ReceiveOutcome where
  received : Received
  requeue : Option AuthorizedMessage
  verifiedBy : Option KeyId
  finding : Bool

/-- What a call leaves: its outcome, the engine, the store, the hand-off calls made and the settle
callbacks that ran. -/
structure ReceiveRun where
  outcome : ReceiveOutcome
  engine : AuthorizationEngine
  store : Inner
  calls : List ChannelMessage
  notified : List SettleCallback

def refusedOutcome (report : ReceiverReport) (verifiedBy : Option KeyId) (finding : Bool) : ReceiveOutcome :=
  ⟨.reported report, none, verifiedBy, finding⟩

/-- Step 5 and the delivery stage, and the hand-off record the copy would have. -/
def deliverUnrecorded (limits : StoreLimits) (store : Inner) (msg : AuthorizedMessage)
    (target : SessionId → Option DeliveryTarget) (admission recheck : Timestamp)
    (handOff : ChannelMessage → HandOffOutcome) : ReceiveOutcome × HandOffRecord × Delivered :=
  let delivered := deliver limits store msg target admission recheck handOff
  let received := match delivered.received with
    | .ok received => received
    | .error rejection => .reported (.fromRejection rejection)
  let requeue := match received with
    | .inFlight _ => some msg
    | .reported _ => none
  (⟨received, requeue, msg.message.verifiedBy.map (·.keyId), false⟩, .of msg.message.envelope, delivered)

/-- The hand-off record goes into the engine when the copy was, or may have been, handed off. -/
def recordOutcome (engine : AuthorizationEngine) (record : HandOffRecord) (outcome : ReceiveOutcome)
    (now : Timestamp) : AuthorizationEngine :=
  match outcome.received with
  | .reported report =>
    if report.state = .handedToHarness ∨ report.state = .unknown then
      engine.recordHandoff record report.state now
    else engine
  | .inFlight _ => engine

/-- Step 5 and the delivery stage for a copy past steps 1 to 4, also for one offered again. -/
def redeliver (limits : StoreLimits) (engine : AuthorizationEngine) (store : Inner)
    (msg : AuthorizedMessage) (target : SessionId → Option DeliveryTarget) (readings : Readings)
    (handOff : ChannelMessage → HandOffOutcome) : ReceiveRun :=
  let (outcome, record, delivered) :=
    deliverUnrecorded limits store msg target readings.admission readings.recheck handOff
  ⟨outcome, recordOutcome engine record outcome readings.record, delivered.store,
    delivered.calls, delivered.notified⟩

variable [Libraries]

/-- Security steps 1 to 4: the copy past step 4, or the outcome of the step that refused it. -/
def securitySteps (msg : ChannelMessage) (engine : AuthorizationEngine) (window authorization : Timestamp) :
    Except ReceiveOutcome AuthorizedMessage × AuthorizationEngine :=
  match authenticate msg engine.trusted with
  | .error rejection => (.error (refusedOutcome (.fromRejection rejection) none false), engine)
  | .ok msg =>
    let verifiedBy := msg.verifiedBy.map (·.keyId)
    match checkReplayWindow msg window with
    | .error rejection => (.error (refusedOutcome (.fromRejection rejection) verifiedBy false), engine)
    | .ok () =>
      match engine.authorizeDelivery msg authorization with
      | (.ok authorized, engine) => (.ok authorized, engine)
      | (.error refusal, engine) =>
        (.error (refusedOutcome (.of refusal.state (some refusal.error)) verifiedBy
          refusal.finding.isSome), engine)

/-- The security stage and the delivery stage for a copy that passed envelope-stage validation. -/
def receive (limits : StoreLimits) (msg : ChannelMessage) (engine : AuthorizationEngine)
    (store : Inner) (target : SessionId → Option DeliveryTarget) (readings : Readings)
    (handOff : ChannelMessage → HandOffOutcome) : ReceiveRun :=
  match securitySteps msg engine readings.window readings.authorization with
  | (.ok authorized, engine) => redeliver limits engine store authorized target readings handOff
  | (.error refused, engine) => ⟨refused, engine, store, [], []⟩

/-- One copy, as its octets arrived, through every check a receiver makes. -/
def receiveOctets (envelopeLimits : EnvelopeLimits) (limits : StoreLimits) (octets : List UInt8)
    (engine : AuthorizationEngine) (store : Inner) (target : SessionId → Option DeliveryTarget)
    (readings : Readings) (handOff : ChannelMessage → HandOffOutcome) : ReceiveRun :=
  match receiveEnvelope octets envelopeLimits readings.arrival with
  | .ok msg => receive limits msg engine store target readings handOff
  | .error rejection =>
    ⟨refusedOutcome (.of rejection.state (some rejection.error)) none false, engine, store, [], []⟩

end Oac
