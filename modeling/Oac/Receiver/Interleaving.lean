import Mathlib.Logic.Function.Basic
import Oac.Foundation.Calls
import Oac.Receiver.Delivery

/-! Any number of receivers on one duplicate store. A task is one thread inside `admit` or
`try_admit` and then the delivery stage, inside `evict_expired`, or running settle callbacks; a
step is one critical section of the store's lock, one clock reading, or one end of a session lookup
or hand-off call. Panics of the lookup, the clock and the hand-off call are steps too. -/

namespace Oac

/-- A copy of a signed envelope as the store and the deadline re-check see it. Copies of one
envelope have the same key id, nonce and hand-off deadline. -/
structure SignedCopy where
  key : DuplicateKey
  deadline : Int
  deriving DecidableEq

/-- The entry an admitted message added, with the message. -/
structure Reservation where
  key : DuplicateKey
  msg : ChannelMessage

def Reservation.copy (r : Reservation) : SignedCopy :=
  ⟨r.key, (HandOffDeadline.of r.msg.envelope).unixNanos⟩

/-- How a task ended: with the outcome of `deliver`, with the return of another store operation, or
unwound by a panic. -/
inductive Ended where
  | returned (received : Except SecurityRejection Received)
  | done
  | unwound

/-- Where a thread is. -/
inductive Task where
  | idle
  /-- Before the lock of `admit` (`waits`) or `try_admit`; `admit` is here again while it waits. -/
  | offering (msg : AuthorizedMessage) (waits : Bool)
  /-- Admitted, before the session lookup. -/
  | lookingUp (r : Reservation)
  /-- The delivery checks passed. -/
  | rechecking (r : Reservation)
  /-- The deadline re-check passed; the hand-off call is next. -/
  | calling (r : Reservation)
  /-- Inside the hand-off call. -/
  | handingOff (r : Reservation)
  /-- Before the lock of `settle`. -/
  | settling (r : Reservation) (handedOff : Bool) (ended : Ended)
  /-- Running settle callbacks, with no lock held. -/
  | notifying (callbacks : List SettleCallback) (ended : Ended)
  /-- Inside `evict_expired`, with the clock reading it took before the lock. -/
  | evicting (reading : Timestamp)
  | finished (ended : Ended)

def Task.reservation : Task → Option Reservation
  | lookingUp r | rechecking r | calling r | handingOff r | settling r _ _ => some r
  | _ => none

/-- A hand-off call ended by a panic leaves its reservation to be dropped unsettled; that counts as
handed off, as a completed or indeterminate call does. -/
def endedTaken (outcome : Option HandOffOutcome) : Bool := outcome.all (·.mayBeHandedOff)

abbrev CallEvent := Calls.Event Nat SignedCopy

structure World where
  clock : Timestamp
  store : Inner
  tasks : Nat → Task
  log : List CallEvent

def World.initial (clock : Timestamp) : World := ⟨clock, .empty, fun _ => .idle, []⟩

def World.become (w : World) (i : Nat) (task : Task) : World :=
  { w with tasks := Function.update w.tasks i task }

inductive Action where
  /-- The clock moves on; readings never decrease. -/
  | tick (now : Timestamp)
  | offer (i : Nat) (msg : AuthorizedMessage) (waits : Bool)
  /-- The critical section of `admit` or `try_admit`, with the clock read inside it. -/
  | admission (i : Nat)
  /-- The session lookup returns and the delivery checks run, or the lookup panics. -/
  | lookup (i : Nat) (found : Option (Option DeliveryTarget))
  /-- The clock is read for the deadline re-check, or reading it panics. -/
  | recheck (i : Nat) (panics : Bool)
  | call (i : Nat)
  /-- The hand-off call returns, or panics. -/
  | callReturns (i : Nat) (outcome : Option HandOffOutcome)
  /-- An admitted reservation is dropped before the delivery stage takes it. -/
  | drop (i : Nat)
  /-- The critical section of `settle`. -/
  | settle (i : Nat)
  | notify (i : Nat)
  /-- `evict_expired` reads the clock. -/
  | readClock (i : Nat)
  /-- The critical section of `evict_expired`. -/
  | evict (i : Nat)
  /-- The critical section of `when_settled`. -/
  | whenSettled (i : Nat) (key : DuplicateKey) (notify : SettleCallback)

def reported (state : DeliveryState) (error : Option ErrorCode) : Ended :=
  .returned (.ok (.reported (.of state error)))

def afterDecision (msg : AuthorizedMessage) (waits : Bool) (key : DuplicateKey) :
    Option (Except SecurityRejection Admission) → Task
  | none => if waits then .offering msg waits else .finished (.returned (.ok (.inFlight key)))
  | some (.error e) => .finished (.returned (.error e))
  | some (.ok (.duplicate receiptAllowed)) =>
    let report := ReceiverReport.of .duplicate (some .duplicate)
    .finished (.returned (.ok (.reported { report with
      duplicateReceiptAllowed := some receiptAllowed })))
  | some (.ok .admitted) => .lookingUp ⟨key, msg.message⟩

def afterLookup (r : Reservation) : Option (Option DeliveryTarget) → Task
  | none => .settling r false .unwound
  | some target =>
    match deliveryChecks r.msg.envelope target with
    | .error refusal => .settling r false (reported refusal.1 (some refusal.2))
    | .ok () => .rechecking r

def afterRecheck (r : Reservation) (now : Timestamp) (panics : Bool) : Task :=
  if panics then .settling r false .unwound
  else match (HandOffDeadline.of r.msg.envelope).refusalAt now with
    | some refusal => .settling r false (reported refusal.1 (some refusal.2))
    | none => .calling r

def afterCall (r : Reservation) (outcome : Option HandOffOutcome) : Task :=
  .settling r (endedTaken outcome) (match outcome with
    | none => .unwound
    | some o => reported o.recorded.1 o.recorded.2)

def World.step (limits : StoreLimits) (action : Action) (w : World) : Option World :=
  match action with
  | .tick now => if w.clock.unixNanos ≤ now.unixNanos then some { w with clock := now } else none
  | .offer i msg waits =>
    match w.tasks i with
    | .idle => some (w.become i (.offering msg waits))
    | _ => none
  | .admission i =>
    match w.tasks i with
    | .offering msg waits =>
      match keyAndDeadline msg with
      | .error e => some (w.become i (.finished (.returned (.error e))))
      | .ok (key, deadline) =>
        let decided := w.store.decideAdmission limits w.clock.unixNanos key deadline
        some { w.become i (afterDecision msg waits key decided.2) with store := decided.1 }
    | _ => none
  | .lookup i found =>
    match w.tasks i with
    | .lookingUp r => some (w.become i (afterLookup r found))
    | _ => none
  | .recheck i panics =>
    match w.tasks i with
    | .rechecking r => some (w.become i (afterRecheck r w.clock panics))
    | _ => none
  | .call i =>
    match w.tasks i with
    | .calling r => some { w.become i (.handingOff r) with log := w.log ++ [.started i r.copy] }
    | _ => none
  | .callReturns i outcome =>
    match w.tasks i with
    | .handingOff r =>
      some { w.become i (afterCall r outcome) with
        log := w.log ++ [.ended i r.copy (endedTaken outcome)] }
    | _ => none
  | .drop i =>
    match w.tasks i with
    | .lookingUp r => some (w.become i (.settling r true .unwound))
    | _ => none
  | .settle i =>
    match w.tasks i with
    | .settling r handedOff ended =>
      let settled := w.store.settle r.key handedOff
      some { w.become i (.notifying settled.2 ended) with store := settled.1 }
    | _ => none
  | .notify i =>
    match w.tasks i with
    | .notifying [] ended => some (w.become i (.finished ended))
    | .notifying (_ :: rest) ended => some (w.become i (.notifying rest ended))
    | _ => none
  | .readClock i =>
    match w.tasks i with
    | .idle => some (w.become i (.evicting w.clock))
    | _ => none
  | .evict i =>
    match w.tasks i with
    | .evicting reading => some { w.become i (.finished .done) with store := w.store.evict reading.unixNanos }
    | _ => none
  | .whenSettled i key notify =>
    match w.tasks i with
    | .idle =>
      let registered := w.store.whenSettled key notify
      some { w.become i (.notifying registered.2 .done) with store := registered.1 }
    | _ => none

end Oac
