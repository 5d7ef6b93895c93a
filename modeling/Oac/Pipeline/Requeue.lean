import Oac.Receiver.Interleaving
import Oac.Receiver.Receive

/-! Threads inside `receive_envelope_octets` of `core/src/pipeline.rs`, over one duplicate store,
one re-queue and one `waiting` counter. A step is one critical section of the store's or the
re-queue's lock, one atomic operation on the counter, or one end of a call into an adapter or a
clock. The session lookup, a clock and the receipt may panic; the hand-off call is contained. Each
taking of a copy by `requeue` has a number, its ticket: it names the settle callback that holds the
copy and the copy's place on the re-queue. -/

namespace Oac.Requeue

/-- What comes of a copy's octets before step 5. -/
inductive Front where
  /-- Refused by the envelope stage, or opened at or after its hand-off deadline. -/
  | dropped
  | refused (outcome : ReceiveOutcome)
  | authorized (msg : AuthorizedMessage)

/-- `receive_envelope_octets` up to `deliver_now`. -/
def front [Libraries] (limits : EnvelopeLimits) (octets : List UInt8) (opened : Bool)
    (engine : AuthorizationEngine) (now window authorization : Timestamp) : Front :=
  match receiveEnvelope octets limits now with
  | .error _ => .dropped
  | .ok msg =>
    if opened && (HandOffDeadline.of msg.envelope).passedAt now then .dropped
    else match (securitySteps msg engine window authorization).1 with
      | .ok authorized => .authorized authorized
      | .error refused => .refused refused

/-- What follows the settle callbacks a thread runs. -/
inductive Next where
  /-- The receipt of the copy whose reservation settled. -/
  | report
  /-- The loop of `drain_requeued`. -/
  | drain
  /-- The thread is unwinding from a panic. -/
  | unwind
  deriving DecidableEq

/-- Where a thread is. -/
inductive Stage where
  /-- In `deliver_now`, before the lock of `try_admit`. -/
  | offering (msg : AuthorizedMessage)
  | lookingUp (r : Reservation)
  | rechecking (r : Reservation)
  | handingOff (r : Reservation)
  /-- Before the lock of `settle`. -/
  | settling (r : Reservation) (handedOff : Bool) (next : Next)
  /-- Running settle callbacks, with no lock of the store held. -/
  | notifying (callbacks : List SettleCallback) (next : Next)
  /-- In `requeue`, before the counter is increased. -/
  | counting (key : DuplicateKey) (msg : AuthorizedMessage)
  /-- The copy is taken; before the lock of `when_settled`. -/
  | registering (key : DuplicateKey) (ticket : SettleCallback)
  /-- The copy is refused; before the counter is decreased again. -/
  | takingBack
  | reporting
  /-- At the head of the loop of `drain_requeued`. -/
  | draining
  /-- A copy is off the re-queue; before the counter is decreased. -/
  | takingOff (ticket : SettleCallback)
  | returned
  | unwound

def Next.stage : Next → Stage
  | report => .reporting
  | drain => .draining
  | unwind => .unwound

def Front.stage : Front → Stage
  | dropped => .returned
  | refused _ => .reporting
  | authorized msg => .offering msg

namespace Stage

def reservation : Stage → Option Reservation
  | lookingUp r | rechecking r | handingOff r | settling r _ _ => some r
  | _ => none

/-- The takings the thread has in hand: a copy about to be registered, callbacks about to run, or a
copy being taken off the re-queue. -/
def tickets : Stage → List SettleCallback
  | registering _ ticket | takingOff ticket => [ticket]
  | notifying callbacks _ => callbacks
  | _ => []

def refuses : Stage → Bool
  | takingBack => true
  | _ => false

end Stage

structure State where
  store : Inner
  queue : List SettleCallback
  waiting : Int
  threads : List Stage
  /-- The copies `requeue` took, in order; a ticket is an index here. -/
  taken : List AuthorizedMessage
  /-- The takings whose copy went through `deliver_now` again. -/
  offered : List SettleCallback

def State.initial : State := ⟨.empty, [], 0, [], [], []⟩

def State.become (s : State) (i : Nat) (stage : Stage) : State :=
  { s with threads := s.threads.set i stage }

inductive Action where
  /-- A thread enters `receive_envelope_octets`. -/
  | arrive (limits : EnvelopeLimits) (octets : List UInt8) (opened : Bool)
      (engine : AuthorizationEngine) (now window authorization : Timestamp)
  /-- The critical section of `try_admit`; the clock read inside it may panic. -/
  | admission (i : Nat) (now : Option Timestamp)
  /-- The session lookup returns and the delivery checks run, or the lookup panics. -/
  | lookup (i : Nat) (found : Option (Option DeliveryTarget))
  /-- The clock is read for the deadline re-check, or reading it panics. -/
  | recheck (i : Nat) (now : Option Timestamp)
  /-- `hand_off` returns; a call that panicked is indeterminate. -/
  | handOff (i : Nat) (outcome : HandOffOutcome)
  /-- The critical section of `settle`. -/
  | settle (i : Nat)
  /-- The next settle callback pushes its copy, or there is none left. -/
  | notify (i : Nat)
  /-- `requeue` increases the counter and compares what it was with the limit. -/
  | fetchAdd (i : Nat)
  | takeBack (i : Nat)
  /-- The critical section of `when_settled`. -/
  | whenSettled (i : Nat)
  | report (i : Nat) (panics : Bool)
  /-- `drain_requeued` takes the first copy off the re-queue, or finds none. -/
  | pop (i : Nat)
  /-- `drain_requeued` decreases the counter and offers the copy it took. -/
  | fetchSub (i : Nat)
  | evict (now : Timestamp)

def afterAdmission (msg : AuthorizedMessage) (key : DuplicateKey) :
    Option (Except SecurityRejection Admission) → Stage
  | none => .counting key msg
  | some (.error _) | some (.ok (.duplicate _)) => .reporting
  | some (.ok .admitted) => .lookingUp ⟨key, msg.message⟩

def afterLookup (r : Reservation) : Option (Option DeliveryTarget) → Stage
  | none => .settling r false .unwind
  | some target =>
    match deliveryChecks r.msg.envelope target with
    | .error _ => .settling r false .report
    | .ok () => .rechecking r

def afterRecheck (r : Reservation) : Option Timestamp → Stage
  | none => .settling r false .unwind
  | some now =>
    match (HandOffDeadline.of r.msg.envelope).refusalAt now with
    | some _ => .settling r false .report
    | none => .handingOff r

def cap (maxRequeued : Nat) : Nat := max maxRequeued 1

variable [Libraries]

def step (limits : StoreLimits) (maxRequeued : Nat) (action : Action) (s : State) : Option State :=
  match action with
  | .arrive envelopeLimits octets opened engine now window authorization =>
    let stage := (front envelopeLimits octets opened engine now window authorization).stage
    some { s with threads := s.threads ++ [stage] }
  | .admission i now =>
    match s.threads[i]? with
    | some (.offering msg) =>
      match keyAndDeadline msg, now with
      | .error _, _ => some (s.become i .reporting)
      | .ok _, none => some (s.become i .unwound)
      | .ok (key, deadline), some now =>
        let decided := s.store.decideAdmission limits now.unixNanos key deadline
        some { s.become i (afterAdmission msg key decided.2) with store := decided.1 }
    | _ => none
  | .lookup i found =>
    match s.threads[i]? with
    | some (.lookingUp r) => some (s.become i (afterLookup r found))
    | _ => none
  | .recheck i now =>
    match s.threads[i]? with
    | some (.rechecking r) => some (s.become i (afterRecheck r now))
    | _ => none
  | .handOff i outcome =>
    match s.threads[i]? with
    | some (.handingOff r) => some (s.become i (.settling r outcome.mayBeHandedOff .report))
    | _ => none
  | .settle i =>
    match s.threads[i]? with
    | some (.settling r handedOff next) =>
      let settled := s.store.settle r.key handedOff
      some { s.become i (.notifying settled.2 next) with store := settled.1 }
    | _ => none
  | .notify i =>
    match s.threads[i]? with
    | some (.notifying [] next) => some (s.become i next.stage)
    | some (.notifying (ticket :: rest) next) =>
      some { s.become i (.notifying rest next) with queue := s.queue ++ [ticket] }
    | _ => none
  | .fetchAdd i =>
    match s.threads[i]? with
    | some (.counting key msg) =>
      if s.waiting ≥ cap maxRequeued then
        some { s.become i .takingBack with waiting := s.waiting + 1 }
      else
        some { s.become i (.registering key s.taken.length) with
          waiting := s.waiting + 1, taken := s.taken ++ [msg] }
    | _ => none
  | .takeBack i =>
    match s.threads[i]? with
    | some .takingBack => some { s.become i .reporting with waiting := s.waiting - 1 }
    | _ => none
  | .whenSettled i =>
    match s.threads[i]? with
    | some (.registering key ticket) =>
      let registered := s.store.whenSettled key ticket
      some { s.become i (.notifying registered.2 .drain) with store := registered.1 }
    | _ => none
  | .report i panics =>
    match s.threads[i]? with
    | some .reporting => some (s.become i (if panics then .unwound else .draining))
    | _ => none
  | .pop i =>
    match s.threads[i]? with
    | some .draining =>
      match s.queue with
      | [] => some (s.become i .returned)
      | ticket :: rest => some { s.become i (.takingOff ticket) with queue := rest }
    | _ => none
  | .fetchSub i =>
    match s.threads[i]? with
    | some (.takingOff ticket) =>
      match s.taken[ticket]? with
      | some msg =>
        some { s.become i (.offering msg) with
          waiting := s.waiting - 1, offered := s.offered ++ [ticket] }
      | none => none
    | _ => none
  | .evict now => some { s with store := s.store.evict now.unixNanos }

namespace State

/-- The copies that registered settle callbacks hold. -/
def registered (s : State) : List SettleCallback := s.store.waiters.entries.flatMap (·.2)

/-- The takings that have not been offered again: with a registered callback, in a thread's hand, or
on the re-queue. -/
def pending (s : State) : List SettleCallback :=
  s.registered ++ s.threads.flatMap Stage.tickets ++ s.queue

def refusing (s : State) : Nat := s.threads.countP Stage.refuses

def allReturned (s : State) : Prop := ∀ stage ∈ s.threads, stage = .returned

end State

end Oac.Requeue
