import Mathlib.Data.List.Sort
import Oac.Authorization.Types

/-! The hand-off deadline and the duplicate store of `core/src/replay.rs`: what one critical
section of the store's lock computes. The store's clock is read by the caller of each operation. -/

namespace Oac

structure SecurityRejection where
  state : DeliveryState
  error : ErrorCode
  requirement : String
  deriving DecidableEq

def replayWindowMs : Nat := 300000

def windowNanos : Int := replayWindowMs * 1000000

/-- A message that has not passed security steps 1 and 2. -/
def unverified : SecurityRejection := ⟨.failed, .internalError, "SEC-STG-003"⟩

/-- `now - W < c < now + W`, both ends open. -/
def insideReplayWindow (createdAt now : Timestamp) : Bool :=
  decide (now.unixNanos - windowNanos < createdAt.unixNanos) &&
    decide (createdAt.unixNanos < now.unixNanos + windowNanos)

/-- Step 3 of the security stage: the replay window on arrival. -/
def checkReplayWindow (msg : ChannelMessage) (now : Timestamp) : Except SecurityRejection Unit :=
  if msg.verifiedBy.isNone then .error unverified
  else if insideReplayWindow msg.envelope.createdAt now then .ok ()
  else .error ⟨.expired, .outsideReplayWindow, "SEC-RPL-002"⟩

inductive BindingBound where
  | expiry
  | replayWindow
  deriving DecidableEq

/-- The earlier of an envelope's expiry instant and the end of its replay window. -/
structure HandOffDeadline where
  unixNanos : Int
  bound : BindingBound
  deriving DecidableEq

namespace HandOffDeadline

def of (env : Envelope) : HandOffDeadline :=
  let windowEnd := env.createdAt.unixNanos + windowNanos
  match env.expiryUnixNanos with
  | some e => if e ≤ windowEnd then ⟨e, .expiry⟩ else ⟨windowEnd, .replayWindow⟩
  | none => ⟨windowEnd, .replayWindow⟩

def passedAt (d : HandOffDeadline) (now : Timestamp) : Bool := decide (d.unixNanos ≤ now.unixNanos)

/-- The re-check immediately before the hand-off call: nothing while the envelope may be handed
off, otherwise the state and code to report. -/
def refusalAt (d : HandOffDeadline) (now : Timestamp) : Option (DeliveryState × ErrorCode) :=
  if d.passedAt now then
    some (.expired, match d.bound with
      | .expiry => .expired
      | .replayWindow => .outsideReplayWindow)
  else none

end HandOffDeadline

structure DuplicateKey where
  keyId : String
  nonce : String
  deriving DecidableEq

/-- The key of a verified message: the key id it verified under and its signed nonce. -/
def DuplicateKey.of (msg : ChannelMessage) : Option DuplicateKey :=
  msg.verifiedBy.map fun verifier => ⟨verifier.keyId.text, msg.envelope.security.nonce⟩

inductive Phase where
  | inFlight
  | handedOff
  deriving DecidableEq

structure Entry where
  deadline : Int
  phase : Phase
  duplicateReceiptSent : Bool
  deriving DecidableEq

/-- A settle callback, known by a number. -/
abbrev SettleCallback := Nat

/-- What the store's lock protects. `byDeadline` is the source's ordered set of (deadline, key)
pairs, kept in order of deadline. -/
structure Inner where
  entries : Table DuplicateKey Entry
  byDeadline : List (Int × DuplicateKey)
  perKey : Table String Nat
  waiters : Table DuplicateKey (List SettleCallback)

namespace Inner

def empty : Inner := ⟨∅, [], ∅, ∅⟩

def earlier (a b : Int × DuplicateKey) : Prop := a.1 ≤ b.1

instance : DecidableRel earlier := fun a b => inferInstanceAs (Decidable (a.1 ≤ b.1))

def remove (s : Inner) (key : DuplicateKey) : Inner :=
  match s.entries.lookup key with
  | none => s
  | some e =>
    { s with
      entries := s.entries.erase key
      byDeadline := s.byDeadline.erase (e.deadline, key)
      perKey := match s.perKey.lookup key.keyId with
        | none => s.perKey
        | some n => if n - 1 = 0 then s.perKey.erase key.keyId else s.perKey.insert key.keyId (n - 1) }

/-- The settled entries whose deadline is at or before `now`, by the deadline index. -/
def due (s : Inner) (now : Int) : List (Int × DuplicateKey) :=
  (s.byDeadline.takeWhile fun item => decide (item.1 ≤ now)).filter fun item =>
    (s.entries.lookup item.2).any fun e => e.phase == .handedOff

def evict (s : Inner) (now : Int) : Inner := (s.due now).foldl (fun s item => s.remove item.2) s

def heldBy (s : Inner) (keyId : String) : Nat := (s.perKey.lookup keyId).getD 0

/-- Whether a new entry fits: the key is below its share, and holds fewer entries than the store
has free places. -/
def hasRoom (s : Inner) (keyId : String) (capacity perKeyShare : Nat) : Bool :=
  let n := s.heldBy keyId
  decide (n < perKeyShare) && decide (Table.size s.entries + n < capacity)

def insert (s : Inner) (key : DuplicateKey) (deadline : Int) (phase : Phase) : Inner :=
  { s with
    perKey := s.perKey.insert key.keyId (s.heldBy key.keyId + 1)
    byDeadline := s.byDeadline.orderedInsert earlier (deadline, key)
    entries := s.entries.insert key ⟨deadline, phase, false⟩ }

end Inner

structure StoreLimits where
  capacity : Nat
  perKeyShare : Nat
  deriving DecidableEq

def StoreLimits.withLimits (capacity perKeyShare : Nat) : StoreLimits :=
  ⟨capacity, max 1 (min perKeyShare (max capacity 1))⟩

def defaultKeyShareDivisor : Nat := 4

def StoreLimits.withCapacity (capacity : Nat) : StoreLimits :=
  withLimits capacity (capacity / defaultKeyShareDivisor)

/-- The outcome of step 5 for a copy. An admission carries a reservation of the copy's key. -/
inductive Admission where
  | admitted
  | duplicate (receiptAllowed : Bool)
  deriving DecidableEq

def full : SecurityRejection := ⟨.failed, .internalError, "SEC-RPL-023"⟩

def keyAndDeadline (msg : AuthorizedMessage) : Except SecurityRejection (DuplicateKey × Int) :=
  match DuplicateKey.of msg.message with
  | none => .error unverified
  | some key => .ok (key, (HandOffDeadline.of msg.message.envelope).unixNanos)

namespace Inner

/-- `decide` of the source: the decision of `admit` and `try_admit` under the lock, at the clock
reading `now`: nothing while the entry for `key` is in flight. -/
def decideAdmission (limits : StoreLimits) (now : Int) (s : Inner) (key : DuplicateKey)
    (deadline : Int) : Inner × Option (Except SecurityRejection Admission) :=
  let s := s.evict now
  let room := s.hasRoom key.keyId limits.capacity limits.perKeyShare
  match s.entries.lookup key with
  | some e =>
    match e.phase with
    | .inFlight => (s, none)
    | .handedOff =>
      ({ s with entries := s.entries.insert key { e with duplicateReceiptSent := true } },
        some (.ok (.duplicate !e.duplicateReceiptSent)))
  | none =>
    if !room then (s, some (.error full))
    else (s.insert key deadline .inFlight, some (.ok .admitted))

/-- An entry for a copy that was handed off before, with no verification. An existing entry is kept
as it is. -/
def insertHandedOff (limits : StoreLimits) (now : Int) (s : Inner) (key : DuplicateKey)
    (deadline : Int) : Inner × Except SecurityRejection Unit :=
  let s := s.evict now
  if (s.entries.lookup key).isSome then (s, .ok ())
  else if !s.hasRoom key.keyId limits.capacity limits.perKeyShare then (s, .error full)
  else (s.insert key deadline .handedOff, .ok ())

/-- Settle the reservation of `key`; the callbacks returned run after the lock is released. -/
def settle (s : Inner) (key : DuplicateKey) (handedOff : Bool) : Inner × List SettleCallback :=
  let s := if handedOff then
      { s with entries := Table.modify key (fun e => { e with phase := .handedOff }) s.entries }
    else s.remove key
  ({ s with waiters := s.waiters.erase key }, (s.waiters.lookup key).getD [])

/-- Register a callback for the settlement of `key`; it runs at once when no entry for `key` is in
flight. -/
def whenSettled (s : Inner) (key : DuplicateKey) (notify : SettleCallback) : Inner × List SettleCallback :=
  if (s.entries.lookup key).any fun e => e.phase == .inFlight then
    ({ s with waiters := s.waiters.insert key ((s.waiters.lookup key).getD [] ++ [notify]) }, [])
  else (s, [notify])

end Inner

end Oac
