import Mathlib.Data.List.Sort
import Oac.Authorization.Types

/-! The partitioned record lists of `core/src/authorization.rs`: `SenderIndex`, `Partition` and
`RecordBook`. A `BTreeSet` index is a list used as a set; whatever depends on its order asks for
its first or last element. -/

namespace Oac

def maxRecordsPerPartition : Nat := 4096

def maxRecordPartitions : Nat := 4096

def maxRecordsTotal : Nat := 262144

/-- A record that carries the instant its reply period starts and the session that sent its
envelope. -/
class Dated (R : Type) where
  createdAt : R → Timestamp
  sender : R → SessionId

instance : Dated SentRecord := ⟨SentRecord.createdAt, SentRecord.fromSession⟩

instance : Dated HandOffRecord := ⟨HandOffRecord.createdAt, HandOffRecord.fromSession⟩

section Order

variable {α N K : Type}

/-- The element no other element is `before`. -/
def least (before : α → α → Bool) : List α → Option α
  | [] => none
  | a :: rest =>
    match least before rest with
    | none => some a
    | some b => if before b a then some b else some a

def pairBefore [LinearOrder N] [Ord K] (a b : N × K) : Bool :=
  decide (a.1 < b.1) || (decide (a.1 = b.1) && compare a.2 b.2 == .lt)

def sortedKeys [Ord K] (keys : List K) : List K :=
  keys.insertionSort fun a b => (compare a b != .gt) = true

end Order

structure SenderIndex (K : Type) where
  enabled : Bool
  counts : Table (K × SessionId) Nat
  changes : List (K × SessionId × Bool)

structure Partition (R : Type) where
  records : List R
  /-- The latest reply-period end of any record it ever held. -/
  ends : Int

structure RecordBook (K R : Type) where
  parts : Table K (Partition R)
  bySize : List (Nat × K)
  byEnd : List (Int × K)
  senders : SenderIndex K
  total : Nat
  maxPartitions : Nat

variable {K R : Type} [DecidableEq K]

namespace SenderIndex

def add (index : SenderIndex K) (key : K) (sender : SessionId) : SenderIndex K :=
  if !index.enabled then index
  else
    let n := (index.counts.lookup (key, sender)).getD 0 + 1
    { index with
      counts := index.counts.insert (key, sender) n
      changes := if n = 1 then index.changes ++ [(key, sender, true)] else index.changes }

def remove (index : SenderIndex K) (key : K) (sender : SessionId) : SenderIndex K :=
  match index.counts.lookup (key, sender) with
  | none => index
  | some n =>
    if n - 1 = 0 then
      { index with
        counts := index.counts.erase (key, sender)
        changes := index.changes ++ [(key, sender, false)] }
    else { index with counts := index.counts.insert (key, sender) (n - 1) }

end SenderIndex

namespace RecordBook

def withMaxPartitions (maxPartitions : Nat) (indexSenders : Bool) : RecordBook K R where
  parts := ∅
  bySize := []
  byEnd := []
  senders := ⟨indexSenders, ∅, []⟩
  total := 0
  maxPartitions := maxPartitions

def new (indexSenders : Bool) : RecordBook K R := withMaxPartitions maxRecordPartitions indexSenders

variable [Dated R] [Ord K] (b : RecordBook K R)

def holdsSender (key : K) (sender : SessionId) : Bool :=
  (b.senders.counts.lookup (key, sender)).isSome

def takeSenderChanges : List (K × SessionId × Bool) × RecordBook K R :=
  (b.senders.changes, { b with senders := { b.senders with changes := [] } })

def partition (key : K) : List R :=
  match b.parts.lookup key with
  | some p => p.records
  | none => []

def forgetPartition (key : K) (len : Nat) (ends : Int) : RecordBook K R :=
  { b with
    bySize := b.bySize.filter (· ≠ (len, key))
    byEnd := b.byEnd.filter (· ≠ (ends, key)) }

/-- Note that partition `key` went from `before` records to `after`, dropping it when empty. -/
def resized (key : K) (before after : Nat) : RecordBook K R :=
  if before = after then b
  else
    let b := { b with
      total := b.total - (before - after)
      bySize := b.bySize.filter (· ≠ (before, key)) }
    if after > 0 then { b with bySize := b.bySize.insert (after, key) }
    else match b.parts.lookup key with
      | some p => { b with parts := b.parts.erase key, byEnd := b.byEnd.filter (· ≠ (p.ends, key)) }
      | none => b

/-- Every record holder with the sender of each of `records` taken out of partition `key`. -/
def unlist (index : SenderIndex K) (key : K) (records : List R) : SenderIndex K :=
  records.foldl (fun index r => index.remove key (Dated.sender r)) index

def popFront (key : K) : RecordBook K R :=
  match b.parts.lookup key with
  | none => b
  | some p =>
    match p.records with
    | [] => b
    | r :: rest =>
      let b := { b with
        parts := b.parts.insert key { p with records := rest }
        senders := b.senders.remove key (Dated.sender r) }
      b.resized key p.records.length (p.records.length - 1)

def dropPartition (key : K) : RecordBook K R :=
  match b.parts.lookup key with
  | none => b
  | some p =>
    let b := { b with
      parts := b.parts.erase key
      senders := unlist b.senders key p.records
      total := b.total - p.records.length }
    b.forgetPartition key p.records.length p.ends

/-- `fuel` passes of the loop over the first entries of `byEnd`; each pass takes one entry off. -/
def sweepFrom (now : Int) : Nat → RecordBook K R → RecordBook K R
  | 0, b => b
  | fuel + 1, b =>
    match least pairBefore b.byEnd with
    | some (ends, key) =>
      if ends ≤ now then
        sweepFrom now fuel ({ b with byEnd := b.byEnd.filter (· ≠ (ends, key)) }.dropPartition key)
      else b
    | none => b

def sweep (now : Int) : RecordBook K R := sweepFrom now b.byEnd.length b

def popExpired (now : Int) (key : K) : Nat → RecordBook K R → RecordBook K R
  | 0, b => b
  | fuel + 1, b =>
    match (b.partition key).head? with
    | some front =>
      if periodEnd (Dated.createdAt front) ≤ now then popExpired now key fuel (b.popFront key)
      else b
    | none => b

def largest : Option K := (least (fun x y => pairBefore y x) b.bySize).map Prod.snd

def target (key : K) (r : R) : Partition R :=
  (b.parts.lookup key).getD ⟨[], periodEnd (Dated.createdAt r)⟩

def append (key : K) (r : R) : RecordBook K R :=
  let ends := periodEnd (Dated.createdAt r)
  let p := b.target key r
  let n := p.records.length
  let after := max p.ends ends
  let byEnd :=
    if n > 0 then
      if after ≠ p.ends then (b.byEnd.filter (· ≠ (p.ends, key))).insert (after, key) else b.byEnd
    else b.byEnd.insert (after, key)
  let bySize := if n > 0 then b.bySize.filter (· ≠ (n, key)) else b.bySize
  { b with
    senders := b.senders.add key (Dated.sender r)
    parts := b.parts.insert key ⟨p.records ++ [r], after⟩
    byEnd := byEnd
    bySize := bySize.insert (n + 1, key)
    total := b.total + 1 }

def popAtCap (key : K) : RecordBook K R :=
  if (b.parts.lookup key).any (fun p => decide (maxRecordsPerPartition ≤ p.records.length))
  then b.popFront key else b

def popLargest : RecordBook K R :=
  if maxRecordsTotal ≤ b.total then
    match b.largest with
    | some key => b.popFront key
    | none => b
  else b

/-- Room made in partition `key`: its own expired records first, then its own oldest at the cap,
then one record of the largest partition. -/
def makeRoom (key : K) (now : Int) : RecordBook K R :=
  ((popExpired now key (b.partition key).length b).popAtCap key).popLargest

/-- Add `r` to partition `key`; false, keeping nothing, when a new partition would pass the cap
after the expired ones are dropped. -/
def push (key : K) (r : R) (now : Timestamp) : Bool × RecordBook K R :=
  let b := b.sweep now.unixNanos
  if (b.parts.lookup key).isNone && decide (b.maxPartitions ≤ Table.size b.parts) then (false, b)
  else (true, (b.makeRoom key now.unixNanos).append key r)

def keys : List K := sortedKeys b.parts.keys

def iter : List R := b.keys.flatMap b.partition

def retainIn (keep : R → Bool) (b : RecordBook K R) (key : K) : RecordBook K R :=
  match b.parts.lookup key with
  | none => b
  | some p =>
    let kept := p.records.filter keep
    let b := { b with
      parts := b.parts.insert key { p with records := kept }
      senders := unlist b.senders key (p.records.filter (!keep ·)) }
    b.resized key p.records.length kept.length

def retain (keep : R → Bool) : RecordBook K R := b.keys.foldl (retainIn keep) b

def dropPartitions (matching : K → Bool) : RecordBook K R :=
  (b.keys.filter matching).foldl dropPartition b

def removeFirst (key : K) (matching : R → Bool) : Bool × RecordBook K R :=
  match b.parts.lookup key with
  | none => (false, b)
  | some p =>
    match p.records.find? matching with
    | none => (false, b)
    | some r =>
      let b := { b with
        parts := b.parts.insert key { p with records := p.records.eraseP matching }
        senders := b.senders.remove key (Dated.sender r) }
      (true, b.resized key p.records.length (p.records.length - 1))

end RecordBook

end Oac
