import Oac.Authorization.RecordBook

/-! The binding-table entries security step 4 created and nothing else refers to
(`EnvelopeBindings` in `core/src/authorization.rs`), and the orders of the identifiers. -/

namespace Oac

def maxEnvelopeBindingsPerKey : Nat := 8192

def maxEnvelopeBindings : Nat := 65536

section Order

/-- The order of texts by their characters, which for the ASCII texts of identifiers is the order
by octets. -/
def compareText : List Char → List Char → Ordering
  | [], [] => .eq
  | [], _ :: _ => .lt
  | _ :: _, [] => .gt
  | a :: s, b :: t => if a.toNat < b.toNat then .lt else if b.toNat < a.toNat then .gt else compareText s t

instance : Ord SessionId := ⟨fun a b => compareText a.text.toList b.text.toList⟩

instance : Ord KeyId := ⟨fun a b => compareText a.text.toList b.text.toList⟩

def compareOption {α : Type} [Ord α] : Option α → Option α → Ordering
  | none, none => .eq
  | none, some _ => .lt
  | some _, none => .gt
  | some a, some b => compare a b

end Order

structure EnvelopeBinding where
  key : KeyId
  /-- Its place in creation order. -/
  seq : Nat
  /-- A hand-off record is looked up through it, so it is not evicted. -/
  pinned : Bool
  deriving DecidableEq

structure KeyBindings where
  free : Table Nat SessionId
  pinned : Nat
  latest : Nat

namespace KeyBindings

def none : KeyBindings := ⟨∅, 0, 0⟩

def len (kb : KeyBindings) : Nat := Table.size kb.free + kb.pinned

def oldest (kb : KeyBindings) : Option SessionId :=
  (least (fun a b => decide (a < b)) kb.free.keys).bind kb.free.lookup

def without (kb : KeyBindings) (e : EnvelopeBinding) : KeyBindings :=
  if e.pinned then { kb with pinned := kb.pinned - 1 } else { kb with free := kb.free.erase e.seq }

def adding (kb : KeyBindings) (seq : Nat) (session : SessionId) (pinned : Bool) : KeyBindings :=
  if pinned then { kb with latest := seq, pinned := kb.pinned + 1 }
  else { kb with latest := seq, free := kb.free.insert seq session }

def repinned (kb : KeyBindings) (seq : Nat) (session : SessionId) (pinned : Bool) : KeyBindings :=
  if pinned then { kb with free := kb.free.erase seq, pinned := kb.pinned + 1 }
  else { kb with pinned := kb.pinned - 1, free := kb.free.insert seq session }

/-- At least as many entries; with as many, one added no earlier. -/
def noFewer (a b : KeyBindings) : Bool :=
  decide (b.len < a.len) || (decide (a.len = b.len) && decide (b.latest ≤ a.latest))

end KeyBindings

structure EnvelopeBindings where
  sessions : Table SessionId EnvelopeBinding
  keys : Table KeyId KeyBindings
  next : Nat
  perKey : Nat
  capacity : Nat

namespace EnvelopeBindings

def new (capacity perKey : Nat) : EnvelopeBindings :=
  let capacity := max capacity 1
  { sessions := ∅, keys := ∅, next := 0, perKey := max 1 (min perKey capacity), capacity := capacity }

variable (t : EnvelopeBindings)

def heldBy (key : KeyId) : Nat := (t.keys.lookup key).elim 0 KeyBindings.len

def untrack (session : SessionId) : EnvelopeBindings :=
  match t.sessions.lookup session with
  | none => t
  | some e =>
    let t := { t with sessions := t.sessions.erase session }
    match t.keys.lookup e.key with
    | none => t
    | some kb =>
      { t with keys := if (kb.without e).len = 0 then t.keys.erase e.key
        else t.keys.insert e.key (kb.without e) }

def track (session : SessionId) (key : KeyId) (pinned : Bool) : EnvelopeBindings :=
  let t := t.untrack session
  let seq := t.next + 1
  { t with
    next := seq
    keys := t.keys.insert key (((t.keys.lookup key).getD .none).adding seq session pinned)
    sessions := t.sessions.insert session ⟨key, seq, pinned⟩ }

def setPinned (session : SessionId) (key : KeyId) (pinned : Bool) : EnvelopeBindings :=
  match t.sessions.lookup session with
  | none => t
  | some e =>
    if e.key ≠ key ∨ e.pinned = pinned then t
    else
      let t := { t with sessions := t.sessions.insert session { e with pinned := pinned } }
      match t.keys.lookup key with
      | none => t
      | some kb => { t with keys := t.keys.insert key (kb.repinned e.seq session pinned) }

def hasRoom (key : KeyId) : Bool :=
  decide (t.heldBy key < t.perKey) && decide (Table.size t.sessions < t.capacity)

/-- The other keys that hold at least `least` entries, one of them free, in the order of the
keys. -/
def givers (key : KeyId) (least : Nat) : List KeyBindings :=
  (sortedKeys t.keys.keys).filterMap fun k =>
    (t.keys.lookup k).filter fun kb => decide (k ≠ key ∧ least ≤ kb.len ∧ 0 < Table.size kb.free)

/-- The entry to evict so that `key` may add one. -/
def victim (key : KeyId) : Option SessionId :=
  let n := t.heldBy key
  if t.perKey ≤ n then (t.keys.lookup key).bind KeyBindings.oldest
  else (least KeyBindings.noFewer (t.givers key (n + 2))).bind KeyBindings.oldest

end EnvelopeBindings

end Oac
