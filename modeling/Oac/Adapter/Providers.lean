import Oac.Receiver.Delivery
import Oac.SessionBinding

/-! The attachments of the Claude and the Codex adapter (`adapters/claude/src/adapter.rs`,
`adapters/codex/src/adapter.rs`), as far as `set_binding` and `deliver` read and change them. Each
definition is one locked section of its adapter. -/

namespace Oac

/-- A hand-off attempt that an adapter keeps for a reply that names no destination. -/
structure HandedRecord where
  id : Token
  fromSession : SessionId
  toSession : SessionId
  completed : Bool
  deriving DecidableEq

/-- The attempts kept for an attachment, oldest first, and whether one was evicted. -/
structure HandedLog where
  records : List HandedRecord
  evicted : Bool
  deriving DecidableEq

def handedKept : Nat := 1024

namespace HandedLog

def empty : HandedLog := ⟨[], false⟩

def push (log : HandedLog) (env : Envelope) : HandedLog :=
  let record := ⟨env.id, env.fromSession, env.toSession, false⟩
  if log.records.length ≥ handedKept then ⟨log.records.tail ++ [record], true⟩
  else ⟨log.records ++ [record], log.evicted⟩

def complete (log : HandedLog) (env : Envelope) : HandedLog :=
  { log with records := log.records.map fun r =>
      if r.id = env.id ∧ r.fromSession = env.fromSession ∧ r.toSession = env.toSession then
        { r with completed := true }
      else r }

end HandedLog

/-- How far an attachment's connection has come; a carrier brings signals and is never handed to. -/
inductive AttachmentPhase where
  | opening
  | opened
  | carrier
  | closed
  deriving DecidableEq

namespace Claude

structure Att where
  phase : AttachmentPhase
  /-- The connection has taken a place of a channel server. -/
  shim : Bool
  bound : Option SessionId
  /-- The peer and the runtime of the connection are known. -/
  running : Bool
  handed : HandedLog

def Att.new : Att := ⟨.opening, false, none, false, .empty⟩

/-- A different session is a new one: what the earlier one was handed is forgotten. -/
def Att.rebind (att : Att) (session : Option SessionId) : Att :=
  { att with
    handed := if session.isSome ∧ att.bound.isSome ∧ session ≠ att.bound then .empty else att.handed
    bound := session }

def shimPlaces : Nat := 4

def carrierPlaces : Nat := 3

end Claude

structure ClaudeAdapter where
  down : Bool
  attachments : Table Attachment Claude.Att

namespace ClaudeAdapter

open Claude

def new : ClaudeAdapter := ⟨false, ∅⟩

variable (s : ClaudeAdapter) (a : Attachment)

def modify (f : Att → Att) : ClaudeAdapter :=
  { s with attachments := Table.modify a f s.attachments }

def takeConnection : ClaudeAdapter :=
  if s.down ∨ shimPlaces + carrierPlaces ≤ s.attachments.size then s
  else { s with attachments := s.attachments.insert a .new }

def advance (phase : AttachmentPhase) : ClaudeAdapter :=
  if s.down then s
  else s.modify a fun att => if att.phase = .opening then { att with phase := phase } else att

def listed : ClaudeAdapter := s.advance a .opened

/-- A channel server takes one of its places, or is refused when they are all taken. -/
def admitShim : ClaudeAdapter × Bool :=
  if shimPlaces ≤ (s.attachments.entries.filter (·.2.shim)).length then (s, false)
  else (s.modify a fun att => { att with shim := true }, (s.attachments.lookup a).isSome)

def carrier : ClaudeAdapter := s.advance a .carrier

def running : ClaudeAdapter :=
  s.modify a fun att => { att with running := true }

def ended : ClaudeAdapter :=
  { s with attachments := s.attachments.erase a }

def stop : ClaudeAdapter :=
  { s with down := true }

def close : ClaudeAdapter :=
  s.modify a fun att => { att with phase := .closed }

def closeAll : ClaudeAdapter :=
  s.attachments.keys.foldl close s

def setBinding (session : Option SessionId) : ClaudeAdapter :=
  s.modify a (·.rebind session)

/-- Whether `deliver` goes on with a hand-off to the attachment: it is open and bound to some
session. -/
def ready : Bool :=
  (s.attachments.lookup a).any fun att => att.phase == .opened && att.bound.isSome && att.running

def recordHanded (env : Envelope) : ClaudeAdapter :=
  s.modify a fun att => { att with handed := att.handed.push env }

def complete (env : Envelope) : ClaudeAdapter :=
  s.modify a fun att => { att with handed := att.handed.complete env }

end ClaudeAdapter

namespace Codex

structure Att where
  /-- The carrier generation the connection was taken under. -/
  generation : Nat
  phase : AttachmentPhase
  /-- The distinct threads that reveals named since the last binding. -/
  pending : List String
  bound : Option SessionId
  /-- The thread a delivery goes to. -/
  thread : Option String
  handed : HandedLog

def Att.new (generation : Nat) : Att := ⟨generation, .opening, [], none, none, .empty⟩

def pendingKept : Nat := 4

def Att.revealed (att : Att) (thread : String) : Att :=
  if thread ∉ att.pending ∧ att.pending.length < pendingKept then
    { att with pending := att.pending ++ [thread] }
  else att

/-- The one thread revealed since the last binding becomes the attachment's; two or more leave it
none. -/
def Att.commitBinding (att : Att) (session : SessionId) : Att :=
  { att with
    handed := if att.bound.any (· ≠ session) then .empty else att.handed
    bound := some session
    thread := match att.pending with
      | [] => att.thread
      | [thread] => some thread
      | _ => none
    pending := [] }

def Att.endBinding (att : Att) : Att := { att with bound := none, thread := none, pending := [] }

def shimPlaces : Nat := 6

/-- Where the adapter's carrier stands. -/
inductive Carrier where
  | none
  | connecting
  | up
  | lost
  deriving DecidableEq

end Codex

/-- No attachment was taken under a generation that is still to come. -/
structure CodexAdapter where
  down : Bool
  carrier : Codex.Carrier
  generation : Nat
  /-- The connection the daemon designated as the carrier. -/
  designated : Option Attachment
  attachments : Table Attachment Codex.Att
  /-- The attachments taken while the carrier was connecting. -/
  pending : List Attachment
  taken : ∀ a att, attachments.lookup a = some att → att.generation ≤ generation

namespace CodexAdapter

open Codex

def new : CodexAdapter where
  down := false
  carrier := .none
  generation := 0
  designated := none
  attachments := ∅
  pending := []
  taken a att held := by cases held

variable (s : CodexAdapter) (a : Attachment)

def modify (f : Att → Att) (keeps : ∀ att, (f att).generation = att.generation) :
    CodexAdapter :=
  { s with
    attachments := Table.modify a f s.attachments
    taken := by
      intro b att held
      rw [Table.lookup_modify_if] at held
      split at held
      · obtain ⟨old, before, rfl⟩ := Option.map_eq_some_iff.mp held
        rw [keeps]
        exact s.taken _ _ before
      · exact s.taken _ _ held }

def insert : CodexAdapter :=
  { s with
    attachments := s.attachments.insert a (.new s.generation)
    taken := by
      intro b att held
      rw [Table.lookup_insert_if] at held
      split at held
      · cases held
        exact le_rfl
      · exact s.taken _ _ held }

def ended : CodexAdapter :=
  { s with
    attachments := s.attachments.erase a
    taken := by
      intro b att held
      rw [Table.lookup_erase_if] at held
      split at held
      · cases held
      · exact s.taken _ _ held }

/-- The designated connection becomes the carrier, whose start may fail at once. Any other is a
channel server's, and waits while the carrier is connecting. -/
def takeConnection (spawned : Bool) : CodexAdapter :=
  if s.down then s
  else if s.designated = some a then
    if s.carrier ≠ .none then s
    else { s with carrier := if spawned then .connecting else .lost }
  else if shimPlaces ≤ s.attachments.size then s
  else match s.carrier with
    | .up => s.insert a
    | .connecting => { s.insert a with pending := s.pending ++ [a] }
    | .none | .lost => s

/-- A new carrier is designated while none is connecting or open; attachments served through an
earlier one are of an earlier generation from now on. -/
def designateCarrier (isOpen : Bool) : CodexAdapter :=
  if s.down ∨ s.carrier = .connecting ∨ (s.carrier = .up ∧ isOpen) then s
  else { s with
    carrier := .none
    generation := s.generation + 1
    designated := some a
    taken := fun a att held => Nat.le_succ_of_le (s.taken a att held) }

/-- The carrier's start ended; a failure ends the attachments that waited for it. -/
def carrierStarted (started : Bool) : CodexAdapter :=
  if started ∧ !s.down then { s with carrier := .up, pending := [] }
  else { s.pending.foldl ended s with carrier := .lost, pending := [] }

def listed : CodexAdapter :=
  if s.down then s
  else s.modify a (fun att => if att.phase = .opening then { att with phase := .opened } else att)
    fun att => by split <;> rfl

def reveal (thread : String) : CodexAdapter :=
  if s.down then s
  else s.modify a (·.revealed thread) fun att => by
    unfold Att.revealed
    split <;> rfl

def stop : CodexAdapter :=
  { s with down := true }

def close : CodexAdapter :=
  s.modify a (fun att => { att with phase := .closed }) fun _ => rfl

def closeAll : CodexAdapter :=
  { s.attachments.keys.foldl close s with pending := [] }

def clear : CodexAdapter :=
  { s with
    attachments := ∅
    taken := fun _ _ held => by cases held }

/-- An attachment of an earlier generation may be unbound, never bound. -/
def setBinding (session : Option SessionId) : CodexAdapter :=
  s.modify a (fun att =>
    match session with
    | none => att.endBinding
    | some session => if att.generation ≠ s.generation then att else att.commitBinding session)
    fun att => by
      cases session with
      | none => rfl
      | some session =>
        simp only
        split
        · rfl
        · rfl

def ready : Bool :=
  (s.attachments.lookup a).any fun att =>
    att.phase == .opened && att.bound.isSome && att.generation == s.generation &&
      s.carrier == .up && att.thread.isSome

def recordHanded (env : Envelope) : CodexAdapter :=
  s.modify a (fun att => { att with handed := att.handed.push env }) fun _ => rfl

def complete (env : Envelope) : CodexAdapter :=
  s.modify a (fun att => { att with handed := att.handed.complete env }) fun _ => rfl

end CodexAdapter

end Oac
