import Oac.Foundation.Transition
import Oac.Json.Value

/-! The carrier thread and `shutdown` of the Codex client (`adapters/codex/src/client.rs`). The
carrier thread reads `down` and then calls the event handler without a lock, so a whole `shutdown`
fits in between. What the handler is told around a `shutdown` is read off a log of its calls and of
the returns of `shutdown`. -/

namespace Oac.CodexClient

open Transition

/-- Why `events::translate` gives no event. -/
inductive Dropped where
  | delta
  | notServed
  | malformed
  | unused

/-- The counters that `notification` changes. -/
structure Stats where
  schemaDrift : Nat := 0
  deltas : Nat := 0
  notServed : Nat := 0
  malformed : Nat := 0

def Stats.dropped (t : Stats) : Dropped → Stats
  | .delta => { t with deltas := t.deltas + 1 }
  | .notServed => { t with notServed := t.notServed + 1 }
  | .malformed => { t with malformed := t.malformed + 1 }
  | .unused => t

structure Translated (Registry Event : Type) where
  event : Except Dropped Event
  drift : List String
  registry : Registry

/-- What the carrier thread shares with the calls of the client. -/
structure Shared (Registry : Type) where
  pending : List Nat
  registry : Registry
  stats : Stats

inductive CodexEvent (Event : Type) where
  | notified (e : Event)
  | closed
  deriving DecidableEq

/-- Where the carrier thread is. -/
inductive Carrier (Event : Type) where
  /-- In `next_text`. -/
  | reading
  /-- With an event to pass on, before it reads `down`. -/
  | passing (e : CodexEvent Event)
  /-- After it read `down` as false, before it enters the handler. -/
  | calling (e : CodexEvent Event)
  | handling (e : CodexEvent Event)
  /-- In `closed`, before `fail_pending`. -/
  | failing
  | ended
  deriving DecidableEq

inductive Entry (Event : Type) where
  | called (e : CodexEvent Event)
  | returned
  deriving DecidableEq

structure State (Registry Event : Type) where
  isOpen : Bool
  down : Bool
  closeSent : Bool
  shared : Shared Registry
  carrier : Carrier Event
  /-- The calls of `shutdown` that have set `down`, and those that have closed the writer as
  well. -/
  stored : Nat
  closing : Nat
  /-- The calls of the handler and the returns of `shutdown`, newest first. -/
  log : List (Entry Event)

inductive Label (Registry : Type) where
  | notification (method : String) (params : Option Json)
  | carrierEnds
  | failPending
  | readDown
  | call
  | handlerReturns
  | store
  | closeWriter
  | finish
  /-- A message of another kind, or another call of the client; neither calls the handler. -/
  | elsewhere (shared : Shared Registry)

section

variable {Registry Event : Type}

def connected (registry : Registry) : State Registry Event :=
  ⟨true, false, false, ⟨[], registry, {}⟩, .reading, 0, 0, []⟩

/-- Where the carrier thread goes on after an event. -/
def afterEvent : CodexEvent Event → Carrier Event
  | .notified _ => .reading
  | .closed => .ended

variable (translate : String → Option Json → Registry → Translated Registry Event)

/-- `Inner::notification` up to the event it has to pass on. -/
def notification (s : Shared Registry) (method : String) (params : Option Json) :
    Shared Registry × Option Event :=
  let t := translate method params s.registry
  let stats := { s.stats with schemaDrift := s.stats.schemaDrift + t.drift.length }
  match t.event with
  | .ok e => (⟨s.pending, t.registry, stats⟩, some e)
  | .error why => (⟨s.pending, t.registry, stats.dropped why⟩, none)

/-- One step of the carrier thread, of a call of `shutdown` or of another call. -/
def step (label : Label Registry) (s : State Registry Event) : Option (State Registry Event) :=
  match label, s.carrier with
  | .notification method params, .reading =>
    let (shared, event) := notification translate s.shared method params
    some { s with shared := shared, carrier := event.elim .reading fun e => .passing (.notified e) }
  | .carrierEnds, .reading => some { s with isOpen := false, carrier := .failing }
  | .failPending, .failing => some { s with shared.pending := [], carrier := .passing .closed }
  | .readDown, .passing e => some { s with carrier := if s.down then afterEvent e else .calling e }
  | .call, .calling e => some { s with carrier := .handling e, log := .called e :: s.log }
  | .handlerReturns, .handling e => some { s with carrier := afterEvent e }
  | .store, _ => some { s with down := true, stored := s.stored + 1 }
  | .closeWriter, _ =>
    if 0 < s.stored then
      some { s with closeSent := true, stored := s.stored - 1, closing := s.closing + 1 }
    else none
  | .finish, _ =>
    if 0 < s.closing then
      some { s with shared.pending := [], closing := s.closing - 1, log := .returned :: s.log }
    else none
  | .elsewhere shared, _ => some { s with shared := shared }
  | _, _ => none

/-- Between reading `down` as false and the return of the handler. -/
def Carrier.committed : Carrier Event → Bool
  | .calling _ | .handling _ => true
  | _ => false

/-- A call of `shutdown` returns only while the carrier thread is not committed to an event. -/
def clear : Label Registry → State Registry Event → Bool
  | .finish, s => !s.carrier.committed
  | _, _ => true

/-- No call of the handler is later than an entry such as `mark`. -/
def NoCallAfter (mark : Entry Event) (log : List (Entry Event)) : Prop :=
  log.Pairwise fun later earlier => ∀ e, later = .called e → earlier ≠ mark

structure Closes (s : State Registry Event) : Prop where
  closed : .called .closed ∈ s.log → s.carrier = .handling .closed ∨ s.carrier = .ended
  order : NoCallAfter (.called .closed) s.log

structure Orderly (s : State Registry Event) : Prop where
  stopping : 0 < s.stored + s.closing → s.down = true
  returned : .returned ∈ s.log → s.down = true ∧ s.carrier.committed = false
  order : NoCallAfter .returned s.log

variable {translate} {label : Label Registry} {s t : State Registry Event}

theorem afterEvent_uncommitted (e : CodexEvent Event) : (afterEvent e).committed = false := by
  cases e <;> rfl

theorem NoCallAfter.called {log : List (Entry Event)} (order : NoCallAfter mark log)
    (absent : mark ∉ log) (entry) : NoCallAfter mark (entry :: log) :=
  .cons (fun _ held _ _ same => absent (same ▸ held)) order

theorem Closes.step (closes : Closes s) (stepped : CodexClient.step translate label s = some t) :
    Closes t := by
  obtain ⟨closed, order⟩ := closes
  revert stepped
  fun_cases CodexClient.step <;> rintro ⟨⟩
  case case1 | case2 | case3 | case4 => exact ⟨fun held => by simp_all, order⟩
  case case5 e calling =>
    have notClosed : .called .closed ∉ s.log := fun held => by simpa [calling] using closed held
    refine ⟨fun held => ?_, order.called notClosed _⟩
    cases held with
    | head => exact .inl rfl
    | tail _ held => exact absurd held notClosed
  case case6 e handling =>
    refine ⟨fun held => .inr ?_, order⟩
    have last : e = .closed := by simpa [handling] using closed held
    rw [last]
    rfl
  case case7 | case8 | case12 => exact ⟨closed, order⟩
  case case10 =>
    refine ⟨fun held => ?_, .cons (fun _ _ _ same => ?_) order⟩
    · cases held with
      | tail _ held => exact closed held
    · cases same

theorem Orderly.step (orderly : Orderly s) (allowed : clear label s = true)
    (stepped : CodexClient.step translate label s = some t) : Orderly t := by
  obtain ⟨stopping, returned, order⟩ := orderly
  revert stepped
  fun_cases CodexClient.step <;> rintro ⟨⟩
  · next event _ =>
    refine ⟨stopping, fun held => ⟨(returned held).1, ?_⟩, order⟩
    cases event <;> rfl
  case case2 | case3 => exact ⟨stopping, fun held => ⟨(returned held).1, rfl⟩, order⟩
  · next e passing =>
    refine ⟨stopping, fun held => ⟨(returned held).1, ?_⟩, order⟩
    rw [if_pos (returned held).1, afterEvent_uncommitted]
  · next e calling =>
    have notReturned : .returned ∉ s.log :=
      fun held => by simpa [calling, Carrier.committed] using (returned held).2
    refine ⟨stopping, fun held => ?_, order.called notReturned _⟩
    cases held with
    | tail _ held => exact absurd held notReturned
  · next e handling => exact ⟨stopping, fun held => ⟨(returned held).1, afterEvent_uncommitted e⟩, order⟩
  · exact ⟨fun _ => rfl, fun held => ⟨rfl, (returned held).2⟩, order⟩
  · next some => exact ⟨fun _ => stopping (by omega), returned, order⟩
  · next some =>
    have down := stopping (by omega)
    have quiet : s.carrier.committed = false := by simpa [clear] using allowed
    refine ⟨fun _ => down, fun _ => ⟨down, quiet⟩, .cons (fun _ _ _ same => ?_) order⟩
    cases same
  · exact ⟨stopping, returned, order⟩

/-- In every run `Closed` is passed on at most once and after every other event. Once `shutdown` has
returned the handler does not run and is not called again, in every run in which `shutdown` never
returns while the carrier thread is committed to an event. -/
theorem no_event_after_shutdown (registry : Registry)
    (run : Reaches (step translate) anyMove (connected registry) s) :
    NoCallAfter (.called .closed) s.log ∧
      (Reaches (step translate) (fun label s => clear label s = true) (connected registry) s →
        (.returned ∈ s.log → ∀ e, s.carrier ≠ .handling e) ∧ NoCallAfter .returned s.log) := by
  have first : Closes (connected registry : State Registry Event) := ⟨by simp [connected], .nil⟩
  have closes := run.invariant (fun _ _ _ _ stepped closes => closes.step stepped) first
  refine ⟨closes.order, fun run => ?_⟩
  have first : Orderly (connected registry : State Registry Event) :=
    ⟨by simp [connected], by simp [connected], .nil⟩
  have orderly := run.invariant (fun _ _ _ allowed stepped orderly => orderly.step allowed stepped) first
  refine ⟨fun held e handling => ?_, orderly.order⟩
  have quiet := (orderly.returned held).2
  rw [handling] at quiet
  cases quiet

end

def sampleTranslate (_ : String) (_ : Option Json) (_ : Unit) : Translated Unit Unit :=
  ⟨.ok (), [], ()⟩

def sampleMessage : Label Unit := .notification "turn/started" none

theorem no_event_after_shutdown_sample : ∃ s, Reaches (step sampleTranslate)
      (fun label s => clear label s = true) (connected ()) s ∧
      s.log = [.returned, .called (.notified ())] ∧ (∀ e, s.carrier ≠ .handling e) ∧
      NoCallAfter .returned s.log ∧ NoCallAfter (.called .closed) s.log := by
  have performed : (performWithin (step sampleTranslate) (fun label s => clear label s = true)
      [sampleMessage, .readDown, .call, .handlerReturns, .store, .closeWriter, .finish, sampleMessage, .readDown]
      (connected ())).map State.log = some [.returned, .called (.notified ())] := by decide +kernel
  obtain ⟨s, run, log⟩ := reachedWithin_of_map _ performed
  obtain ⟨closed, orderly⟩ := no_event_after_shutdown () (run.weaken fun _ _ _ => trivial)
  exact ⟨s, run, log, (orderly run).1 (by rw [log]; exact .head _), (orderly run).2, closed⟩

/-- The handler is called, and runs, after `shutdown` returned: the carrier thread had read `down`
before. -/
theorem event_after_shutdown : ∃ s, Reaches (step sampleTranslate) anyMove (connected ()) s ∧
      s.log = [.called (.notified ()), .returned] ∧ s.carrier = .handling (.notified ()) := by
  have performed : (perform (step sampleTranslate)
      [sampleMessage, .readDown, .store, .closeWriter, .finish, .call] (connected ())).map (fun s =>
        (s.log, s.carrier)) = some ([.called (.notified ()), .returned], .handling (.notified ())) := by
    decide +kernel
  obtain ⟨s, run, ended⟩ := reached_of_map _ performed
  exact ⟨s, run, Prod.mk.inj ended⟩

end Oac.CodexClient
