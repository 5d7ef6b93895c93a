import Mathlib.Data.Fintype.Basic
import Oac.Receiver.InterleavingProofs
import Oac.Sender.Tracker

/-! A sender that tracks one envelope and the receivers its copies may reach, each with its own
clock. While the clocks differ by less than the replay window, a sender that may retry knows that no
receiver's deadline re-check lets a copy of the envelope through any more. -/

namespace Oac

open Calls Transition HandOffDeadline

/-- What one step of a receiver can do to its hand-off calls. -/
structure CallsStep (w w' : World) : Prop where
  clock : w.clock.unixNanos ≤ w'.clock.unixNanos
  /-- A call that is due was due before, or its re-check has just passed. -/
  due : ∀ i r, w'.tasks i = .calling r →
    w.tasks i = .calling r ∨ (w.tasks i = .rechecking r ∧ w.clock.unixNanos < r.copy.deadline)
  /-- A call that starts was due. -/
  started : ∃ newer, w'.log = w.log ++ newer ∧ ∀ i c, .started i c ∈ newer →
    ∃ r, w.tasks i = .calling r ∧ r.copy = c

def Task.callDue : Task → Option Reservation
  | calling r => some r
  | _ => none

theorem calling_of_become {w : World} (other : task.callDue = none)
    (calling : (w.become i task).tasks j = .calling r) : w.tasks j = .calling r := by
  by_cases same : j = i
  · subst same
    rw [become_self] at calling
    rw [calling] at other
    cases other
  · rwa [become_other w task same] at calling

theorem CallsStep.of_become {w w' : World} (clock : w'.clock = w.clock)
    (tasks : w'.tasks = (w.become i task).tasks) (log : w'.log = w.log) (other : task.callDue = none) :
    CallsStep w w' where
  clock := by rw [clock]
  due j r calling := by
    rw [tasks] at calling
    exact .inl (calling_of_become other calling)
  started := ⟨[], by simpa using log, by rintro _ _ ⟨⟩⟩

theorem step_calls {limits : StoreLimits}
    (stepped : w.step limits action = some w') : CallsStep w w' := by
  revert stepped
  fun_cases World.step <;> rintro ⟨⟩
  all_goals try exact .of_become rfl rfl rfl rfl
  · next later => exact ⟨later, fun _ _ calling => .inl calling, [], by simp, by rintro _ _ ⟨⟩⟩
  · refine .of_become rfl rfl rfl ?_
    unfold afterDecision
    split
    · split <;> rfl
    all_goals rfl
  · next found r _ =>
    refine .of_become rfl rfl rfl ?_
    rcases afterLookup_cases r found with passed | ⟨ended, refused⟩
    · rw [passed]
      rfl
    · rw [refused]
      rfl
  · next i panics r rechecking =>
    refine ⟨le_refl _, fun j r' calling => ?_, [], by simp [World.become], by rintro _ _ ⟨⟩⟩
    by_cases same : j = i
    · subst same
      rw [become_self] at calling
      rcases afterRecheck_cases r w.clock panics with ⟨passed, early⟩ | ⟨ended, refused⟩
      · rw [passed] at calling
        cases calling
        exact .inr ⟨rechecking, early⟩
      · rw [refused] at calling
        cases calling
    · rw [become_other w _ same] at calling
      exact .inl calling
  · next r calling =>
    refine ⟨le_refl _, fun j r' due => .inl (calling_of_become rfl due), _, rfl, ?_⟩
    intro j c listed
    simp only [List.mem_singleton, Event.started.injEq] at listed
    obtain ⟨rfl, rfl⟩ := listed
    exact ⟨r, calling, rfl⟩
  · refine ⟨le_refl _, fun j r' due => .inl (calling_of_become rfl due), _, rfl, ?_⟩
    intro j c listed
    simp at listed

/-- A sender that tracks one envelope, with the states its tracker was told, and the receivers. -/
structure Exchange (R : Type) where
  /-- The sender's clock. -/
  clock : Timestamp
  tracker : EnvelopeTracker
  told : List HeldState
  receivers : R → World

inductive Exchange.Move (R : Type) where
  /-- The sender's clock moves on; readings never decrease. -/
  | tick (now : Timestamp)
  | passed
  | notPassed (code : ErrorCode)
  | receipt (r : DeliveryReceipt)
  | receiver (j : R) (action : Action)

namespace Exchange

section Runs

variable {R : Type} [DecidableEq R] {limits : R → StoreLimits}

def step (limits : R → StoreLimits) (move : Move R) (x : Exchange R) : Option (Exchange R) :=
  match move with
  | .tick now => if x.clock.unixNanos ≤ now.unixNanos then some { x with clock := now } else none
  | .passed => some { x with tracker := x.tracker.passed }
  | .notPassed code =>
    let (recorded, tracker) := x.tracker.notPassed code
    some { x with tracker := tracker, told := if recorded then x.told ++ [⟨.failed, .sender⟩] else x.told }
  | .receipt r =>
    let (recorded, tracker) := x.tracker.receipt r
    some { x with
      tracker := tracker
      told := if recorded then x.told ++ [⟨r.effectiveState, r.observer⟩] else x.told }
  | .receiver j action =>
    ((x.receivers j).step (limits j) action).map fun w =>
      { x with receivers := Function.update x.receivers j w }

/-- The sender's clock and every receiver's differ by less than the replay window. -/
def Close (x : Exchange R) : Prop :=
  ∀ j, x.clock.unixNanos - (x.receivers j).clock.unixNanos < windowNanos ∧
    (x.receivers j).clock.unixNanos - x.clock.unixNanos < windowNanos

/-- A move between two instants at which the clocks are close. -/
def within (limits : R → StoreLimits) (move : Move R) (x : Exchange R) : Prop :=
  x.Close ∧ ∀ y ∈ x.step limits move, y.Close

def Starts (env : Envelope) (x : Exchange R) : Prop := x.tracker = .new env ∧ x.told = [] ∧ x.Close

section Sender

variable {x y : Exchange R} {move : Move R}

/-- What one move does on the sender's side. -/
structure SenderStep (x y : Exchange R) : Prop where
  clock : x.clock.unixNanos ≤ y.clock.unixNanos
  deadline : y.tracker.deadline = x.tracker.deadline
  held : x.tracker.held = Held.of x.told → y.tracker.held = Held.of y.told

theorem step_sender (stepped : x.step limits move = some y) : SenderStep x y := by
  cases move with
  | tick now =>
    simp only [step] at stepped
    split at stepped
    · next later =>
      cases stepped
      exact ⟨later, rfl, id⟩
    · cases stepped
  | passed =>
    cases stepped
    exact ⟨le_refl _, rfl, id⟩
  | notPassed code =>
    simp only [step, EnvelopeTracker.notPassed] at stepped
    split at stepped
    · cases stepped
      exact ⟨le_refl _, rfl, id⟩
    · cases stepped
      refine ⟨le_refl _, rfl, fun held => ?_⟩
      simp only [if_true, Held.of_concat, held]
  | receipt r =>
    simp only [step, EnvelopeTracker.receipt] at stepped
    split at stepped
    · cases stepped
      exact ⟨le_refl _, rfl, id⟩
    · cases stepped
      refine ⟨le_refl _, rfl, fun held => ?_⟩
      simp only [if_true, Held.of_concat, held]
  | receiver j action =>
    obtain ⟨w, -, rfl⟩ := Option.map_eq_some_iff.mp stepped
    exact ⟨le_refl _, rfl, id⟩

theorem held_of_run (starts : Starts env start) (run : Reaches (step limits) (within limits) start x) :
    x.tracker.deadline = .of env ∧ x.tracker.held = Held.of x.told := by
  refine Reaches.invariant (P := fun x => x.tracker.deadline = .of env ∧
    x.tracker.held = Held.of x.told) ?_ run ?_
  · intro move x y _ stepped kept
    have moved := step_sender stepped
    exact ⟨moved.deadline.trans kept.1, moved.held kept.2⟩
  · obtain ⟨tracker, told, -⟩ := starts
    rw [tracker, told]
    exact ⟨rfl, rfl⟩

theorem close_of_run (close : start.Close) (run : Reaches (step limits) (within limits) start x) : x.Close :=
  Reaches.invariant (fun _ _ y allowed stepped _ => allowed.2 y stepped) run close

end Sender

section Receivers

variable {x y : Exchange R} {move : Move R}

theorem step_receiver (stepped : x.step limits move = some y) (j : R) :
    y.receivers j = x.receivers j ∨ CallsStep (x.receivers j) (y.receivers j) := by
  cases move with
  | tick now =>
    simp only [step] at stepped
    split at stepped
    · cases stepped
      exact .inl rfl
    · cases stepped
  | passed =>
    cases stepped
    exact .inl rfl
  | notPassed code =>
    cases stepped
    exact .inl rfl
  | receipt r =>
    cases stepped
    exact .inl rfl
  | receiver k action =>
    obtain ⟨w, moved, rfl⟩ := Option.map_eq_some_iff.mp stepped
    by_cases same : j = k
    · subst same
      refine .inr ?_
      simp only [Function.update_self]
      exact step_calls moved
    · exact .inl (Function.update_of_ne same ..)

omit [DecidableEq R] in
/-- Past the retry deadline by the sender's clock, the hand-off deadline is past by every
receiver's. -/
theorem Close.late (close : x.Close) (passed : deadline + windowNanos ≤ x.clock.unixNanos) (j : R) :
    deadline < (x.receivers j).clock.unixNanos := by
  have apart := (close j).1
  omega

/-- What holds after an instant `x` from which on no re-check lets a copy through: the calls that
are due were due then, and so were those that have started since. -/
structure Since (deadline : Int) (x y : Exchange R) (j : R) : Prop where
  due : ∀ i r, (y.receivers j).tasks i = .calling r → r.copy.deadline = deadline →
    (x.receivers j).tasks i = .calling r
  started : ∃ newer, (y.receivers j).log = (x.receivers j).log ++ newer ∧
    ∀ i c, .started i c ∈ newer → c.deadline = deadline → ∃ r, (x.receivers j).tasks i = .calling r ∧ r.copy = c

omit [DecidableEq R] in
theorem Since.refl (deadline : Int) (x : Exchange R) (j : R) : Since deadline x x j :=
  ⟨fun _ _ due _ => due, [], by simp, by rintro _ _ ⟨⟩⟩

theorem Since.step (since : Since deadline x y j)
    (late : deadline ≤ (y.receivers j).clock.unixNanos) (stepped : y.step limits move = some z) :
    Since deadline x z j := by
  rcases step_receiver stepped j with same | calls
  · obtain ⟨due, started⟩ := since
    exact ⟨by rw [same]; exact due, by rw [same]; exact started⟩
  obtain ⟨newer, log, started⟩ := since.started
  obtain ⟨latest, log', started'⟩ := calls.started
  refine ⟨fun i r due same => ?_,
    newer ++ latest, by rw [log', log, List.append_assoc], fun i c listed same => ?_⟩
  · rcases calls.due i r due with before | ⟨-, early⟩
    · exact since.due i r before same
    · -- a re-check that passes is made before the deadline
      omega
  · rcases List.mem_append.mp listed with earlier | last
    · exact started i c earlier same
    · obtain ⟨r, due, copy⟩ := started' i c last
      exact ⟨r, since.due i r due (by rw [copy, same]), copy⟩

theorem since_of_run (passed : deadline + windowNanos ≤ x.clock.unixNanos)
    (run : Reaches (step limits) (within limits) x y) (j : R) :
    deadline + windowNanos ≤ y.clock.unixNanos ∧ Since deadline x y j := by
  refine Reaches.invariant
    (P := fun y => deadline + windowNanos ≤ y.clock.unixNanos ∧ Since deadline x y j) ?_ run ⟨passed, .refl ..⟩
  intro move y z allowed stepped kept
  refine ⟨le_trans kept.1 (step_sender stepped).clock, kept.2.step ?_ stepped⟩
  exact le_of_lt (allowed.1.late kept.1 j)

/-- A call that is due may start at any time. -/
theorem starts_of_due (limits : R → StoreLimits) (close : x.Close)
    (due : (x.receivers j).tasks i = .calling r) :
    ∃ y, Reaches (step limits) (within limits) x y ∧
      (y.receivers j).log = (x.receivers j).log ++ [.started i r.copy] := by
  obtain ⟨w, called, clock, log⟩ : ∃ w, (x.receivers j).step (limits j) (.call i) = some w ∧
      w.clock = (x.receivers j).clock ∧ w.log = (x.receivers j).log ++ [.started i r.copy] := by
    simp only [World.step, due]
    exact ⟨_, rfl, rfl, rfl⟩
  have stepped : x.step limits (.receiver j (.call i)) =
      some { x with receivers := Function.update x.receivers j w } := by
    rw [step, called, Option.map_some]
  refine ⟨_, .single ⟨_, ⟨close, fun y made k => ?_⟩, stepped⟩, by simpa only [Function.update_self] using log⟩
  cases stepped.symm.trans made
  by_cases same : k = j
  · subst same
    simpa only [Function.update_self, clock] using close k
  · simpa only [Function.update_of_ne same] using close k

end Receivers

/-- A sender that passed a copy and may retry was told of no hand-off, no duplicate and no
receiver's `unknown`. From that instant on no receiver's deadline re-check lets a copy of the
envelope through, so a hand-off call of a copy that still starts is one whose re-check had passed
before. So a copy starts in no run exactly when no receiver is between its passed re-check and its
call at that instant. -/
theorem retry_outlasts_rechecks (limits : R → StoreLimits) (env : Envelope) (start x : Exchange R)
    (starts : Starts env start) (run : Reaches (step limits) (within limits) start x)
    (passed : 0 < x.tracker.copiesPassed) (allowed : x.tracker.retryAllowed x.clock = true) :
    (∀ h ∈ x.told, h.state ≠ .handedToHarness ∧ h.state ≠ .duplicate ∧
        ¬ (h.state = .unknown ∧ h.observer = .receiver)) ∧
    (∀ y, Reaches (step limits) (within limits) x y → ∀ j,
        (∀ msg panics key, of msg.envelope = .of env →
          afterRecheck ⟨key, msg⟩ (y.receivers j).clock panics ≠ .calling ⟨key, msg⟩) ∧
        ∃ newer, (y.receivers j).log = (x.receivers j).log ++ newer ∧
          ∀ i c, .started i c ∈ newer → c.deadline = (of env).unixNanos →
            ∃ r, (x.receivers j).tasks i = .calling r ∧ r.copy = c) ∧
    ∀ c : SignedCopy, c.deadline = (of env).unixNanos →
      ((∀ y, Reaches (step limits) (within limits) x y → ∀ j newer,
          (y.receivers j).log = (x.receivers j).log ++ newer → ∀ i, .started i c ∉ newer) ↔
        ∀ j i r, (x.receivers j).tasks i = .calling r → r.copy ≠ c) := by
  obtain ⟨deadline, held⟩ := held_of_run starts run
  obtain ⟨late, unbarred⟩ := EnvelopeTracker.retryAllowed_passed passed allowed
  rw [deadline] at late
  have close := close_of_run starts.2.2 run
  refine ⟨?_, ?_, fun c same => ⟨fun none j i r due copy => ?_, fun none y later j newer log i listed => ?_⟩⟩
  · intro h mem
    rw [held, Held.of_bars] at unbarred
    have clear := List.any_eq_false.mp unbarred h mem
    simp only [HeldState.bars, Bool.or_eq_true, Bool.and_eq_true, beq_iff_eq, not_or] at clear
    exact ⟨clear.1.1, clear.1.2, clear.2⟩
  · intro y later j
    obtain ⟨still, since⟩ := since_of_run late later j
    have past := (close_of_run close later).late still j
    refine ⟨fun msg panics key same calling => ?_, since.started⟩
    rcases afterRecheck_cases ⟨key, msg⟩ (y.receivers j).clock panics with ⟨-, early⟩ | ⟨ended, refused⟩
    · have deadlines : (Reservation.mk key msg).copy.deadline = (of env).unixNanos := by
        rw [← same]
        rfl
      omega
    · rw [refused] at calling
      cases calling
  · obtain ⟨y, reached, log⟩ := starts_of_due limits close due
    exact none y reached j _ log i (copy ▸ List.mem_singleton_self _)
  · obtain ⟨newer', log', started⟩ := (since_of_run late later j).2.started
    cases List.append_cancel_left (log.symm.trans log')
    obtain ⟨r, due, copy⟩ := started i c listed same
    exact none j i r due copy

end Runs

instance {R : Type} [Fintype R] (x : Exchange R) : Decidable x.Close :=
  inferInstanceAs (Decidable (∀ j, x.clock.unixNanos - (x.receivers j).clock.unixNanos < windowNanos ∧
    (x.receivers j).clock.unixNanos - x.clock.unixNanos < windowNanos))

instance {R : Type} [Fintype R] [DecidableEq R] (limits : R → StoreLimits)
    (move : Move R) (x : Exchange R) : Decidable (within limits move x) :=
  inferInstanceAs (Decidable (x.Close ∧ ∀ y ∈ x.step limits move, y.Close))

def at299 : Timestamp := ⟨"1970-01-01T00:04:59Z", 299000000000, by decide +kernel⟩
def at598 : Timestamp := ⟨"1970-01-01T00:09:58Z", 598000000000, by decide +kernel⟩
def at600 : Timestamp := ⟨"1970-01-01T00:10:00Z", 600000000000, by decide +kernel⟩

def sampleLimits : Unit → StoreLimits := fun _ => .withCapacity 4

def sampleStart : Exchange Unit :=
  ⟨.epoch, .new sampleMessage.message.envelope, [], fun _ => .initial .epoch⟩

def sampleCopy : SignedCopy :=
  (Reservation.mk ⟨sampleMessage.message.envelope.security.keyId, "n1"⟩ sampleMessage.message).copy

def startsSample : CallEvent → Bool
  | .started _ c => decide (c = sampleCopy)
  | .ended _ _ _ => false

/-- The receiver, 299 seconds behind the sender, may re-check the deadline a second before it. Then
both clocks move on, and the sender may retry. -/
def sampleMoves (rechecks : List (Move Unit)) : List (Move Unit) :=
  [.passed, .receiver () (.offer 0 sampleMessage false), .receiver () (.admission 0),
    .receiver () (.lookup 0 (some (some sampleTarget))), .tick at299, .receiver () (.tick at299), .tick at598] ++
  rechecks ++ [.receiver () (.tick at301), .tick at600]

/-- The hand-off call of a copy can start after the sender may retry: the receiver's thread was
between its clock reading and the call. -/
theorem handoff_starts_after_retry_allowed :
    ∃ x y : Exchange Unit, Starts sampleMessage.message.envelope sampleStart ∧
      Reaches (step sampleLimits) (within sampleLimits) sampleStart x ∧
      x.tracker.copiesPassed = 1 ∧ x.tracker.retryAllowed x.clock = true ∧
      Reaches (step sampleLimits) (within sampleLimits) x y ∧
      (x.receivers ()).log = [] ∧ ∃ i, .started i sampleCopy ∈ (y.receivers ()).log := by
  have performed : (performWithin (step sampleLimits) (within sampleLimits)
      (sampleMoves [.receiver () (.recheck 0 false)])
      sampleStart).map (fun x => (x.tracker.copiesPassed, x.tracker.retryAllowed x.clock,
        (x.receivers ()).log.length, (performWithin (step sampleLimits)
          (within sampleLimits) [.receiver () (.call 0)] x).map fun y =>
            (y.receivers ()).log.any startsSample)) =
      some (1, true, 0, some true) := by decide +kernel
  obtain ⟨x, reached, seen⟩ := reachedWithin_of_map _ performed
  simp only [Prod.mk.injEq] at seen
  obtain ⟨passed, allowed, before, seen⟩ := seen
  obtain ⟨y, reaches, after⟩ := reachedWithin_of_map _ seen
  obtain ⟨event, listed, starts⟩ := List.any_eq_true.mp after
  refine ⟨x, y, ⟨rfl, rfl, by decide +kernel⟩, reached, passed, allowed,
    reaches, List.length_eq_zero_iff.mp before, ?_⟩
  cases event with
  | started i c => exact ⟨i, of_decide_eq_true starts ▸ listed⟩
  | ended i c taken => cases starts

/-- Without the re-check before the deadline, no call of the copy starts. -/
theorem retry_outlasts_rechecks_sample :
    ∃ x : Exchange Unit, Reaches (step sampleLimits) (within sampleLimits) sampleStart x ∧
      x.tracker.retryAllowed x.clock = true ∧
      ∀ y, Reaches (step sampleLimits) (within sampleLimits) x y →
        ∀ newer, (y.receivers ()).log = (x.receivers ()).log ++ newer → ∀ i, .started i sampleCopy ∉ newer := by
  obtain ⟨tasks, performed, none⟩ : ∃ tasks : Nat → Task,
      (performWithin (step sampleLimits) (within sampleLimits) (sampleMoves [])
        sampleStart).map (fun x => (x.tracker.copiesPassed, x.tracker.retryAllowed x.clock,
          (x.receivers ()).tasks)) = some (1, true, tasks) ∧ ∀ i r, tasks i ≠ .calling r := by
    refine ⟨_, rfl, fun i r due => ?_⟩
    by_cases first : i = 0
    · cases first ▸ due
    · simp [World.become, first, sampleStart, World.initial] at due
  obtain ⟨x, reached, seen⟩ := reachedWithin_of_map _ performed
  simp only [Prod.mk.injEq] at seen
  obtain ⟨passed, allowed, rfl⟩ := seen
  have outlasts := retry_outlasts_rechecks sampleLimits sampleMessage.message.envelope sampleStart x
    ⟨rfl, rfl, by decide +kernel⟩ reached (by rw [passed]; exact Nat.one_pos) allowed
  exact ⟨x, reached, allowed, fun y later newer log i started =>
    (outlasts.2.2 _ rfl).mpr (fun _ i r due => absurd due (none i r)) y later () newer log i started⟩

end Exchange

end Oac
