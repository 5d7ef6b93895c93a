import Mathlib.Tactic.ByContra
import Oac.Foundation.Transition

/-! Logs of calls made on resources by callers. For one resource, a legal log starts a call only
when none is running, and starts none after a call has taken the resource. -/

namespace Calls

open Transition Option

variable {I R : Type} [DecidableEq I] [DecidableEq R]

inductive Event (I R : Type) where
  | started (caller : I) (resource : R)
  | ended (caller : I) (resource : R) (taken : Bool)

/-- What a log says about one resource. -/
inductive Status (I : Type) where
  | free
  | running (caller : I)
  | taken
  deriving DecidableEq

/-- The effect of an event on the status of resource `r`; nothing when the event is not legal. -/
def Event.apply (r : R) : Event I R → Status I → Option (Status I)
  | .started i s, st =>
    if s = r then
      match st with
      | .free => some (.running i)
      | _ => none
    else some st
  | .ended i s taken, st =>
    if s = r then
      if st = .running i then some (if taken then .taken else .free) else none
    else some st

/-- The status of `r` after a log, when every event of the log about `r` was legal. -/
def statusAfter (r : R) (log : List (Event I R)) : Option (Status I) :=
  perform (Event.apply r) log .free

theorem perform_append (step : A → S → Option S) (first last : List A) (s : S) :
    perform step (first ++ last) s = (perform step first s).bind (perform step last) := by
  induction first generalizing s with
  | nil => rfl
  | cons a rest ih =>
    cases stepped : step a s with
    | none => simp [perform, stepped]
    | some t => simp [perform, stepped, ih]

theorem statusAfter_snoc (r : R) (log : List (Event I R)) (e : Event I R) :
    statusAfter r (log ++ [e]) = (statusAfter r log).bind (e.apply r) := by
  unfold statusAfter
  rw [perform_append]
  cases perform (Event.apply r) log .free with
  | none => rfl
  | some st => simp [perform]

/-- A running call stays the running one until an event ends it. -/
theorem running_until_ended {r : R} {i : I}
    (performed : perform (Event.apply r) events (.running i) = some st)
    (open_ : ∀ taken, .ended i r taken ∉ events) : st = .running i := by
  induction events with
  | nil =>
    cases performed
    rfl
  | cons e rest ih =>
    have later : ∀ taken, .ended i r taken ∉ rest := fun taken mem =>
      open_ taken (List.mem_cons_of_mem _ mem)
    obtain ⟨u, stepped, continued⟩ := bind_eq_some_iff.mp performed
    cases e with
    | started j s =>
      by_cases same : s = r
      · simp [Event.apply, same] at stepped
      · simp only [Event.apply, same, if_false, some.injEq] at stepped
        exact ih (stepped ▸ continued) later
    | ended j s taken =>
      by_cases same : s = r
      · subst same
        have different : Status.running i ≠ .running j := by
          rintro ⟨⟩
          exact open_ taken (List.mem_cons_self ..)
        simp [Event.apply, different] at stepped
      · simp only [Event.apply, same, if_false, some.injEq] at stepped
        exact ih (stepped ▸ continued) later

variable {events : List (Event I R)}

/-- Once a resource is taken, no legal event is about it. -/
theorem nothing_after_taken (performed : perform (Event.apply r) events .taken = some st) :
    ∀ i, .started i r ∉ events ∧ ∀ taken, .ended i r taken ∉ events := by
  induction events with
  | nil => simp
  | cons e rest ih =>
    obtain ⟨u, stepped, continued⟩ := bind_eq_some_iff.mp performed
    cases e with
    | started j s =>
      by_cases same : s = r
      · simp [Event.apply, same] at stepped
      · simp only [Event.apply, same, if_false, some.injEq] at stepped
        have rest := ih (stepped ▸ continued)
        simpa [Ne.symm same] using rest
    | ended j s taken =>
      by_cases same : s = r
      · simp [Event.apply, same] at stepped
      · simp only [Event.apply, same, if_false, some.injEq] at stepped
        have rest := ih (stepped ▸ continued)
        simpa [Ne.symm same] using rest

variable {pre post : List (Event I R)}

/-- The log splits at an event, with the status before and after it. -/
theorem status_at (legal : (statusAfter r (pre ++ e :: post)).isSome) :
    ∃ before after, statusAfter r pre = some before ∧ e.apply r before = some after ∧
      (perform (Event.apply r) post after).isSome := by
  unfold statusAfter at legal ⊢
  rw [perform_append] at legal
  obtain ⟨final, performed⟩ := isSome_iff_exists.mp legal
  obtain ⟨before, first, performed⟩ := bind_eq_some_iff.mp performed
  obtain ⟨after, stepped, last⟩ := bind_eq_some_iff.mp performed
  exact ⟨before, after, first, stepped, by simp [last]⟩

/-- Two calls on one resource do not overlap: the first has ended before the second starts. -/
theorem no_overlap {r : R} {pre mid post : List (Event I R)}
    (legal : (statusAfter r (pre ++ .started i r :: (mid ++ .started j r :: post))).isSome) :
    ∃ taken, .ended i r taken ∈ mid := by
  obtain ⟨before, after, _, stepped, rest⟩ := status_at legal
  have running : after = .running i := by
    cases before <;> simp_all [Event.apply]
  subst running
  rw [perform_append] at rest
  obtain ⟨final, performed⟩ := isSome_iff_exists.mp rest
  obtain ⟨middle, first, performed⟩ := bind_eq_some_iff.mp performed
  by_contra never
  have still := running_until_ended first fun taken mem => never ⟨taken, mem⟩
  subst still
  simp [perform, Event.apply] at performed

/-- After a call that took the resource, no call on it starts or ends. -/
theorem taken_is_last (legal : (statusAfter r (pre ++ .ended i r true :: post)).isSome) :
    ∀ j, .started j r ∉ post ∧ ∀ taken, .ended j r taken ∉ post := by
  obtain ⟨before, after, _, stepped, rest⟩ := status_at legal
  have taken : after = .taken := by
    by_cases running : before = .running i <;> simp_all [Event.apply]
  subst taken
  obtain ⟨final, performed⟩ := isSome_iff_exists.mp rest
  exact nothing_after_taken performed

def Event.takes (r : R) : Event I R → Bool
  | .ended _ s taken => decide (s = r) && taken
  | .started _ _ => false

theorem no_takes_after_taken (performed : perform (Event.apply r) events .taken = some st) :
    events.countP (Event.takes r) = 0 := by
  refine List.countP_eq_zero.mpr fun e mem takes => ?_
  cases e with
  | started i s => simp [Event.takes] at takes
  | ended i s taken =>
    have same : s = r := by simp_all [Event.takes]
    exact (nothing_after_taken performed i).2 taken (same ▸ mem)

theorem takes_apply {e : Event I R} (takes : e.takes r = true) (applied : e.apply r st = some st') :
    st' = .taken := by
  cases e with
  | started i s => simp [Event.takes] at takes
  | ended i s taken => by_cases running : st = .running i <;> simp_all [Event.takes, Event.apply]

theorem takes_at_most_once (performed : perform (Event.apply r) events st = some st') :
    events.countP (Event.takes r) ≤ 1 := by
  induction events generalizing st with
  | nil => simp
  | cons e rest ih =>
    obtain ⟨u, stepped, continued⟩ := bind_eq_some_iff.mp performed
    rw [List.countP_cons]
    cases takes : e.takes r with
    | false => simpa using ih continued
    | true =>
      have taken := takes_apply takes stepped
      subst taken
      simp [no_takes_after_taken continued]

/-- At most one call takes a resource. -/
theorem taken_once {log : List (Event I R)} (legal : (statusAfter r log).isSome) :
    log.countP (Event.takes r) ≤ 1 := by
  obtain ⟨final, performed⟩ := isSome_iff_exists.mp legal
  exact takes_at_most_once performed

end Calls
