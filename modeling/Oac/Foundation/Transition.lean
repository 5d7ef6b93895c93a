import Mathlib.Logic.Relation

/-! Labelled transition systems given by a partial step function. A guard restricts which labels
may fire in which states; the unrestricted system has the trivial guard. -/

namespace Transition

variable {S A : Type}

/-- One move: a label whose guard holds in `s` takes `s` to `t`. -/
def Moves (step : A → S → Option S) (guard : A → S → Prop) (s t : S) : Prop :=
  ∃ a, guard a s ∧ step a s = some t

/-- Every label may fire wherever the step function is defined. -/
def anyMove (_ : A) (_ : S) : Prop := True

/-- The states reached from `s` by finitely many guarded moves. -/
abbrev Reaches (step : A → S → Option S) (guard : A → S → Prop) (s t : S) : Prop :=
  Relation.ReflTransGen (Moves step guard) s t

variable {guard : A → S → Prop}

/-- A property of the first state that every guarded step keeps holds in every state reached. -/
theorem Reaches.invariant {P : S → Prop}
    (preserves : ∀ a s t, guard a s → step a s = some t → P s → P t)
    (run : Reaches step guard s t) (first : P s) :
    P t := by
  induction run with
  | refl => exact first
  | tail _ move ih =>
    obtain ⟨a, allowed, stepped⟩ := move
    exact preserves a _ _ allowed stepped ih

/-- A run within a guard is a run within every weaker one. -/
theorem Reaches.weaken {guard guard' : A → S → Prop} (implies : ∀ a s, guard a s → guard' a s)
    (run : Reaches step guard s t) : Reaches step guard' s t := by
  induction run with
  | refl => exact .refl
  | tail _ move ih =>
    obtain ⟨a, allowed, stepped⟩ := move
    exact ih.tail ⟨a, implies a _ allowed, stepped⟩

def perform (step : A → S → Option S) : List A → S → Option S
  | [], s => some s
  | a :: rest, s => (step a s).bind (perform step rest)

/-- Performing a list of labels is a run of the unrestricted system. -/
theorem reaches_of_perform (labels : List A) (performed : perform step labels s = some t) :
    Reaches step anyMove s t := by
  induction labels generalizing s with
  | nil =>
    cases performed
    exact .refl
  | cons a rest ih =>
    obtain ⟨u, stepped, continued⟩ := Option.bind_eq_some_iff.mp performed
    exact .head ⟨a, trivial, stepped⟩ (ih continued)

/-- Evaluating a run of the unrestricted system. -/
theorem reached_of_map {f : S → β} (labels : List A) (performed : (perform step labels s).map f = some x) :
    ∃ t, Reaches step anyMove s t ∧ f t = x := by
  obtain ⟨t, run, found⟩ := Option.map_eq_some_iff.mp performed
  exact ⟨t, reaches_of_perform labels run, found⟩

def performWithin (step : A → S → Option S) (guard : A → S → Prop) [∀ a s, Decidable (guard a s)] :
    List A → S → Option S
  | [], s => some s
  | a :: rest, s => if guard a s then (step a s).bind (performWithin step guard rest) else none

/-- Performing a list of labels within their guards is a guarded run. -/
theorem reaches_of_performWithin [∀ a s, Decidable (guard a s)] (labels : List A)
    (performed : performWithin step guard labels s = some t) : Reaches step guard s t := by
  induction labels generalizing s with
  | nil =>
    cases performed
    exact .refl
  | cons a rest ih =>
    simp only [performWithin] at performed
    split at performed
    · next allowed =>
      obtain ⟨u, stepped, continued⟩ := Option.bind_eq_some_iff.mp performed
      exact .head ⟨a, allowed, stepped⟩ (ih continued)
    · cases performed

/-- Evaluating a guarded run. -/
theorem reachedWithin_of_map [∀ a s, Decidable (guard a s)] {f : S → β} (labels : List A)
    (performed : (performWithin step guard labels s).map f = some x) :
    ∃ t, Reaches step guard s t ∧ f t = x := by
  obtain ⟨t, run, found⟩ := Option.map_eq_some_iff.mp performed
  exact ⟨t, reaches_of_performWithin labels run, found⟩

end Transition
