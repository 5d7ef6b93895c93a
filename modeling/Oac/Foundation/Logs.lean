import Mathlib.Data.List.Induction

/-! Machines that answer each call made on them, and the log that a sequence of calls leaves. What a
machine can do once is what no state has left after it. -/

namespace Logs

open List

variable {S A B : Type}

/-- A call with its answer, and the states around it. -/
structure Line (S A B : Type) where
  before : S
  call : A
  after : S
  answer : B

variable (answer : A → S → S × B)

def line (a : A) (s : S) : Line S A B := ⟨s, a, (answer a s).1, (answer a s).2⟩

def after (calls : List A) (s : S) : S := calls.foldl (fun s a => (answer a s).1) s

def log : List A → S → List (Line S A B)
  | [], _ => []
  | a :: rest, s => line answer a s :: log rest (answer a s).1

theorem after_snoc (calls : List A) (a : A) (s : S) :
    after answer (calls ++ [a]) s = (answer a (after answer calls s)).1 := by
  simp [after]

theorem log_snoc (calls : List A) (a : A) (s : S) :
    log answer (calls ++ [a]) s = log answer calls s ++ [line answer a (after answer calls s)] := by
  induction calls generalizing s with
  | nil => rfl
  | cons b rest ih => simp [log, ih, after]

variable {answer}

/-- What holds of no calls and is kept by one more call, with its line, holds of every log. -/
theorem history {P : List (Line S A B) → S → Prop} (first : P [] s)
    (next : ∀ lines s a, P lines s → P (lines ++ [line answer a s]) (answer a s).1) (calls : List A) :
    P (log answer calls s) (after answer calls s) := by
  induction calls using reverseRecOn with
  | nil => exact first
  | append_singleton rest a ih =>
    rw [log_snoc, after_snoc]
    exact next _ _ a ih

/-- A fact of every line that is written where an invariant holds. -/
theorem each_line {P : S → Prop} {Q : Line S A B → Prop} (first : P s)
    (keeps : ∀ a s, P s → P (answer a s).1) (fact : ∀ a s, P s → Q (line answer a s)) (calls : List A) :
    ∀ e ∈ log answer calls s, Q e := by
  have whole := history (P := fun lines s => P s ∧ ∀ e ∈ lines, Q e) ⟨first, nofun⟩ (by
    intro lines s a ⟨held, facts⟩
    refine ⟨keeps a s held, fun e made => ?_⟩
    rcases mem_append.mp made with earlier | new
    · exact facts e earlier
    · rw [mem_singleton.mp new]
      exact fact a s held) calls
  exact whole.2

/-- What leaves the machine spent, and is not done by a spent machine, is done at most once. -/
theorem at_most_once (P Spent : S → Prop) (first : P s) (keeps : ∀ a s, P s → P (answer a s).1)
    (spends : ∀ a s, P s → hit (line answer a s) = true → ¬ Spent s ∧ Spent (answer a s).1)
    (stays : ∀ a s, P s → Spent s → Spent (answer a s).1) (calls : List A) :
    (log answer calls s).countP hit ≤ 1 := by
  have whole := history (P := fun lines s =>
      P s ∧ lines.countP hit ≤ 1 ∧ (lines.countP hit = 0 ∨ Spent s)) ⟨first, by simp⟩ (by
    intro lines s a ⟨held, few, spent⟩
    refine ⟨keeps a s held, ?_⟩
    rw [countP_append, countP_singleton]
    split
    next done =>
      obtain ⟨fresh, used⟩ := spends a s held done
      have none := spent.resolve_right fresh
      exact ⟨by omega, .inr used⟩
    next => refine ⟨few, spent.imp id (stays a s held)⟩) calls
  exact whole.2.1

/-- What happens at most once happens in one line. -/
theorem unique_of_at_most_once {lines : List (Line S A B)} (few : lines.countP hit ≤ 1) (held : l ∈ lines)
    (held' : l' ∈ lines) (hits : hit l = true) (hits' : hit l' = true) : l = l' := by
  rw [countP_eq_length_filter] at few
  have first : l ∈ lines.filter hit := mem_filter.mpr ⟨held, hits⟩
  have second : l' ∈ lines.filter hit := mem_filter.mpr ⟨held', hits'⟩
  match found : lines.filter hit with
  | [] =>
    rw [found] at first
    cases first
  | [only] =>
    rw [found, mem_singleton] at first second
    rw [first, second]
  | _ :: _ :: _ =>
    rw [found, length_cons, length_cons] at few
    omega

end Logs
