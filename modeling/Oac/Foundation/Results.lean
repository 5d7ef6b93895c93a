import Mathlib.Data.List.Forall2

/-! Inversion of computations that end in a value or in the first error. -/

namespace Results

open List

variable {ε δ α β : Type}

/-- A sequence ends in a value exactly when its first part does and the rest does from there. -/
theorem bind_eq_ok {f : α → Except ε β} :
    (x >>= f) = .ok b ↔ ∃ a, x = .ok a ∧ f a = .ok b := by
  cases x with
  | error error =>
    constructor
    · intro done
      cases done
    · rintro ⟨_, first, -⟩
      cases first
  | ok a =>
    constructor
    · intro done
      exact ⟨a, rfl, done⟩
    · rintro ⟨_, first, done⟩
      cases first
      exact done

variable {x : Except ε α}

theorem mapError_eq_ok : x.mapError f = .ok a ↔ x = .ok a := by
  cases x <;> simp [Except.mapError]

theorem ok_of_toOption (found : x.toOption = some a) : x = .ok a := by
  cases x with
  | error error => cases found
  | ok value =>
    cases found
    rfl

/-- A list of results comes of one result for each element. -/
theorem mapM_eq_ok {f : α → Except ε β} :
    l.mapM f = .ok results ↔ Forall₂ (fun a b => f a = .ok b) l results := by
  induction l generalizing results with
  | nil =>
    constructor
    · intro done
      cases done
      exact .nil
    · intro each
      cases each
      rfl
  | cons a rest ih =>
    rw [mapM_cons, bind_eq_ok]
    constructor
    · rintro ⟨b, first, done⟩
      obtain ⟨others, second, done⟩ := bind_eq_ok.mp done
      cases done
      exact .cons first (ih.mp second)
    · intro each
      cases each with
      | cons first others => exact ⟨_, first, bind_eq_ok.mpr ⟨_, ih.mpr others, rfl⟩⟩

theorem mapM_exists_iff {f : α → Except ε β} {l : List α} :
    (∃ results, l.mapM f = .ok results) ↔ ∀ a ∈ l, ∃ b, f a = .ok b := by
  simp only [mapM_eq_ok]
  induction l with
  | nil => exact iff_of_true ⟨[], .nil⟩ nofun
  | cons a rest ih =>
    rw [forall_mem_cons, ← ih]
    constructor
    · rintro ⟨_, each⟩
      cases each with
      | cons first others => exact ⟨⟨_, first⟩, _, others⟩
    · rintro ⟨⟨b, first⟩, results, others⟩
      exact ⟨b :: results, .cons first others⟩

theorem exists_of_forall₂ (each : Forall₂ R l results) (held : a ∈ l) : ∃ b ∈ results, R a b := by
  induction each with
  | nil => cases held
  | cons first _ ih =>
    obtain rfl | held := mem_cons.mp held
    · exact ⟨_, mem_cons_self, first⟩
    · obtain ⟨b, there, related⟩ := ih held
      exact ⟨b, mem_cons_of_mem _ there, related⟩

theorem map_eq_ok : x.map f = .ok b ↔ ∃ a, x = .ok a ∧ f a = b := by
  cases x <;> simp [Except.map]

theorem map_exists_iff : (∃ b, x.map f = .ok b) ↔ ∃ a, x = .ok a := by
  cases x <;> simp [Except.map]

section Errors

/-- Every error the computation can end in has the property. -/
def FailsOnly (P : ε → Prop) (x : Except ε α) : Prop := ∀ e, x = .error e → P e

variable {P : ε → Prop}

theorem FailsOnly.ok (a : α) : FailsOnly P (.ok a) := by
  intro e failed
  cases failed

theorem FailsOnly.error (held : P e) : FailsOnly P (.error e : Except ε α) := by
  intro e failed
  cases failed
  exact held

theorem FailsOnly.bind (first : FailsOnly P x) (rest : ∀ a, FailsOnly P (f a)) : FailsOnly P (x >>= f) := by
  intro e failed
  cases x with
  | error cause =>
    cases failed
    exact first e rfl
  | ok a => exact rest a e failed

theorem FailsOnly.map (first : FailsOnly P x) (f : α → β) : FailsOnly P (x.map f) := by
  intro e failed
  cases x with
  | error cause =>
    cases failed
    exact first e rfl
  | ok a => cases failed

theorem FailsOnly.mapError (x : Except δ α) (held : ∀ e, P (f e)) : FailsOnly P (x.mapError f) := by
  intro e failed
  cases x with
  | error cause =>
    cases failed
    exact held cause
  | ok a => cases failed

theorem FailsOnly.ite [Decidable c] (first : FailsOnly P x) (second : FailsOnly P y) :
    FailsOnly P (if c then x else y) := by
  split
  · exact first
  · exact second

theorem FailsOnly.mapM (each : ∀ a, FailsOnly P (f a)) (l : List α) : FailsOnly P (l.mapM f) := by
  induction l with
  | nil => exact .ok []
  | cons a rest ih =>
    rw [mapM_cons]
    exact (each a).bind fun _ => ih.bind fun _ => .ok _

end Errors

/-- A fold of steps that may fail keeps what each step keeps. -/
theorem foldlM_keeps {σ : Type} {R : σ → σ → Prop} {f : σ → α → Except ε σ} (refl : ∀ s, R s s)
    (trans : ∀ {a b c}, R a b → R b c → R a c) (each : ∀ s a t, f s a = .ok t → R s t)
    (l : List α) {s t : σ} (folded : l.foldlM f s = .ok t) : R s t := by
  induction l generalizing s with
  | nil =>
    have same : s = t := Except.ok.inj folded
    exact same ▸ refl s
  | cons a rest ih =>
    obtain ⟨middle, first, others⟩ := bind_eq_ok.mp folded
    exact trans (each s a middle first) (ih others)

/-- A fold succeeds when what holds after each part of the list lets the next step succeed. -/
theorem foldlM_succeeds {σ : Type} {P : List α → σ → Prop} {f : σ → α → Except ε σ}
    (each : ∀ done a rest s, l = done ++ a :: rest → P done s → ∃ t, f s a = .ok t ∧ P (done ++ [a]) t) {s : σ}
    (first : P [] s) : ∃ t, l.foldlM f s = .ok t ∧ P l t := by
  have from_ : ∀ rest done s, l = done ++ rest → P done s → ∃ t, rest.foldlM f s = .ok t ∧ P l t := by
    intro rest
    induction rest with
    | nil =>
      intro done s whole held
      rw [append_nil] at whole
      exact ⟨s, rfl, whole ▸ held⟩
    | cons a rest ih =>
      intro done s whole held
      obtain ⟨middle, stepped, next⟩ := each done a rest s whole held
      obtain ⟨t, others, last⟩ := ih (done ++ [a]) middle (by rw [whole]; simp) next
      refine ⟨t, ?_, last⟩
      rw [foldlM_cons, bind_eq_ok]
      exact ⟨middle, stepped, others⟩
  exact from_ l [] s rfl first

end Results
