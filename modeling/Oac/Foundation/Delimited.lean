import Mathlib.Data.List.Basic
import Mathlib.Logic.Function.Basic

/-! Encodings that can be split off the front of a longer text, as they are put one after the other
into a transcript: those of a fixed length, those led by their length and those led by a tag. -/

namespace Framing

open List

variable {α β γ σ : Type}

/-- What an encoding writes is found again in front of anything. -/
def Delimited (f : α → List σ) : Prop :=
  ∀ ⦃a b : α⦄ ⦃rest rest' : List σ⦄, f a ++ rest = f b ++ rest' → a = b ∧ rest = rest'

theorem Delimited.injective (delimited : Delimited f) : Function.Injective f := by
  intro a b same
  exact (@delimited a b [] [] (by rw [same])).1

theorem fixed {f : α → List σ} (injective : Function.Injective f) (length : ∀ a, (f a).length = n) :
    Delimited f := by
  intro a b rest rest' same
  obtain ⟨first, others⟩ := append_inj same (by rw [length, length])
  exact ⟨injective first, others⟩

theorem led {lead : Nat → σ} (injective : Function.Injective f)
    (distinct : ∀ a b, lead (f a).length = lead (f b).length → (f a).length = (f b).length) :
    Delimited fun a => lead (f a).length :: f a := by
  intro a b rest rest' same
  obtain ⟨leads, bodies⟩ := cons.inj same
  obtain ⟨first, others⟩ := append_inj bodies (distinct a b leads)
  exact ⟨injective first, others⟩

theorem append (first : Delimited f) (second : Delimited g) : Delimited fun p : α × β => f p.1 ++ g p.2 := by
  intro p q rest rest' same
  rw [append_assoc, append_assoc] at same
  obtain ⟨front, same⟩ := first same
  obtain ⟨back, others⟩ := second same
  exact ⟨Prod.ext front back, others⟩

theorem comp (delimited : Delimited f) (injective : Function.Injective g) : Delimited fun a => f (g a) := by
  intro a b rest rest' same
  obtain ⟨parts, others⟩ := delimited same
  exact ⟨injective parts, others⟩

/-- Joining with a separator, in two parts. -/
theorem intercalate_append {s : List σ} (first : ls ≠ []) (second : ls' ≠ []) :
    s.intercalate (ls ++ ls') = s.intercalate ls ++ s ++ s.intercalate ls' := by
  induction ls with
  | nil => exact absurd rfl first
  | cons l rest ih =>
    rw [cons_append, intercalate_cons_of_ne_nil (by simp [second])]
    by_cases last : rest = []
    · simp [last]
    · rw [ih last, intercalate_cons_of_ne_nil last]
      simp

theorem not_mem_of_mem_splitOn [DecidableEq σ] {x : σ} (held : l ∈ splitOn x text) : x ∉ l := by
  induction text generalizing l with
  | nil =>
    rw [mem_singleton.mp held]
    exact not_mem_nil
  | cons a rest ih =>
    rw [splitOn_cons_eq_if_modifyHead] at held
    generalize splitOn x rest = lines at held ih
    split at held
    · rcases mem_cons.mp held with rfl | later
      · exact not_mem_nil
      · exact ih later
    · next other =>
      cases lines with
      | nil => cases held
      | cons first others =>
        rcases mem_cons.mp held with rfl | later
        · rw [beq_iff_eq] at other
          exact not_mem_cons_of_ne_of_not_mem (Ne.symm other) (ih mem_cons_self)
        · exact ih (mem_cons_of_mem first later)

end Framing
