import Mathlib.Algebra.GroupWithZero.Nat
import Mathlib.Data.List.Basic

/-! Threads as stacks of frames. A thread runs its first frame, which may leave frames to run before
the rest of the stack; a new thread is added behind the others. -/

namespace Threads

open List hiding getElem?_eq_some_iff

variable {F : Type} {threads : List (List F)} {frames rest : List F} {f first : F} {i : Nat}

/-- Thread `i` has run its first frame, which left `frames` before `rest`. -/
def advance (threads : List (List F)) (i : Nat) (frames rest : List F) : List (List F) :=
  threads.set i (frames ++ rest)

def spawn (threads : List (List F)) (frames : List F) : List (List F) := threads ++ [frames]

def Waits (threads : List (List F)) (f : F) : Prop := ∃ stack ∈ threads, f ∈ stack

instance [DecidableEq F] : Decidable (Waits threads f) :=
  inferInstanceAs (Decidable (∃ stack ∈ threads, f ∈ stack))

theorem waits_spawn : Waits (spawn threads frames) f ↔ Waits threads f ∨ f ∈ frames := by
  simp [Waits, spawn, or_and_right, exists_or]

/-- After a step a waiting frame was left by it or waited before. -/
theorem waits_advance (running : threads[i]? = some (first :: rest))
    (waits : Waits (advance threads i frames rest) f) : f ∈ frames ∨ Waits threads f := by
  obtain ⟨stack, member, held⟩ := waits
  rcases mem_or_eq_of_mem_set member with old | rfl
  · exact .inr ⟨stack, old, held⟩
  · rcases mem_append.mp held with new | old
    · exact .inl new
    · exact .inr ⟨first :: rest, mem_of_getElem? running, mem_cons_of_mem first old⟩

section Moves

variable {stages : List F} {old new : F}

/-- A measure over every thread changes by what it changes for the thread that moves. -/
theorem sum_set (f : F → Nat) (here : stages[i]? = some old) (new : F) :
    ((stages.set i new).map f).sum + f old = (stages.map f).sum + f new := by
  induction stages generalizing i with
  | nil => cases here
  | cons stage rest ih =>
    cases i with
    | zero =>
      cases here
      simp only [set_cons_zero, map_cons, sum_cons]
      omega
    | succ i =>
      have tail := ih here
      simp only [set_cons_succ, map_cons, sum_cons]
      omega

theorem countP_set (p : F → Bool) (here : stages[i]? = some old) (new : F) :
    (stages.set i new).countP p + (p old).toNat = stages.countP p + (p new).toNat := by
  have counted : ∀ l : List F, l.countP p = (l.map fun a => (p a).toNat).sum := by
    intro l
    induction l with
    | nil => rfl
    | cons a rest ih =>
      rw [countP_cons, map_cons, ih]
      cases p a <;> simp [Nat.add_comm]
  rw [counted, counted]
  exact sum_set (fun a => (p a).toNat) here new

/-- A thread with a property remains when the thread that moves keeps the property. -/
theorem exists_set {P : F → Prop} (here : stages[i]? = some old) (keeps : P old → P new)
    (held : ∃ stage ∈ stages, P stage) : ∃ stage ∈ stages.set i new, P stage := by
  obtain ⟨stage, member, held⟩ := held
  obtain ⟨j, there⟩ := mem_iff_getElem?.mp member
  by_cases same : j = i
  · subst same
    have bound : j < stages.length := (List.getElem?_eq_some_iff.mp here).1
    refine ⟨new, mem_set bound new, keeps ?_⟩
    rw [there] at here
    exact Option.some.inj here ▸ held
  · refine ⟨stage, mem_iff_getElem?.mpr ⟨j, ?_⟩, held⟩
    rw [getElem?_set_ne (Ne.symm same)]
    exact there

theorem mem_set_self (here : stages[i]? = some old) (new : F) : new ∈ stages.set i new :=
  mem_set (List.getElem?_eq_some_iff.mp here).1 new

end Moves

end Threads
