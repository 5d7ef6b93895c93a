import Mathlib.Logic.Relation

/-! State that lives in memory and in a store. A change is proposed to the store first and stands
once it is saved; a save may fail after it was written, with memory as it was, and some changes
stand whether or not they were saved. After a restart memory is what the store gives back. If every
proposal is ahead of the state it was made in, then the store is never behind memory, and memory
moves only forward. -/

namespace Durable

variable {M D : Type}

structure State (M D : Type) where
  memory : M
  stored : D

/-- How changes are proposed, which stand unsaved, what the store is given and what it gives
back. -/
structure System (M D : Type) where
  proposes : M → M → Prop
  stands : M → M → Prop
  image : M → D
  reload : D → Option M

inductive Move (sys : System M D) (s : State M D) : State M D → Prop
  | saved {p : M} (proposed : sys.proposes s.memory p) : Move sys s ⟨p, sys.image p⟩
  | lost {p m : M} (proposed : sys.proposes s.memory p) (back : sys.stands s.memory m) :
    Move sys s ⟨m, sys.image p⟩
  | stood {p : M} (stands : sys.stands s.memory p) : Move sys s ⟨p, s.stored⟩
  | settled {p : M} (stands : sys.stands s.memory p) : Move sys s ⟨p, sys.image p⟩
  | restarted {m : M} (reloaded : sys.reload s.stored = some m) : Move sys s ⟨m, s.stored⟩

/-- A proposal is saved and stands, or not saved, written or not, and memory goes back. -/
theorem Move.attempt {s : State M D} {answer : Except ε Unit} (lost : Bool)
    (proposed : sys.proposes s.memory p)
    (done : answer = .ok () → m = p)
    (undone : ∀ error, answer = .error error → sys.stands s.memory m) :
    Move sys s ⟨m, if answer.isOk || lost then sys.image p else s.stored⟩ := by
  cases answer with
  | ok _ =>
    cases done rfl
    exact .saved proposed
  | error error =>
    cases lost with
    | true => exact .lost proposed (undone error rfl)
    | false => exact .stood (undone error rfl)

theorem Move.standing (written : Bool) (stands : sys.stands s.memory p) :
    Move sys s ⟨p, if written then sys.image p else s.stored⟩ := by
  cases written with
  | true => exact .settled stands
  | false => exact .stood stands

/-- `Behind m d`: a store that holds `d` has all that memory `m` has, or newer. -/
structure Orderly (sys : System M D) (Sound : M → Prop) (Behind : M → M → Prop) : Prop where
  refl : ∀ m, Behind m m
  proposed : ∀ {m p}, Sound m → sys.proposes m p → Sound p ∧ Behind m p
  stood : ∀ {m p}, Sound m → sys.stands m p → Sound p ∧ ∀ d, Behind m d → Behind p d
  reloaded : ∀ {d m}, Sound d → sys.reload (sys.image d) = some m →
    Sound m ∧ (∀ n, Behind n d → Behind n m) ∧ Behind m d

variable {sys : System M D} {Sound : M → Prop} {Behind : M → M → Prop}

/-- Memory is sound, and the store holds a sound state that memory is not ahead of. -/
def Level (sys : System M D) (Sound : M → Prop) (Behind : M → M → Prop) (s : State M D) : Prop :=
  Sound s.memory ∧ ∃ d, Sound d ∧ sys.image d = s.stored ∧ Behind s.memory d

theorem Level.move (orderly : Orderly sys Sound Behind) (level : Level sys Sound Behind s)
    (move : Move sys s t) : Level sys Sound Behind t := by
  obtain ⟨sound, d, soundDisk, image, behind⟩ := level
  cases move with
  | saved proposed =>
    obtain ⟨sound, -⟩ := orderly.proposed sound proposed
    exact ⟨sound, _, sound, rfl, orderly.refl _⟩
  | lost proposed back =>
    obtain ⟨soundDisk, behind⟩ := orderly.proposed sound proposed
    obtain ⟨sound, still⟩ := orderly.stood sound back
    exact ⟨sound, _, soundDisk, rfl, still _ behind⟩
  | stood stands =>
    obtain ⟨sound, still⟩ := orderly.stood sound stands
    exact ⟨sound, d, soundDisk, image, still d behind⟩
  | settled stands =>
    obtain ⟨sound, -⟩ := orderly.stood sound stands
    exact ⟨sound, _, sound, rfl, orderly.refl _⟩
  | restarted reloaded =>
    rw [← image] at reloaded
    obtain ⟨sound, -, same⟩ := orderly.reloaded soundDisk reloaded
    exact ⟨sound, d, soundDisk, image, same⟩

/-- Memory moves forward at every move, if it does at those that stand unsaved. -/
theorem Level.forward (orderly : Orderly sys Sound Behind) {Forward : M → M → Prop}
    (ahead : ∀ {m p}, Behind m p → Forward m p)
    (stood : ∀ {m p}, Sound m → sys.stands m p → Forward m p)
    (level : Level sys Sound Behind s) (move : Move sys s t) : Forward s.memory t.memory := by
  obtain ⟨sound, d, soundDisk, image, behind⟩ := level
  cases move with
  | saved proposed => exact ahead (orderly.proposed sound proposed).2
  | lost _ back => exact stood sound back
  | stood stands => exact stood sound stands
  | settled stands => exact stood sound stands
  | restarted reloaded =>
    rw [← image] at reloaded
    exact ahead ((orderly.reloaded soundDisk reloaded).2.1 _ behind)

end Durable
