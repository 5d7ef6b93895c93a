import Oac.Foundation.Threads
import Oac.Pipeline.TrustSaves

/-! The retry of a removal that was not saved (`DevicePairing` in `cli/src/device_pairing.rs`):
`unpair` calls, the tasks they arm, the stop signal and `close`. A step is one call into the core,
one access to the flag `retrying`, one lock of `tracking` or one look at the stop signal. Not
modelled: the count that `close` waits on, and a call into the core that panics. -/

namespace Oac.TrustRetry

open Transition Threads List Option

/-- What an `unpair` call or a retry task does next. -/
inductive Stage where
  | removing (key : KeyId)
  /-- `start_retry` sets the flag. -/
  | arming
  /-- The flag was not set before: `begin` for the task. -/
  | starting
  /-- The task asks for the next retry. -/
  | asking
  /-- The stop signal or the end of the wait, the signal first. -/
  | waiting
  | saving
  /-- Nothing was unsaved: the flag is cleared. -/
  | clearing
  /-- The second look, after the flag was cleared. -/
  | looking
  | retaking
  /-- The end has come: the flag is cleared. -/
  | givingUp
  | gone
  deriving DecidableEq

namespace Stage

def afterUnpair : Except TrustChangeError Unpaired → Stage
  | .ok (.notDurable _) => arming
  | _ => gone

def afterSave : Except TrustChangeError Unit → Stage
  | .error .closed => givingUp
  | _ => asking

/-- The stages of the one that set the flag `retrying` and has not cleared it. -/
def owns : Stage → Bool
  | starting | asking | waiting | saving | clearing | givingUp => true
  | _ => false

/-- The stages that are about to set the flag if something is unsaved. -/
def takes : Stage → Bool
  | arming | looking | retaking => true
  | _ => false

/-- How many steps a task is from its next save while something is unsaved. -/
def toSave (stage : Stage) : Option Nat :=
  [saving, waiting, asking, retaking, looking, clearing].idxOf? stage

end Stage

structure State where
  core : TrustCore
  stopped : Bool
  closed : Bool
  retrying : Bool
  stages : List Stage

namespace State

/-- A core starts with its trust saved. -/
def initial (core : TrustCore) : State :=
  ⟨{ core with trustRetry := none }, false, false, false, []⟩

/-- The stop was signalled, or the pairings or the core were closed. -/
def ended (s : State) : Bool := s.stopped || s.closed || s.core.closed

def enter (s : State) (i : Nat) (stage : Stage) : State := { s with stages := s.stages.set i stage }

def next (s : State) (i : Nat) (store : PairingSave) (now : Instant) : Stage → State
  | .removing key =>
    let (result, core) := s.core.unpair key store now
    { s with core := core }.enter i (.afterUnpair result)
  | .arming => { s with retrying := true }.enter i (if s.retrying then .gone else .starting)
  -- The entry goes on as the task; the call has nothing more to do.
  | .starting => s.enter i (if s.closed then .givingUp else .asking)
  | .asking => s.enter i (if s.core.nextTrustRetryAt.isSome then .waiting else .clearing)
  | .waiting => s.enter i (if s.stopped then .givingUp else .saving)
  | .saving =>
    let (result, core) := s.core.retrySave store now
    { s with core := core }.enter i (.afterSave result)
  | .clearing => { s with retrying := false }.enter i .looking
  | .looking => s.enter i (if s.core.nextTrustRetryAt.isSome then .retaking else .gone)
  | .retaking => { s with retrying := true }.enter i (if s.retrying then .gone else .asking)
  | .givingUp => { s with retrying := false }.enter i .gone
  | .gone => s

end State

inductive Act where
  | unpair (key : KeyId)
  | run (i : Nat) (store : PairingSave) (now : Instant)
  /-- Another call into the core: only `unpair` above removes a key. -/
  | call (call : TrustCall) (store : PairingSave)
  | stop
  | close

def removes : TrustCall → Bool
  | .unpair _ _ => true
  | _ => false

def step [Libraries] : Act → State → Option State
  | .unpair key, s => if s.closed then none else some { s with stages := s.stages ++ [.removing key] }
  | .run i store now, s => s.stages[i]?.map (s.next i store now)
  | .call call store, s => if removes call then none else some { s with core := s.core.after store call }
  | .stop, s => some { s with stopped := true }
  | .close, s => some { s with closed := true }

section Core

open TrustCore

variable {c c' : TrustCore}

theorem unpair_flag (made : c.unpair key store now = (result, c')) : c'.closed = c.closed ∧
    (Stage.afterUnpair result = .arming ∨
      Stage.afterUnpair result = .gone ∧ (c'.trustUnsaved = true → c.trustUnsaved = true)) := by
  grind [TrustCore.unpair, trustSaveFailed, trustUnsaved, Stage.afterUnpair]

theorem retrySave_flag (made : c.retrySave store now = (result, c')) :
    c'.closed = c.closed ∧ (c'.trustUnsaved = true → c.trustUnsaved = true) ∧
      (Stage.afterSave result = .asking ∨ Stage.afterSave result = .givingUp ∧ c.closed = true) := by
  cases unsaved : c.trustRetry <;> grind [TrustCore.retrySave, trustSaveFailed, trustUnsaved, Stage.afterSave]

theorem after_flag [Libraries] (store : PairingSave) (other : removes call = false) :
    (c.closed = true → (c.after store call).closed = true) ∧
      ((c.after store call).trustUnsaved = true → c.trustUnsaved = true) := by
  cases call with
  | unpair => cases other
  | retrySave now =>
    obtain ⟨closed, flag, -⟩ := retrySave_flag (Prod.mk.eta (p := c.retrySave store now)).symm
    exact ⟨closed.trans, flag⟩
  | setAgreementKeys => grind [TrustCore.after, setAgreementKeys, trustUnsaved]
  | admitStatement => grind [TrustCore.after, TrustCore.admitStatement, trustUnsaved]
  | pair => grind [TrustCore.after, TrustCore.pair, trustUnsaved]
  | other => exact ⟨id, id⟩
  | shutdown => exact ⟨fun _ => rfl, id⟩

end Core

/-- The flag is set by one stage that answers for it, and until the end, when a removal is unsaved,
it is set or about to be. -/
structure Sound (s : State) : Prop where
  owner : s.stages.countP Stage.owns = s.retrying.toNat
  ends : .givingUp ∈ s.stages → s.ended = true
  tended : s.core.trustUnsaved = true → s.ended = true ∨ s.retrying = true ∨ ∃ stage ∈ s.stages,
    stage.takes = true

section Step

variable {s : State} {i : Nat} {old : Stage} (sound : Sound s) (here : s.stages[i]? = some old)

include sound here in
/-- What has to hold of a stage and the one after it. -/
theorem Sound.moves {core : TrustCore} {retrying : Bool} {new : Stage} (closed : core.closed = s.core.closed)
    (owner : retrying.toNat + old.owns.toNat = s.retrying.toNat + new.owns.toNat)
    (goes : s.ended = true ∨ new ≠ .givingUp ∧ (core.trustUnsaved = true → retrying = true ∨ new.takes = true ∨
      s.core.trustUnsaved = true ∧ retrying = s.retrying ∧ old.takes = false)) :
    Sound ({ s with core := core, retrying := retrying }.enter i new) := by
  have same : ({ s with core := core, retrying := retrying }.enter i new).ended = s.ended := by
    simp only [State.ended, State.enter, closed]
  refine ⟨?_, fun member => same.trans ?_, fun unsaved => ?_⟩
  · have owned := sound.owner
    have moved := countP_set Stage.owns here new
    simp only [State.enter]
    omega
  · exact (mem_or_eq_of_mem_set member).elim sound.ends fun gives => goes.resolve_right fun on => on.1 gives.symm
  · rw [same]
    refine goes.elim .inl fun on => ?_
    rcases on.2 unsaved with flag | takes | ⟨unsaved, flag, idle⟩
    · exact .inr (.inl flag)
    · exact .inr (.inr ⟨new, mem_set_self here new, takes⟩)
    · exact (sound.tended unsaved).imp_right (Or.imp flag.trans (exists_set here (by simp [idle])))

include sound in
/-- What comes from elsewhere may save the removals or bring the end. -/
theorem Sound.elsewhere {core : TrustCore} {stopped closed : Bool}
    (ended : s.ended = true → (stopped || closed || core.closed) = true)
    (unsaved : core.trustUnsaved = true → s.core.trustUnsaved = true) :
    Sound { s with core := core, stopped := stopped, closed := closed } :=
  ⟨sound.owner, ended ∘ sound.ends, fun marked => (sound.tended (unsaved marked)).imp_left ended⟩

include sound here in
theorem next_sound (store : PairingSave) (now : Instant) : Sound (s.next i store now old) := by
  have member := mem_of_getElem? here
  have flag (owns : old.owns = true) : s.retrying = true := by
    have positive := sound.owner ▸ countP_pos_iff.mpr ⟨old, member, owns⟩
    cases flag : s.retrying <;> simp_all
  cases old with
  | removing key =>
    rcases made : s.core.unpair key store now with ⟨result, core⟩
    obtain ⟨closed, arm | ⟨leave, was⟩⟩ := unpair_flag made
    · simp only [State.next, made, arm]
      exact sound.moves here closed rfl (.inr ⟨by simp, fun _ => .inr (.inl rfl)⟩)
    · simp only [State.next, made, leave]
      exact sound.moves here closed rfl (.inr ⟨by simp, fun unsaved => .inr (.inr ⟨was unsaved, rfl, rfl⟩)⟩)
  | arming | retaking =>
    cases flag : s.retrying <;> simp only [State.next, flag] <;>
      exact sound.moves here rfl (by rw [flag]; rfl) (.inr ⟨by simp, fun _ => .inl rfl⟩)
  | starting | waiting =>
    simp only [State.next]
    split_ifs with ending
    · exact sound.moves here rfl rfl (.inl (by simp [State.ended, ending]))
    · exact sound.moves here rfl rfl (.inr ⟨by simp, fun _ => .inl (flag rfl)⟩)
  | asking =>
    simp only [State.next]
    split_ifs <;> exact sound.moves here rfl rfl (.inr ⟨by simp, fun _ => .inl (flag rfl)⟩)
  | saving =>
    rcases made : s.core.retrySave store now with ⟨result, core⟩
    obtain ⟨same, -, again | ⟨giveUp, closed⟩⟩ := retrySave_flag made
    · simp only [State.next, made, again]
      exact sound.moves here same rfl (.inr ⟨by simp, fun _ => .inl (flag rfl)⟩)
    · simp only [State.next, made, giveUp]
      exact sound.moves here same rfl (.inl (by simp [State.ended, closed]))
  | clearing => exact sound.moves here rfl (by rw [flag rfl]; rfl) (.inr ⟨by simp, fun _ => .inr (.inl rfl)⟩)
  | looking =>
    simp only [State.next]
    split_ifs with marked
    · exact sound.moves here rfl rfl (.inr ⟨by simp, fun _ => .inr (.inl rfl)⟩)
    · exact sound.moves here rfl rfl (.inr ⟨by simp, fun unsaved => (marked (isSome_map.trans unsaved)).elim⟩)
  | givingUp => exact sound.moves here rfl (by rw [flag rfl]; rfl) (.inl (sound.ends member))
  | gone => exact sound

include sound in
theorem step_sound [Libraries] {a : Act} {t : State} (stepped : step a s = some t) : Sound t := by
  cases a with
  | unpair key =>
    obtain ⟨-, begun⟩ := ite_none_left_eq_some.mp stepped
    cases begun
    refine ⟨by simpa [Stage.owns] using sound.owner,
      fun member => sound.ends (by simpa using member), fun unsaved => ?_⟩
    refine (sound.tended unsaved).imp_right (Or.imp_right fun takes => ?_)
    obtain ⟨stage, member, takes⟩ := takes
    exact ⟨stage, mem_append_left _ member, takes⟩
  | run i store now =>
    obtain ⟨stage, here, rfl⟩ := map_eq_some_iff.mp stepped
    exact next_sound sound here store now
  | call call store =>
    obtain ⟨other, made⟩ := ite_none_left_eq_some.mp stepped
    obtain ⟨closed, flag⟩ := after_flag (c := s.core) store (Bool.eq_false_iff.mpr other)
    refine some.inj made ▸ sound.elsewhere ?_ flag
    simp only [State.ended, Bool.or_eq_true]
    exact Or.imp_right closed
  | stop => exact some.inj stepped ▸ sound.elsewhere (fun _ => rfl) id
  | close => exact some.inj stepped ▸ sound.elsewhere (fun _ => by simp) id

end Step

section Runs

variable [Libraries] {s : State} {core : TrustCore}

theorem reached_sound (run : Reaches step anyMove (.initial core) s) : Sound s := by
  refine run.invariant (fun _ _ _ _ stepped sound => step_sound sound stepped)
    ⟨rfl, fun member => ?_, fun unsaved => ?_⟩
  · cases member
  · cases unsaved

/-- Entry `i`, run by itself for `n` steps, comes to a save of what the core has now. -/
def Saves (store : PairingSave) (now : Instant) (i n : Nat) (s : State) : Prop :=
  ∃ t, perform step (replicate n (.run i store now)) s = some t ∧ t.stages[i]? = some .saving ∧ t.core = s.core

/-- The task that has the flag, or can take it, comes to its save. -/
theorem task_saves {stage : Stage} (store : PairingSave) (now : Instant) (running : s.stopped = false)
    (unsaved : s.core.trustUnsaved = true) (here : s.stages[i]? = some stage) (ranked : stage.toSave = some n)
    (free : stage.owns = true ∨ s.retrying = false) : Saves store now i n s := by
  -- One step takes the task to the stage of the next lower rank and leaves the core alone.
  induction n generalizing s stage with
  | zero =>
    obtain rfl : stage = .saving := by cases stage <;> first | rfl | cases ranked
    exact ⟨s, rfl, here, rfl⟩
  | succ n ih =>
    have marked : s.core.nextTrustRetryAt.isSome = true := isSome_map.trans unsaved
    obtain ⟨new, flag, enters, lower, free⟩ : ∃ new flag, s.next i store now stage =
        { s with retrying := flag }.enter i new ∧ new.toSave = some n ∧ (new.owns = true ∨ flag = false) := by
      cases stage <;> cases ranked
      case waiting => exact ⟨.saving, s.retrying, by rw [State.next, if_neg (by simp [running])], rfl, .inl rfl⟩
      case asking => exact ⟨.waiting, s.retrying, by rw [State.next, if_pos marked], rfl, .inl rfl⟩
      case retaking =>
        exact ⟨.asking, true, by rw [State.next, free.resolve_left Bool.false_ne_true]; rfl, rfl, .inl rfl⟩
      case looking => exact ⟨.retaking, s.retrying, by rw [State.next, if_pos marked], rfl, free⟩
      case clearing => exact ⟨.looking, false, rfl, rfl, .inr rfl⟩
    have entered : (s.stages.set i new)[i]? = some new := getElem?_set_self (List.getElem?_eq_some_iff.mp here).1
    obtain ⟨t, ran, saving, same⟩ :=
      ih (s := { s with retrying := flag }.enter i new) running unsaved entered lower free
    refine ⟨t, ?_, saving, same⟩
    simpa [replicate_succ, perform, step, here, enters] using ran

/-- Only one at a time has the retry. Until the end, once every `unpair` that is to start a task has
done so, a removal that was not saved has a task that comes to a save of it by steps of its own. -/
theorem unsaved_removal_retried (core : TrustCore) (s : State)
    (run : Reaches step anyMove (.initial core) s) (store : PairingSave) (now : Instant) :
    s.stages.countP Stage.owns ≤ 1 ∧
      (s.ended = false → s.core.trustUnsaved = true → .arming ∉ s.stages → .starting ∉ s.stages →
        ∃ i n, Saves store now i n s) := by
  have sound := reached_sound run
  refine ⟨sound.owner.trans_le (Bool.toNat_le _), fun goesOn unsaved noneArms noneStarts => ?_⟩
  have running : s.stopped = false := by cases stopped : s.stopped <;> simp_all [State.ended]
  have going : .givingUp ∉ s.stages := fun member => by simp [sound.ends member] at goesOn
  obtain ⟨stage, member, ⟨n, ranked⟩, free⟩ : ∃ stage ∈ s.stages, (∃ n, stage.toSave = some n) ∧
      (stage.owns = true ∨ s.retrying = false) := by
    cases flag : s.retrying with
    | true =>
      obtain ⟨stage, member, owns⟩ := countP_pos_iff.mp (by rw [sound.owner, flag]; exact Nat.one_pos)
      refine ⟨stage, member, ?_, .inl owns⟩
      cases stage <;> first | exact ⟨_, rfl⟩ | contradiction
    | false =>
      have about := (sound.tended unsaved).resolve_left (by simp [goesOn])
      obtain ⟨stage, member, takes⟩ := about.resolve_left (by simp [flag])
      refine ⟨stage, member, ?_, .inr rfl⟩
      cases stage <;> first | exact ⟨_, rfl⟩ | contradiction
  obtain ⟨i, here⟩ := mem_iff_getElem?.mp member
  exact ⟨i, n, task_saves store now running unsaved here ranked free⟩

end Runs

open AuthorizationEngine

attribute [local instance] sampleLibraries

theorem unsaved_removal_retried_sample : ∃ s, Reaches step anyMove
    (.initial TrustRun.sampleStart.core) s ∧ s.core.trustUnsaved = true ∧
      ∃ i n, Saves (fun _ => .ok ()) 9 i n s := by
  -- The store fails while a key is removed.
  have performed : (perform step (.call (.pair samplePeer .epoch) (fun _ => .ok ()) ::
      .unpair samplePeerKey :: replicate 3 (.run 0 (fun _ => .error (.failed "disk full")) 5))
      (.initial TrustRun.sampleStart.core)).map (fun s => (s.ended, s.core.trustUnsaved, s.stages)) =
      some (false, true, [.asking]) := by decide +kernel
  obtain ⟨s, run, seen⟩ := reached_of_map _ performed
  simp only [Prod.mk.injEq] at seen
  obtain ⟨goesOn, unsaved, stages⟩ := seen
  have retried := (@unsaved_removal_retried _ _ s run (fun _ => .ok ()) 9).2
  exact ⟨s, run, unsaved, retried goesOn unsaved (by simp [stages]) (by simp [stages])⟩

end Oac.TrustRetry
