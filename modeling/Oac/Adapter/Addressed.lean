import Oac.Adapter.Deliveries
import Oac.Receiver.InterleavingProofs

/-! A message is put into the conversation it is addressed to: when an adapter makes the harness
input call of a hand-off, the latest `set_binding` call for the attachment named the session the
message is for. The adapters ask only whether some session is bound, so this rests on the bindings
staying as they are from the lookup of a hand-off to its input call. -/

namespace Oac

open Transition Option Pipelines
open List hiding getElem?_eq_some_iff

/-- A frame of `hand_off` up to the return of the adapter's call. -/
def Frame.handsOff : Frame → Bool
  | .handOff _ | .recordHandOff _ _ _ | .deliver _ _ _ | .delivered _ _ _ => true
  | _ => false

/-- Every input call was for the session that the latest completed `set_binding` before it named. -/
def Addressed : List BoundaryEvent → Prop
  | [] => True
  | .told _ _ :: older => Addressed older
  | .input a session :: older =>
    (older.filterMap BoundaryEvent.told?).lookup a = some (some session) ∧ Addressed older

theorem Addressed.split (addressed : Addressed (newer ++ .input a session :: older)) :
    (older.filterMap BoundaryEvent.told?).lookup a = some (some session) := by
  induction newer with
  | nil => exact addressed.1
  | cons event newer ih =>
    cases event with
    | told => exact ih addressed
    | input => exact ih addressed.2

namespace Pipelines

variable {p : PipelineSetup} {w : Pipelines} {x : Ext}

theorem dropSignal_handsOff (attempt : PairAttempt) (seq : Nat) :
    ∀ f ∈ dropSignal attempt seq, f.handsOff = false := by
  intro f added
  cases attempt with
  | rejected | notYet => cases added
  | paired a =>
    cases mem_singleton.mp added
    rfl
  | unpairable bound =>
    obtain ⟨a, _, rfl⟩ := mem_map.mp added
    rfl
  | conflict a =>
    simp only [dropSignal, unbindFrames, mem_cons, not_mem_nil, or_false] at added
    rcases added with rfl | rfl
    · rfl
    · rfl

theorem afterQueuedSignal_handsOff (dropped : Option Dropped) :
    ∀ f ∈ afterQueuedSignal dropped, f.handsOff = false := by
  intro f added
  rcases mem_append.mp added with drops | last
  · cases dropped with
    | none => cases drops
    | some d => exact dropSignal_handsOff d.attempt d.seq f drops
  · cases mem_singleton.mp last
    rfl

theorem finishUnconfirmed_handsOff (a : Attachment) (stopped : Option (Option SessionId)) :
    ∀ f ∈ finishUnconfirmed a stopped, f.handsOff = false := by
  intro f added
  unfold finishUnconfirmed at added
  split at added
  · cases mem_singleton.mp added
    rfl
  · cases added

theorem onAdapterEvent_handsOff (adapter : AdapterId) (now : Instant) (event : AdapterEvent) :
    ∀ f ∈ onAdapterEvent adapter now event, f.handsOff = false := by
  cases event with
  | _ => simp [onAdapterEvent, Frame.handsOff]

theorem perform_handsOff (outside : action.handsOff = false) :
    ∀ f ∈ (w.perform p x action).2, f.handsOff = false := by
  cases action with
  | handOff | recordHandOff | deliver | delivered => cases outside
  | unbindAll =>
    intro f added
    obtain ⟨a, _, here⟩ := mem_flatMap.mp added
    cases mem_singleton.mp here
    rfl
  | stopUnconfirmed adapter a => exact finishUnconfirmed_handsOff a _
  | queueSignal adapter signal now => exact afterQueuedSignal_handsOff _
  | _ =>
    simp only [perform]
    repeat' split
    all_goals simp [endConnection, unbindFrames, Frame.handsOff]

def HandsOffAlone (w : Pipelines) : Prop :=
  ∀ stack ∈ w.threads, ∀ f ∈ stack, f.handsOff = true → stack = [f]

/-- What the holder of the turn does after it hands nothing off. -/
def AfterTurn (w : Pipelines) : Prop :=
  ∀ turn, w.turn = some turn → ∀ f ∈ turn.after, f.handsOff = false

theorem spawned_handsOff (after : w.AfterTurn) (new : f ∈ spawned p w label)
    (hands : f.handsOff = true) : ∃ msg, label = .handOff msg ∧ f = .handOff msg := by
  have none_of : (∀ f ∈ spawned p w label, f.handsOff = false) → ∃ msg, label = .handOff msg ∧
      f = .handOff msg := by
    intro outside
    rw [outside f new] at hands
    cases hands
  cases label with
  | handOff msg => exact ⟨msg, rfl, mem_singleton.mp new⟩
  | report adapter event now => exact none_of (onAdapterEvent_handsOff adapter now event)
  | reportLocal adapter event now clock =>
    cases event with
    | attachmentClosed => exact none_of (by simp [spawned, Frame.handsOff])
    | attachmentUnconfirmed a => exact none_of (finishUnconfirmed_handsOff a _)
    | nativeSignal signal => exact none_of (afterQueuedSignal_handsOff _)
    | attachmentOpened a crossCheck =>
      exact none_of (onAdapterEvent_handsOff adapter now (.attachmentOpened a crossCheck))
    | capabilitiesChanged a => exact none_of (onAdapterEvent_handsOff adapter now (.capabilitiesChanged a))
  | releaseTurn =>
    refine none_of fun g member => ?_
    cases holding : w.turn with
    | none => simp [spawned, holding] at member
    | some turn =>
      simp only [spawned, holding, elim_some] at member
      exact after turn holding g member
  | unbind | disconnect | expireSignals | request | shutdown =>
    exact none_of (by simp [spawned, unbindFrames, endConnection, Frame.handsOff])
  | _ => cases new

/-- The stages of `hand_off`. -/
inductive HandsOn (c : Core) : Frame → Frame → Prop
  | lookedUp (target : c.handOffTarget msg.envelope.toSession = some (adapter, a)) :
      HandsOn c (.handOff msg) (.recordHandOff adapter a msg)
  | recorded : HandsOn c (.recordHandOff adapter a msg) (.deliver adapter a msg)
  | called : HandsOn c (.deliver adapter a msg) (.delivered adapter a msg)
  | undone : HandsOn c (.delivered adapter a msg) (.forgetHandOff record)

/-- What a frame of `hand_off` leaves on its thread, alone. -/
theorem perform_handOff (inside : action.handsOff = true) (added : f ∈ (w.perform p x action).2) :
    (w.perform p x action).2 = [f] ∧ HandsOn (w.locked x.now).core action f := by
  cases action with
  | handOff msg =>
    simp only [perform] at added ⊢
    split at added
    · next target =>
      split at added
      · cases mem_singleton.mp added
        simp_all [HandsOn.lookedUp]
      · cases added
    · cases added
  | recordHandOff =>
    cases mem_singleton.mp added
    exact ⟨rfl, .recorded⟩
  | deliver =>
    cases mem_singleton.mp added
    exact ⟨rfl, .called⟩
  | delivered adapter a msg =>
    simp only [perform] at added ⊢
    split at added
    · cases added
    · cases mem_singleton.mp added
      simp_all [HandsOn.undone]
  | _ => cases inside

theorem recordHandOff_from (added : .recordHandOff adapter a msg ∈ (w.perform p x action).2) :
    action = .handOff msg ∧ (w.locked x.now).core.handOffTarget msg.envelope.toSession = some (adapter, a) := by
  cases inside : action.handsOff with
  | false => cases perform_handsOff inside _ added
  | true =>
    cases (perform_handOff inside added).2 with
    | lookedUp target => exact ⟨rfl, target⟩

theorem deliver_from (added : .deliver adapter a msg ∈ (w.perform p x action).2) :
    action = .recordHandOff adapter a msg := by
  cases inside : action.handsOff with
  | false => cases perform_handsOff inside _ added
  | true =>
    cases (perform_handOff inside added).2 with
    | recorded => rfl

variable [Libraries] {label : Label} {w' : Pipelines}

theorem step_handsOffAlone (stepped : step p label w = some w') (after : w.AfterTurn)
    (alone : w.HandsOffAlone) : w'.HandsOffAlone := by
  intro stack member f held hands
  obtain ⟨j, found⟩ := mem_iff_getElem?.mp member
  cases step_thread stepped found with
  | kept same other => exact alone stack (mem_of_getElem? same) f held hands
  | spawned new other =>
    subst new
    obtain ⟨msg, rfl, rfl⟩ := spawned_handsOff after held hands
    rfl
  | ran x action rest ran running left =>
    have before := alone _ (mem_of_getElem? running)
    subst left
    cases inside : action.handsOff with
    | true =>
      obtain rfl : rest = [] := (cons.inj (before action mem_cons_self inside)).2
      rw [append_nil] at held ⊢
      exact (perform_handOff inside held).1
    | false =>
      rcases mem_append.mp held with added | later
      · rw [perform_handsOff inside f added] at hands
        cases hands
      · have single := before f (mem_cons_of_mem _ later) hands
        obtain ⟨rfl, rfl⟩ := cons.inj single
        cases later

theorem step_afterTurn (stepped : step p label w = some w') (after : w.AfterTurn) : w'.AfterTurn :=
  step_after stepped after rfl rfl

end Pipelines

namespace System

variable {p : PipelineSetup} {s s' : System} {a : Attachment} {session : SessionId} {i : Nat}

/-- What is known of a hand-off to `a` for `session` that has not made its input call, by its
stage. -/
def Promised (s : System) (a : Attachment) (session : SessionId) : Option CallStage → Prop
  | none => a ∈ s.pipelines.closedHandles ∨ namedFor s.tolds a = some session
  | some .entered => namedFor s.tolds a = some session
  | some .checked | some .recorded => s.tolds.lookup a = some (some session)
  | some .started | some (.ended _) => True

/-- The state of the adapters' bindings, the calls in progress and the input calls made. -/
structure Kept (s : System) : Prop where
  tells : s.pipelines.Tells
  after : s.pipelines.AfterTurn
  alone : s.pipelines.HandsOffAlone
  owned : ∀ a adapter, s.owner.lookup a = some adapter → a ∈ s.pipelines.given
  bound : ∀ adapter a session, (s.providers adapter).boundTo a = some session →
    s.owner.lookup a = some adapter ∧ s.tolds.lookup a = some (some session)
  agree : ∀ a, a ∉ s.pipelines.closedHandles → namedFor s.tolds a = namedFor s.pipelines.tolds a
  staged : ∀ i stage, s.calls.lookup i = some stage → ∃ adapter a msg,
    s.pipelines.threads[i]? = some [.deliver adapter a msg] ∨
      s.pipelines.threads[i]? = some [.delivered adapter a msg]
  awaited : ∀ i a session, s.awaits i = some (a, session) → s.Promised a session (s.calls.lookup i)
  addressed : Addressed s.log

theorem new_kept (engine : AuthorizationEngine) (caps : Option TransportCapabilities)
    (kinds : AdapterId → ProviderKind) : (new engine p caps kinds).Kept where
  tells := new_tells engine caps
  after turn held := nomatch held
  alone stack member := nomatch member
  owned a adapter found := nomatch found
  bound adapter a session found := by
    simp only [new, Provider.new] at found
    split at found
    · cases found
    · cases found
  agree a _ := rfl
  staged i stage found := nomatch found
  awaited i a session waiting := nomatch waiting
  addressed := trivial

/-! An adapter's own event. -/

theorem boundTo_setProvider (narrows : ∀ b t, provider.boundTo b = some t →
    (s.providers adapter).boundTo b = some t)
    (found : ((s.setProvider adapter provider).providers other).boundTo a = some session) :
    (s.providers other).boundTo a = some session := by
  simp only [setProvider, Function.update_apply] at found
  split at found
  · next same => exact same ▸ narrows a session found
  · exact found

theorem Kept.setProvider (kept : s.Kept)
    (narrows : ∀ b t, provider.boundTo b = some t → (s.providers adapter).boundTo b = some t) :
    (s.setProvider adapter provider).Kept :=
  { kept with bound := fun other a session found =>
    kept.bound other a session (boundTo_setProvider narrows found) }

/-! A step of `deliver`. -/

theorem advance_narrows {provider provider' : Provider} {step : CallStep}
    (advanced : provider.advance closed a env stage step = some (provider', stage'))
    (b : Attachment) (t : SessionId)
    (found : provider'.boundTo b = some t) : provider.boundTo b = some t := by
  revert advanced
  fun_cases Provider.advance <;> rintro ⟨⟩
  all_goals try exact found
  · exact Provider.boundTo_recordHanded found
  · split at found
    · exact Provider.boundTo_complete found
    · exact found

/-- A step of `deliver` goes on with what is known of its hand-off, and makes its input call only
when the latest `set_binding` named the session. -/
theorem advance_promised {step : CallStep} (kept : s.Kept)
    (promised : (∀ outcome, stage ≠ some (.ended outcome)) → stage ≠ some .started → s.Promised a session stage)
    (advanced : (s.providers adapter).advance (s.pipelines.closedHandles.contains a)
      a env stage step = some (provider', stage')) :
    s.Promised a session (some stage') ∧ (stage' = .started → s.tolds.lookup a = some (some session)) := by
  revert advanced
  fun_cases Provider.advance <;> rintro ⟨⟩
  all_goals try exact ⟨trivial, by rintro ⟨⟩⟩
  all_goals have before := promised (by rintro _ ⟨⟩) (by rintro ⟨⟩)
  · next admitted =>
    refine ⟨?_, by rintro ⟨⟩⟩
    rcases before with closed | named
    · simp [closed] at admitted
    · exact named
  · split
    · next ready =>
      obtain ⟨t, bound⟩ := Provider.boundTo_of_ready ready
      have told := (kept.bound adapter a t bound).2
      have same : some t = some session := (namedFor_of_lookup told).symm.trans before
      refine ⟨?_, by rintro ⟨⟩⟩
      rw [Promised, told, same]
    · exact ⟨trivial, by rintro ⟨⟩⟩
  · exact ⟨before, by rintro ⟨⟩⟩
  · split
    · exact ⟨trivial, fun _ => before⟩
    · exact ⟨trivial, by rintro ⟨⟩⟩

theorem Promised.congr (closed : s'.pipelines.closedHandles = s.pipelines.closedHandles)
    (tolds : s'.tolds = s.tolds) (promised : s.Promised a session stage) : s'.Promised a session stage := by
  unfold Promised at promised ⊢
  rw [closed, tolds]
  exact promised

theorem awaits_congr (threads : s'.pipelines.threads[i]? = s.pipelines.threads[i]?)
    (calls : s'.calls.lookup i = s.calls.lookup i) : s'.awaits i = s.awaits i := by
  unfold awaits
  rw [threads, calls]

theorem awaits_head (waiting : s.awaits i = some (a, session)) :
    ∃ f rest, s.pipelines.threads[i]? = some (f :: rest) ∧
      ((∃ adapter msg, f = .recordHandOff adapter a msg ∧ msg.envelope.toSession = session) ∨
        ∃ adapter msg, f = .deliver adapter a msg ∧ msg.envelope.toSession = session) := by
  unfold awaits at waiting
  split at waiting
  · next adapter b msg rest running =>
    cases waiting
    exact ⟨_, rest, running, .inl ⟨adapter, msg, rfl, rfl⟩⟩
  · next adapter b msg rest running =>
    split at waiting
    · cases waiting
    · cases waiting
    · cases waiting
      exact ⟨_, rest, running, .inr ⟨adapter, msg, rfl, rfl⟩⟩
  · cases waiting

theorem awaits_deliver (running : s.pipelines.threads[i]? = some (.deliver adapter a msg :: rest)) :
    s.awaits i = match s.calls.lookup i with
      | some .started | some (.ended _) => none
      | _ => some (a, msg.envelope.toSession) := by
  unfold awaits
  rewrite [running]
  rfl

theorem called_tolds : (s.called i adapter a session provider stage).tolds = s.tolds := by
  unfold called
  split
  · rfl
  · rfl

theorem Kept.called {step : CallStep} (kept : s.Kept)
    (running : s.pipelines.threads[i]? = some (.deliver adapter a msg :: rest))
    (advanced : (s.providers adapter).advance (s.pipelines.closedHandles.contains a) a msg.envelope
      (s.calls.lookup i) step = some (provider', stage')) :
    (s.called i adapter a msg.envelope.toSession provider' stage').Kept := by
  obtain rfl : rest = [] := (cons.inj (kept.alone _ (mem_of_getElem? running) _ mem_cons_self rfl)).2
  have promised : (∀ outcome, s.calls.lookup i ≠ some (.ended outcome)) → s.calls.lookup i ≠ some .started →
      s.Promised a msg.envelope.toSession (s.calls.lookup i) := by
    intro going waiting
    refine kept.awaited i a msg.envelope.toSession ?_
    rw [awaits_deliver running]
    split
    · next same => exact absurd same waiting
    · next outcome same => exact absurd same (going outcome)
    · rfl
  obtain ⟨goes, starts⟩ := advance_promised kept promised advanced
  have tolds : (s.called i adapter a msg.envelope.toSession provider' stage').tolds = s.tolds := called_tolds
  refine ⟨kept.tells, kept.after, kept.alone, kept.owned, fun other b t found => ?_,
    fun b open_ => ?_, fun j stage found => ?_, fun j b t waiting => ?_, ?_⟩
  · rw [tolds]
    exact kept.bound other b t (boundTo_setProvider (advance_narrows advanced) found)
  · rw [tolds]
    exact kept.agree b open_
  · simp only [System.called, Table.lookup_insert_if] at found
    split at found
    · next same => exact ⟨adapter, a, msg, .inl (same ▸ running)⟩
    · exact kept.staged j stage found
  · refine Promised.congr (s := s) rfl tolds ?_
    have stages : (s.called i adapter a msg.envelope.toSession provider' stage').calls.lookup j =
        if j = i then some stage' else s.calls.lookup j := Table.lookup_insert_if i j stage' s.calls
    rw [stages]
    by_cases same : j = i
    · subst same
      have calling : (s.called j adapter a msg.envelope.toSession provider' stage').pipelines.threads[j]? =
        some [.deliver adapter a msg] := running
      rw [awaits_deliver calling, stages] at waiting
      rw [if_pos rfl]
      split at waiting
      · cases waiting
      · cases waiting
      · cases waiting
        exact goes
    · rw [if_neg same] at stages ⊢
      have unchanged : (s.called i adapter a msg.envelope.toSession provider' stage').awaits j = s.awaits j :=
        awaits_congr rfl stages
      exact kept.awaited j b t (unchanged ▸ waiting)
  · simp only [System.called]
    split
    · next started => exact ⟨starts started, kept.addressed⟩
    · exact kept.addressed

/-! A step of the pipelines. -/

theorem callsAfter_lookup (other : ∀ x, label ≠ .run j x) :
    (s.callsAfter label).lookup j = s.calls.lookup j := by
  cases label with
  | run k x =>
    simp only [callsAfter]
    split
    · rw [Table.lookup_erase_if, if_neg]
      intro same
      exact other x (same ▸ rfl)
    · rfl
  | _ => rfl

/-- The call `a x` was made, and the attachment's connection is closed if it did not complete. -/
theorem Promised.tell {calls : Option (Attachment × Option SessionId)} (promised : s.Promised a session stage)
    (closed : s.pipelines.closedHandles ⊆ s'.pipelines.closedHandles)
    (tolds : s'.tolds = s.tolds ∨ s'.tolds = calls.toList ++ s.tolds)
    (agrees : ∀ x, calls = some (a, x) → x = some session) : s'.Promised a session stage := by
  have named : namedFor s.tolds a = some session → namedFor s'.tolds a = some session := by
    intro before
    rcases tolds with same | new
    · rw [same, before]
    · rw [new]
      cases calls with
      | none => exact before
      | some call =>
        obtain ⟨b, x⟩ := call
        rw [toList_some, singleton_append, namedFor_cons]
        split
        · next same =>
          subst same
          rw [agrees x rfl]
          rfl
        · exact before
  have latest : s.tolds.lookup a = some (some session) → s'.tolds.lookup a = some (some session) := by
    intro before
    rcases tolds with same | new
    · rw [same, before]
    · rw [new]
      cases calls with
      | none => exact before
      | some call =>
        obtain ⟨b, x⟩ := call
        rw [toList_some, singleton_append]
        by_cases same : a = b
        · subst same
          rw [lookup_cons_self, agrees x rfl]
        · have other : (a == b) = false := by simpa using same
          rw [lookup_cons, other]
          exact before
  cases stage with
  | none =>
    rcases promised with gone | before
    · exact .inl (closed gone)
    · exact .inr (named before)
  | some stage =>
    cases stage with
    | entered => exact named promised
    | checked | recorded => exact latest promised
    | started | ended => trivial

theorem ran_handsOff {j : Nat} (alone : s.pipelines.HandsOffAlone)
    (running : s.pipelines.threads[j]? = some (action :: rest))
    (left : f :: stack = (s.pipelines.perform p x action).2 ++ rest) (hands : f.handsOff = true) :
    rest = [] ∧ f ∈ (s.pipelines.perform p x action).2 := by
  have before := alone _ (mem_of_getElem? running)
  have held : f ∈ (s.pipelines.perform p x action).2 ++ rest := left ▸ mem_cons_self
  rcases mem_append.mp held with added | later
  · cases inside : action.handsOff with
    | true => exact ⟨(cons.inj (before action mem_cons_self inside)).2, added⟩
    | false =>
      rw [perform_handsOff inside f added] at hands
      cases hands
  · obtain ⟨rfl, rfl⟩ := cons.inj (before f (mem_cons_of_mem _ later) hands)
    cases later

theorem Kept.uncalled (kept : s.Kept) (running : s.pipelines.threads[i]? = some (f :: rest))
    (calls : ∀ adapter a msg, f ≠ .deliver adapter a msg)
    (returned : ∀ adapter a msg, f ≠ .delivered adapter a msg) :
    s.calls.lookup i = none := by
  cases found : s.calls.lookup i with
  | none => rfl
  | some stage =>
    obtain ⟨adapter, a, msg, calling | back⟩ := kept.staged i stage found
    · cases running.symm.trans calling
      exact absurd rfl (calls adapter a msg)
    · cases running.symm.trans back
      exact absurd rfl (returned adapter a msg)

/-- The attachment that a hand-off looks up was told the session, or its connection is closing. -/
theorem Kept.looked_up (kept : s.Kept)
    (target : (s.pipelines.locked now).core.handOffTarget session = some (adapter, a))
    (told : s.looksUpTold session now = true) : s.Promised a session none := by
  simp only [looksUpTold, target, all_some, Bool.and_eq_true, beq_iff_eq] at told
  obtain ⟨bound, silent⟩ := told
  by_cases open_ : a ∈ s.pipelines.closedHandles
  · exact .inl open_
  refine .inr ((kept.agree a open_).trans ?_)
  obtain ⟨b, routed, found⟩ := bind_eq_some_iff.mp target
  obtain ⟨e, held, found⟩ := bind_eq_some_iff.mp found
  split at found
  · cases found
  · next free =>
    cases found
    rw [Core.boundSession, held] at bound
    obtain ⟨e₀, before, bound, served⟩ := s.pipelines.locked_narrows now a e session held bound
    rcases kept.tells.told a e₀ session before bound (served (by simpa using free)) with about | named
    · simp [about] at silent
    · exact named

/-- A hand-off in progress to the attachment agrees with what the adapter is told. -/
theorem agrees_of_admits (admits : s.admits a x = true) (waiting : s.awaits i = some (a, session)) :
    x = some session := by
  have running : i < s.pipelines.threads.length := by
    by_contra beyond
    have absent : s.pipelines.threads[i]? = none := getElem?_eq_none (Nat.le_of_not_lt beyond)
    rw [awaits, absent] at waiting
    cases waiting
  have here := all_eq_true.mp admits i (mem_range.mpr running)
  simpa [waiting] using here

theorem setBinding_eq (s : System) (a : Attachment) (x : Option SessionId) :
    s.setBinding a x = { s with providers := (s.setBinding a x).providers } := by
  fun_cases setBinding <;> rfl

theorem bound_told (bound : ∀ adapter a session, (s.providers adapter).boundTo a = some session →
      s.owner.lookup a = some adapter ∧ s.tolds.lookup a = some (some session))
    (found : ((s.setBinding a x).providers adapter).boundTo b = some session) :
    s.owner.lookup b = some adapter ∧ ((a, x) :: s.tolds).lookup b = some (some session) := by
  have elsewhere : b ≠ a → (s.providers adapter).boundTo b = some session →
      s.owner.lookup b = some adapter ∧ ((a, x) :: s.tolds).lookup b = some (some session) := by
    intro other before
    obtain ⟨owner, latest⟩ := bound adapter b session before
    have differs : (b == a) = false := by simpa using other
    exact ⟨owner, by rw [lookup_cons, differs]; exact latest⟩
  unfold setBinding at found
  cases owns : s.owner.lookup a with
  | none =>
    rw [owns] at found
    refine elsewhere ?_ found
    rintro rfl
    have owner := (bound adapter b session found).1
    rw [owns] at owner
    cases owner
  | some owner =>
    simp only [owns, setProvider, Function.update_apply] at found
    split at found
    · next same =>
      subst same
      have named := Provider.boundTo_setBinding found
      split at named
      · next here =>
        subst here
        exact ⟨owns, by rw [lookup_cons_self, named]⟩
      · next other => exact elsewhere other named
    · next different =>
      refine elsewhere ?_ found
      rintro rfl
      have actual := (bound adapter b session found).1
      rw [owns] at actual
      exact different (some.inj actual).symm

section Runs

variable [Libraries] {label : Label} {w' : Pipelines} {completes : Bool}

/-- A hand-off in progress after a step of the pipelines was in progress before it or has just been
looked up; what is known of it held before the step, and a call that the step makes agrees with
it. -/
theorem Kept.moved_awaits (kept : s.Kept) (stays : (SystemLabel.core label completes).bindingStays s = true)
    (stepped : Pipelines.step p label s.pipelines = some w')
    (waiting : (s.moved label w').awaits i = some (a, session)) :
    s.Promised a session ((s.callsAfter label).lookup i) ∧
      ∀ x, label.tells s.pipelines = some (a, x) → x = some session := by
  obtain ⟨admits, looksUp⟩ := Bool.and_eq_true_iff.mp stays
  have agrees : s.awaits i = some (a, session) → ∀ x, label.tells s.pipelines = some (a, x) →
      x = some session := by
    intro before x makes
    rw [makes] at admits
    exact agrees_of_admits admits before
  -- A thread that did not run has the call and the hand-off it had.
  have unmoved : ∀ stack, w'.threads[i]? = some stack → s.pipelines.threads[i]? = some stack →
      (∀ x, label ≠ .run i x) → s.awaits i = some (a, session) ∧
        (s.callsAfter label).lookup i = s.calls.lookup i := by
    intro stack found same other
    have calls := callsAfter_lookup (s := s) other
    have unchanged : (s.moved label w').awaits i = s.awaits i := awaits_congr (found.trans same.symm) calls
    exact ⟨unchanged ▸ waiting, calls⟩
  have handsOver : ∀ f stack, w'.threads[i]? = some (f :: stack) → f.handsOff = true →
    (∀ msg, f ≠ .handOff msg) →
      (s.awaits i = some (a, session) ∧ (s.callsAfter label).lookup i = s.calls.lookup i) ∨
        ∃ x action, label = .run i x ∧ s.pipelines.threads[i]? = some [action] ∧
          f ∈ (s.pipelines.perform p x action).2 := by
    intro f stack found hands fresh
    cases step_thread stepped found with
    | kept same other => exact .inl (unmoved _ found same other)
    | spawned new other =>
      obtain ⟨msg, _, same⟩ := spawned_handsOff kept.after (new ▸ mem_cons_self) hands
      exact absurd same (fresh msg)
    | ran x action rest ran running left =>
      obtain ⟨rfl, added⟩ := ran_handsOff kept.alone running left hands
      exact .inr ⟨x, action, ran, running, added⟩
  have settled : s.awaits i = some (a, session) ∧ (s.callsAfter label).lookup i = s.calls.lookup i →
      s.Promised a session ((s.callsAfter label).lookup i) ∧
        ∀ x, label.tells s.pipelines = some (a, x) → x = some session :=
    fun before => ⟨before.2 ▸ kept.awaited i a session before.1, agrees before.1⟩
  obtain ⟨f, rest, found, about⟩ := awaits_head waiting
  rcases about with ⟨adapter, msg, rfl, rfl⟩ | ⟨adapter, msg, rfl, rfl⟩
  · rcases handsOver _ _ found rfl (by rintro _ ⟨⟩) with before | ⟨x, action, rfl, running, added⟩
    · exact settled before
    -- The hand-off has just been looked up.
    obtain ⟨rfl, target⟩ := recordHandOff_from added
    have uncalled := kept.uncalled running (by rintro _ _ _ ⟨⟩) (by rintro _ _ _ ⟨⟩)
    have frame : (Label.run i x).frame s.pipelines =
      some (.plain (.handOff msg), x) := by simp [Label.frame, running]
    have calls : (s.callsAfter (.run i x)).lookup i = none := by simp [callsAfter, running, uncalled]
    simp only [frame] at looksUp
    rw [calls]
    refine ⟨kept.looked_up target looksUp, fun y makes => ?_⟩
    simp [Label.tells, frame, TurnFrame.tells] at makes
  · rcases handsOver _ _ found rfl (by rintro _ ⟨⟩) with before | ⟨x, action, rfl, running, added⟩
    · exact settled before
    obtain rfl := deliver_from added
    refine settled ⟨?_, by simp [callsAfter, running]⟩
    simp only [awaits, running]

theorem Kept.moved_staged (kept : s.Kept) (stepped : Pipelines.step p label s.pipelines = some w')
    (found : (s.callsAfter label).lookup i = some stage) : ∃ adapter a msg,
      w'.threads[i]? = some [.deliver adapter a msg] ∨ w'.threads[i]? = some [.delivered adapter a msg] := by
  by_cases ran : ∃ x, label = .run i x
  · obtain ⟨x, rfl⟩ := ran
    have held : s.calls.lookup i = some stage := by
      simp only [callsAfter] at found
      split at found
      · simp at found
      · exact found
    obtain ⟨adapter, a, msg, calling | back⟩ := kept.staged i stage held
    · simp only [Pipelines.step, calling] at stepped
      cases stepped
      refine ⟨adapter, a, msg, .inr ?_⟩
      have running : i < s.pipelines.threads.length := (List.getElem?_eq_some_iff.mp calling).1
      simp [Pipelines.perform, Threads.advance, running]
    · simp [callsAfter, back] at found
  · have other : ∀ x, label ≠ .run i x := fun x same => ran ⟨x, same⟩
    rw [callsAfter_lookup other] at found
    obtain ⟨adapter, a, msg, calling⟩ := kept.staged i stage found
    refine ⟨adapter, a, msg, ?_⟩
    rcases calling with calling | back
    · exact .inl (step_other stepped calling other)
    · exact .inr (step_other stepped back other)

/-- What a step of the pipelines leaves but for what the adapters are told. -/
theorem Kept.owned_moved (kept : s.Kept) (stepped : Pipelines.step p label s.pipelines = some w') :
    (∀ a adapter, (s.ownerAfter label).lookup a = some adapter → a ∈ w'.given) ∧
      ∀ a adapter, s.owner.lookup a = some adapter → (s.ownerAfter label).lookup a = some adapter := by
  have given := step_given stepped
  cases label with
  | connect b other observation carrier now =>
    have fresh : b ∉ s.pipelines.given ∧ b ∈ w'.given := by
      simp only [Pipelines.step, Pipelines.connect] at stepped
      split at stepped
      · cases stepped
      · next admitted =>
        cases stepped
        exact ⟨fun known => admitted (.inl known), mem_cons_self⟩
    simp only [ownerAfter, Table.lookup_insert_if]
    refine ⟨fun a adapter found => ?_, fun a adapter found => ?_⟩
    · split at found
      · next same => exact same ▸ fresh.2
      · exact given (kept.owned a adapter found)
    · rw [if_neg]
      · exact found
      · rintro rfl
        exact fresh.1 (kept.owned a adapter found)
  | _ => exact ⟨fun a adapter found => given (kept.owned a adapter found), fun a adapter found => found⟩

/-- What a step of the pipelines and the call it makes leave: the connections closed, the calls
completed, and the sessions the adapters have bound. -/
structure Follows (s : System) (label : Label) (w' : Pipelines) (s' : System) : Prop where
  turn : s'.pipelines.turn = w'.turn
  core : s'.pipelines.core = w'.core
  given : s'.pipelines.given = w'.given
  threads : s'.pipelines.threads = w'.threads
  log : s'.pipelines.log = w'.log
  owner : s'.owner = s.ownerAfter label
  calls : s'.calls = s.callsAfter label
  closed : w'.closedHandles ⊆ s'.pipelines.closedHandles
  tolds : s'.tolds = (label.tells s.pipelines).toList ++ s.tolds ∨
    (s'.tolds = s.tolds ∧ ∀ a x, label.tells s.pipelines = some (a, x) → a ∈ s'.pipelines.closedHandles)
  bound : (∀ adapter a session, (s.providers adapter).boundTo a = some session →
      (s.ownerAfter label).lookup a = some adapter ∧ s.tolds.lookup a = some (some session)) →
    ∀ adapter a session, (s'.providers adapter).boundTo a = some session →
      s'.owner.lookup a = some adapter ∧ s'.tolds.lookup a = some (some session)
  addressed : Addressed s.log → Addressed s'.log

theorem step_follows (stepped : step p (.core label completes) s = some s') :
    ∃ w', Pipelines.step p label s.pipelines = some w' ∧ s.Follows label w' s' := by
  simp only [step] at stepped
  split at stepped
  · obtain ⟨w', moves, left⟩ := map_eq_some_iff.mp stepped
    refine ⟨w', moves, ?_⟩
    split at left
    · next a x makes =>
      unfold tell at left
      split at left
      · rw [setBinding_eq] at left
        subst left
        refine ⟨rfl, rfl, rfl, rfl, rfl, rfl, rfl, Subset.refl _, .inl ?_, fun bound => ?_, id⟩
        · rw [makes]
          rfl
        · intro adapter b session found
          exact bound_told bound found
      · cases left
        refine ⟨rfl, rfl, rfl, rfl, rfl, rfl, rfl, subset_cons_self a _, .inr ⟨rfl, ?_⟩, id, id⟩
        intro b y same
        cases makes.symm.trans same
        exact mem_cons_self
    · next makes =>
      cases left
      refine ⟨rfl, rfl, rfl, rfl, rfl, rfl, rfl, Subset.refl _, .inl ?_, id, id⟩
      rw [makes]
      rfl
  · cases stepped

/-- A step of the pipelines whose bindings stay under every hand-off keeps the state of the
adapters' bindings and calls. -/
theorem Kept.core (kept : s.Kept) (stays : (SystemLabel.core label completes).bindingStays s = true)
    (stepped : step p (.core label completes) s = some s') : s'.Kept := by
  obtain ⟨w', moves, follows⟩ := step_follows stepped
  have closed := Pipelines.step_closedHandles moves
  obtain ⟨owned, owners⟩ := kept.owned_moved moves
  have tells := step_tells moves kept.tells
  have pipelineTolds : s'.pipelines.tolds = (label.tells s.pipelines).toList ++ s.pipelines.tolds := by
    rw [← step_tolds moves]
    simp only [Pipelines.tolds, follows.log]
  have telling : s'.pipelines.telling = w'.telling := by simp only [telling, follows.turn]
  refine ⟨⟨?_, ?_, ?_⟩, ?_, ?_, ?_, ?_, fun b open_ => ?_, fun i stage found => ?_,
    fun i b t waiting => ?_, ?_⟩
  · rw [follows.turn]
    exact tells.first
  · rw [follows.core, telling, pipelineTolds, ← step_tolds moves]
    exact tells.told
  · rw [follows.core, telling]
    exact tells.current
  · intro turn held
    exact step_afterTurn moves kept.after turn (follows.turn ▸ held)
  · intro stack member
    exact step_handsOffAlone moves kept.after kept.alone stack (follows.threads ▸ member)
  · rw [follows.owner, follows.given]
    exact owned
  · refine follows.bound fun adapter a session found => ?_
    obtain ⟨owner, latest⟩ := kept.bound adapter a session found
    exact ⟨owners a adapter owner, latest⟩
  · have before : b ∉ s.pipelines.closedHandles := fun member => open_ (follows.closed (closed member))
    rw [pipelineTolds]
    rcases follows.tolds with told | ⟨untold, gone⟩
    · rw [told]
      exact namedFor_append _ (kept.agree b before)
    · rw [untold, kept.agree b before]
      cases makes : label.tells s.pipelines with
      | none => rfl
      | some call =>
        obtain ⟨a, x⟩ := call
        rw [toList_some, singleton_append, namedFor_cons, if_neg]
        rintro rfl
        exact open_ (gone a x makes)
  · rw [follows.calls] at found
    rw [follows.threads]
    exact kept.moved_staged moves found
  · have same : s'.awaits i = (s.moved label w').awaits i :=
      awaits_congr (by rw [follows.threads]; rfl) (by rw [follows.calls]; rfl)
    obtain ⟨promised, agrees⟩ := kept.moved_awaits stays moves (same ▸ waiting)
    rw [follows.calls]
    refine promised.tell (Subset.trans closed follows.closed) ?_ agrees
    rcases follows.tolds with told | ⟨untold, -⟩
    · exact .inr told
    · exact .inl untold
  · exact follows.addressed kept.addressed

theorem step_kept {label : SystemLabel} (kept : s.Kept) (stays : label.bindingStays s = true)
    (stepped : step p label s = some s') : s'.Kept := by
  cases label with
  | core label completes => exact kept.core stays stepped
  | call i step =>
    simp only [System.step] at stepped
    split at stepped
    · next adapter a msg rest running =>
      obtain ⟨⟨provider, stage⟩, advanced, rfl⟩ := map_eq_some_iff.mp stepped
      exact kept.called running advanced
    · cases stepped
  | adapter adapter event =>
    simp only [System.step] at stepped
    split at stepped
    · cases stepped
      exact kept.setProvider fun b t => Provider.boundTo_after event
    · cases stepped

/-- In every run whose bindings stay under every hand-off, each harness input call is for the
session that the latest `set_binding` call completed for the attachment named. -/
theorem inputs_addressed (reachable : Reachable p (fun label s => label.bindingStays s = true) s) :
    ∀ newer older a session, s.log = newer ++ .input a session :: older →
      (older.filterMap BoundaryEvent.told?).lookup a = some (some session) := by
  obtain ⟨engine, caps, kinds, -, run⟩ := reachable
  have kept : s.Kept :=
    run.invariant (P := Kept) (fun label s s' stays stepped kept => step_kept kept stays stepped)
      (new_kept engine caps kinds)
  intro newer older a session log
  have addressed := kept.addressed
  rw [log] at addressed
  exact addressed.split

end Runs

/-! Runs of one adapter with attachment 7, and the message to session 2. -/

section Samples

open AuthorizationEngine

attribute [local instance] sampleLibraries

def sampleSystem (kind : ProviderKind) : System :=
  .new (.new sampleOwn) sampleSetup none fun _ => kind

abbrev sampleMove : SystemLabel → System → Option System := step sampleSetup

/-- Steps of the pipelines, every `set_binding` call of which completes. -/
def sampleCore (labels : List Label) : List SystemLabel := labels.map (.core · true)

def sampleClaude : List SystemLabel :=
  sampleCore sampleConnect ++
    [ClaudeAdapter.Event.takeConnection 7, .admitShim 7, .running 7, .listed 7].map (.adapter 0 <| .claude ·) ++
    sampleCore [sampleOpened]

def sampleCodex : List SystemLabel :=
  sampleCore [.addAdapter .epoch, .connect 3 0 .none true .epoch, .connect 7 0 .none false .epoch] ++
    [CodexAdapter.Event.designateCarrier 3 false, .takeConnection 3 true,
      .carrierStarted true, .takeConnection 7 true, .listed 7].map (.adapter 0 <| .codex ·) ++
    sampleCore [sampleOpened]

def sampleReveal (thread : String) : SystemLabel := .adapter 0 (.codex (.reveal 7 thread))

def sampleUnbind : List SystemLabel := sampleCore (.unbind 7 :: sampleFrames 3 3)

def sampleDeliver (i : Nat) : List SystemLabel :=
  [CallStep.enter true none, .check, .record true, .start].map (.call i)

def sampleLookup : List SystemLabel :=
  sampleCore (.handOff sampleMessage.message :: sampleFrames 2 1)

/-- A hand-off that is over before its attachment is bound to another session is such a run. -/
theorem inputs_addressed_sample : ∃ s : System,
    s.log = [.told 7 (some (sampleSession 1)), .told 7 none] ++ .input 7 (sampleSession 2) ::
      [.told 7 (some (sampleSession 2))] ∧
    ([BoundaryEvent.told 7 (some (sampleSession 2))].filterMap BoundaryEvent.told?).lookup 7 =
      some (some (sampleSession 2)) := by
  have performed : (performWithin sampleMove (fun label s => label.bindingStays s = true)
      (sampleClaude ++ sampleCore (sampleBind 2) ++ sampleLookup ++
        sampleCore (sampleFrames 2 1) ++ sampleDeliver 2 ++
        sampleUnbind ++ sampleCore (sampleBind 1)) (sampleSystem .claude)).map (·.log) =
      some ([.told 7 (some (sampleSession 1)), .told 7 none] ++ .input 7 (sampleSession 2) ::
        [.told 7 (some (sampleSession 2))]) := by
    decide +kernel
  obtain ⟨s, reached, log⟩ := reachedWithin_of_map _ performed
  have reachable : Reachable sampleSetup (fun label s => label.bindingStays s = true) s :=
    ⟨.new sampleOwn, none, _, rfl, reached⟩
  exact ⟨s, log, @inputs_addressed sampleSetup s sampleLibraries reachable _ _ 7 (sampleSession 2) log⟩

/-- With either adapter the message to session 2 is put into the conversation of session 1: between
the lookup of the hand-off and its input call the attachment is unbound and bound to session 1, and
the adapter asks only whether some session is bound. -/
theorem input_misaddressed : ∃ s s₁ : System, (Reachable sampleSetup anyMove s ∧
      Reachable sampleSetup anyMove s₁) ∧
    s.log = .input 7 (sampleSession 2) :: [.told 7 (some (sampleSession 1)), .told 7 none,
      .told 7 (some (sampleSession 2))] ∧ s₁.log = s.log ∧
    ([BoundaryEvent.told 7 (some (sampleSession 1)), .told 7 none, .told 7 (some (sampleSession 2))].filterMap
      BoundaryEvent.told?).lookup 7 ≠ some (some (sampleSession 2)) := by
  have claude : (perform sampleMove
      (sampleClaude ++ sampleCore (sampleBind 2) ++ sampleLookup ++ sampleUnbind ++ sampleCore (sampleBind 1) ++
        sampleCore (sampleFrames 2 1) ++ sampleDeliver 2) (sampleSystem .claude)).map (·.log) =
      some (.input 7 (sampleSession 2) :: [.told 7 (some (sampleSession 1)), .told 7 none,
        .told 7 (some (sampleSession 2))]) := by
    decide +kernel
  have codex : (perform sampleMove
      (sampleCodex ++ [sampleReveal "t1"] ++ sampleCore (sampleBind 2) ++ sampleLookup ++ sampleUnbind ++
        [sampleReveal "t2"] ++ sampleCore (sampleBind 1) ++ sampleCore (sampleFrames 2 1) ++ sampleDeliver 2)
      (sampleSystem .codex)).map (·.log) =
      some (.input 7 (sampleSession 2) :: [.told 7 (some (sampleSession 1)), .told 7 none,
        .told 7 (some (sampleSession 2))]) := by
    decide +kernel
  obtain ⟨s, reaches, log⟩ := reached_of_map _ claude
  obtain ⟨s₁, reached₁, log₁⟩ := reached_of_map _ codex
  have reached : Reachable sampleSetup anyMove s := ⟨.new sampleOwn, none, _, rfl, reaches⟩
  have reached₁ : Reachable sampleSetup anyMove s₁ := ⟨.new sampleOwn, none, _, rfl, reached₁⟩
  exact ⟨s, s₁, ⟨reached, reached₁⟩, log, log₁.trans log.symm, by decide +kernel⟩

end Samples

end System

end Oac
