import Oac.Pipeline.Turns

/-! What a frame of any thread does to the pending native signals: only a report adds one. A frame
that unbinds for a signal carries the arrival number of that signal. -/

namespace Oac

open List

def Frame.origin : Frame → Option Nat
  | .unbindRead _ origin | .unbindWrite _ _ origin => origin
  | _ => none

def PipelineEvent.origin : PipelineEvent → Option Nat
  | .bound _ _ seq | .unbound _ _ seq => seq
  | _ => none

def PipelineEvent.aboutSignal : PipelineEvent → Bool
  | .reported _ _ _ | .paired _ _ _ _ => true
  | _ => false

def PairAttempt.isConflict : PairAttempt → Bool
  | .conflict _ => true
  | _ => false

theorem dropSignal_origin (agrees : attempt.isConflict = false) :
    ∀ frame ∈ dropSignal attempt seq, frame.origin = none := by
  intro frame added
  cases attempt with
  | rejected requirement | notYet key => cases added
  | conflict a => cases agrees
  | paired a =>
    cases mem_singleton.mp added
    rfl
  | unpairable bound =>
    obtain ⟨a, _, rfl⟩ := mem_map.mp added
    rfl

theorem afterQueuedSignal_origin (agrees : dropped.all (!·.attempt.isConflict) = true) :
    ∀ frame ∈ afterQueuedSignal dropped, frame.origin = none := by
  intro frame added
  rcases mem_append.mp added with drops | last
  · cases dropped with
    | none => cases drops
    | some d => exact dropSignal_origin (by simpa using agrees) frame drops
  · cases mem_singleton.mp last
    rfl

namespace Core

/-- No signal is pending in `c'` that was not in `c`, and no key is observed that was not. -/
structure Fewer (c c' : Core) : Prop where
  signals : c'.signals.Sublist c.signals
  held : c'.held.Sublist c.held
  next : c.nextSignalSeq ≤ c'.nextSignalSeq
  observed : ∀ a key, c'.observedKey a = some key → c.observedKey a = some key

variable {c c' c'' : Core}

theorem Fewer.refl (c : Core) : c.Fewer c := ⟨.refl _, .refl _, le_rfl, fun _ _ => id⟩

theorem Fewer.trans (first : c.Fewer c') (second : c'.Fewer c'') : c.Fewer c'' :=
  ⟨second.signals.trans first.signals, second.held.trans first.held, first.next.trans second.next,
    fun a key observed => first.observed a key (second.observed a key observed)⟩

theorem Fewer.of_eq (signals : c'.signals = c.signals) (held : c'.held = c.held)
    (next : c'.nextSignalSeq = c.nextSignalSeq) (observed : c'.observed = c.observed) : c.Fewer c' := by
  refine ⟨signals ▸ .refl _, held ▸ .refl _, next ▸ le_rfl, fun a key found => ?_⟩
  rwa [observedKey, observed] at found

section

variable (c : Core) (closedHandles : List Attachment) (adapter : AdapterId) (a : Attachment)

theorem forgetConnection_fewer : c.Fewer (c.forgetConnection a) := by
  refine ⟨.refl _, .refl _, le_rfl, fun b key found => ?_⟩
  simp only [observedKey, forgetConnection, Table.lookup_erase_if] at found
  split at found
  · cases found
  · exact found

theorem applyClosure_fewer (adapter : AdapterId) (now : Timestamp) :
    c.Fewer (c.applyClosure a adapter now) := by
  have forgot := c.forgetConnection_fewer a
  fun_cases applyClosure
  · exact .refl c
  · exact forgot.trans (.of_eq rfl rfl rfl rfl)
  · exact forgot

theorem attachmentOpened_fewer (crossCheck : Option String) :
    c.Fewer (c.attachmentOpened adapter a crossCheck) := by
  fun_cases attachmentOpened <;> exact .of_eq rfl rfl rfl rfl

theorem stopUnconfirmed_fewer : c.Fewer (c.stopUnconfirmed adapter a).1 := by
  fun_cases stopUnconfirmed
  · exact .refl c
  · exact ⟨.refl _, .refl _, Nat.le_succ _, fun _ _ => id⟩

theorem withhold_fewer (seq : Nat) : c.Fewer (c.withhold a seq).1 := by
  fun_cases withhold <;> exact .of_eq rfl rfl rfl rfl

theorem pairingValueFor_fewer (now : Instant) (fresh : Option String) :
    c.Fewer (c.pairingValueFor closedHandles adapter a now fresh) := by
  fun_cases pairingValueFor <;> exact .of_eq rfl rfl rfl rfl

theorem takePending_fewer (seq : Nat) : c.Fewer (c.takePending seq).1 := by
  fun_cases takePending
  · exact ⟨.refl _, eraseP_sublist, le_rfl, fun _ _ => id⟩
  · exact ⟨eraseP_sublist, .refl _, le_rfl, fun _ _ => id⟩
  · exact .refl c

theorem takePending_numbering (seq : Nat) :
    (c.takePending seq).1.nextSignalSeq = c.nextSignalSeq ∧ (c.takePending seq).1.observed = c.observed := by
  fun_cases takePending <;> exact ⟨rfl, rfl⟩

end

/-- A report numbers its signal, and queues it behind the others unless it is turned away. -/
structure Queues (c c' : Core) (q : QueuedSignal) : Prop where
  number : q.seq = c.nextSignalSeq
  next : c'.nextSignalSeq = c.nextSignalSeq + 1
  signals : c'.signals.Sublist (c.signals ++ [q])
  held : c'.held.Sublist c.held
  observed : ∀ a key, c'.observedKey a = some key → c.observedKey a = some key

theorem enqueue_queues (c : Core) (config : PipelineConfig) (q : QueuedSignal) :
    (c.enqueue config q).1.nextSignalSeq = c.nextSignalSeq ∧
      (c.enqueue config q).1.signals.Sublist (c.signals ++ [q]) ∧ (c.enqueue config q).1.held.Sublist c.held ∧
      (c.enqueue config q).1.observed = c.observed := by
  fun_cases enqueue
  · exact ⟨rfl, .refl _, .refl _, rfl⟩
  · next victim _ _ _ taken =>
    obtain ⟨signals, held, -, -⟩ := c.takePending_fewer victim
    obtain ⟨next, observed⟩ := c.takePending_numbering victim
    rw [taken] at signals held next observed
    exact ⟨next, signals.append_right [q], held, observed⟩
  · exact ⟨rfl, sublist_append_left _ _, .refl _, rfl⟩

theorem queueSignal_queues (c : Core) (config : PipelineConfig) (adapter : AdapterId)
    (signal : NativeSignal) (now : Instant) :
    c.Queues (c.queueSignal config adapter signal now).1 (c.queueSignal config adapter signal now).2.1 ∧
      (c.queueSignal config adapter signal now).2.1.adapter = adapter := by
  unfold queueSignal
  simp only
  split
  · exact ⟨⟨rfl, rfl, sublist_append_left _ _, .refl _, fun _ _ => id⟩, rfl⟩
  · obtain ⟨next, signals, held, observed⟩ :=
      (c.numberSignal adapter signal now).1.enqueue_queues config (c.numberSignal adapter signal now).2
    refine ⟨⟨rfl, next, signals, held, fun a key found => ?_⟩, rfl⟩
    rwa [observedKey, observed] at found

end Core

namespace Pipelines

variable {p : PipelineSetup} {w : Pipelines} {x : Ext}

theorem locked_fewer (w : Pipelines) (now : Timestamp) : w.core.Fewer (w.locked now).core := by
  have applied : ∀ (pending : List (Sigma fun _ : Attachment => AdapterId)) (c : Core),
      c.Fewer (pending.foldl (fun c e => c.applyClosure e.1 e.2 now) c) := by
    intro pending
    induction pending with
    | nil => exact .refl
    | cons e rest ih => exact fun c => (c.applyClosure_fewer e.1 e.2 now).trans (ih _)
  exact applied _ _

theorem update_fewer (fewer : (w.locked now).core.Fewer (change (w.locked now).core)) :
    w.core.Fewer (w.update now change).core :=
  (w.locked_fewer now).trans fewer

section

variable (p : PipelineSetup) (x : Ext) (w : Pipelines) (action : Frame)

theorem perform_fewer (other : ∀ adapter signal now, action ≠ .queueSignal adapter signal now) :
    w.core.Fewer (w.perform p x action).1.core := by
  have locked := w.locked_fewer x.now
  cases action with
  | lockOnly | attachmentClosed | unbindRead | unbindAll | capabilitiesRead | drainMore | handOff =>
    exact locked
  | noteRepair | setUnbound | capabilitiesAsk | deliver | delivered => exact .refl _
  | attachmentOpened adapter a crossCheck => exact update_fewer (Core.attachmentOpened_fewer _ _ _ _)
  | forgetConnection a => exact locked.trans (Core.forgetConnection_fewer _ a)
  | markClosed a => exact update_fewer (.of_eq rfl rfl rfl rfl)
  | unbindWrite a session origin => exact locked.trans (.of_eq rfl rfl rfl rfl)
  | capabilitiesWrite session updated => exact update_fewer (.of_eq rfl rfl rfl rfl)
  | recordHandOff adapter a msg => exact locked.trans (.of_eq rfl rfl rfl rfl)
  | forgetHandOff record => exact update_fewer (.of_eq rfl rfl rfl rfl)
  | stopUnconfirmed adapter a => exact locked.trans (Core.stopUnconfirmed_fewer _ adapter a)
  | queueSignal adapter signal now => exact absurd rfl (other adapter signal now)
  | withhold a seq =>
    have fewer := (w.locked x.now).core.withhold_fewer a seq
    simp only [perform]
    split
    · next taken => exact locked.trans (by rwa [taken] at fewer)
    · exact locked
  | drainBinding =>
    simp only [perform]
    split
    · exact .refl _
    · exact .refl _
  | request adapter a now =>
    simp only [perform]
    split
    · exact locked
    · exact locked.trans (Core.pairingValueFor_fewer _ _ _ _ _ _)

theorem stopUnconfirmed_log (now : Timestamp) (adapter : AdapterId) (a : Attachment) :
    ∃ events, (w.stopUnconfirmed now adapter a).1.log = events ++ w.log ∧
      ∀ event ∈ events, event.aboutSignal = false ∧ event.origin = none := by
  refine ⟨((w.locked now).core.stopUnconfirmed adapter a).2.elim []
    fun _ => [.stopped a (w.locked now).core.nextSignalSeq], rfl, fun event logged => ?_⟩
  cases stopped : ((w.locked now).core.stopUnconfirmed adapter a).2 with
  | none =>
    rw [stopped] at logged
    cases logged
  | some session =>
    rw [stopped] at logged
    cases mem_singleton.mp logged
    exact ⟨rfl, rfl⟩

/-- What frames other than a report log is about no signal, but for the one a binding is ended
for. -/
theorem perform_log
    (other : ∀ adapter signal now, action ≠ .queueSignal adapter signal now) :
    ∃ events, (w.perform p x action).1.log = events ++ w.log ∧
      ∀ event ∈ events, event.aboutSignal = false ∧ event.origin = action.origin := by
  cases action with
  | queueSignal adapter signal now => exact absurd rfl (other adapter signal now)
  | setUnbound a =>
    exact ⟨[.told a none], rfl, by simp [PipelineEvent.aboutSignal, PipelineEvent.origin, Frame.origin]⟩
  | unbindWrite a session origin =>
    exact ⟨[.unbound a session origin], rfl, by
      simp [PipelineEvent.aboutSignal, PipelineEvent.origin, Frame.origin]⟩
  | stopUnconfirmed adapter a => exact w.stopUnconfirmed_log x.now adapter a
  | withhold a seq =>
    simp only [perform]
    split
    · exact ⟨[.stopped a seq], rfl, by simp [PipelineEvent.aboutSignal, PipelineEvent.origin, Frame.origin]⟩
    · exact ⟨[], rfl, by simp⟩
  | drainBinding =>
    simp only [perform]
    split
    · exact ⟨[], rfl, by simp⟩
    · exact ⟨[], rfl, by simp⟩
  | request adapter a now =>
    simp only [perform]
    split
    · exact ⟨[], rfl, by simp⟩
    · exact ⟨[], rfl, by simp⟩
  | _ => exact ⟨[], rfl, by simp⟩

end

/-- A frame passes the signal it unbinds for on, and no other frame names a signal. -/
theorem perform_origin (added : frame ∈ (w.perform p x action).2)
    (agrees : ∀ adapter signal now, action = .queueSignal adapter signal now →
      (w.queueSignal p.config x.now adapter signal now).2.all (!·.attempt.isConflict) = true) :
    frame.origin = none ∨ frame.origin = action.origin := by
  cases action with
  | attachmentClosed | capabilitiesRead | capabilitiesAsk | stopUnconfirmed | withhold | drainBinding | drainMore
  | request | handOff | recordHandOff | deliver | delivered =>
    refine .inl ?_
    simp only [perform, finishUnconfirmed, endConnection, unbindFrames] at added
    repeat' split at added
    all_goals simp only [cons_append, nil_append, mem_cons, not_mem_nil, or_false] at added
    all_goals rcases added with rfl | rfl | rfl <;> rfl
  | unbindRead a origin =>
    simp only [perform] at added
    split at added
    · simp only [mem_cons, not_mem_nil, or_false] at added
      rcases added with rfl | rfl
      · exact .inr rfl
      · exact .inl rfl
    · cases added
  | unbindAll =>
    obtain ⟨a, _, unbinds⟩ := mem_flatMap.mp added
    cases mem_singleton.mp unbinds
    exact .inl rfl
  | queueSignal adapter signal now =>
    exact .inl (afterQueuedSignal_origin (agrees adapter signal now rfl) frame added)
  | _ => cases added

end Pipelines

end Oac
