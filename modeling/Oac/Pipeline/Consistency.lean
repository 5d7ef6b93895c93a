import Oac.Authorization.Decisions
import Oac.Pipeline.Sections

/-! The tables of the core agree: a session belongs to the attachment whose entry has it, and the
core, the engine and the registry have the same own sessions. `unbind`, `capabilities_changed` and
`end_connection` act in one hold of the lock on what an earlier hold read, so the agreement needs
that this is still so when they act. -/

namespace Oac

open Table Option Transition

namespace Core

structure Consistent (c : Core) : Prop where
  linked : ∀ s a, c.sessions.lookup s = some a ↔ c.boundSession a = some s
  subscribed : ∀ s, (c.subscriptions.lookup s).isSome ↔ (c.sessions.lookup s).isSome
  owned : ∀ s, (c.engine.ownSessions.lookup s).isSome ↔ (c.sessions.lookup s).isSome
  registered : ∀ s, (c.registry.own.lookup s).isSome ↔ (c.sessions.lookup s).isSome

section Views

variable {c c' : Core}

theorem Consistent.of_views (consistent : c.Consistent) (bound : ∀ a, c'.boundSession a = c.boundSession a)
    (sessions : c'.sessions = c.sessions) (subscriptions : c'.subscriptions = c.subscriptions)
    (own : c'.engine.ownSessions = c.engine.ownSessions)
    (registered : ∀ s, (c'.registry.own.lookup s).isSome ↔ (c.registry.own.lookup s).isSome) :
    c'.Consistent where
  linked s a := by rw [sessions, bound, consistent.linked]
  subscribed s := by rw [subscriptions, sessions, consistent.subscribed]
  owned s := by rw [own, sessions, consistent.owned]
  registered s := by rw [registered, sessions, consistent.registered]

theorem Consistent.same (consistent : c.Consistent) (same : c.SameBindings c') : c'.Consistent :=
  consistent.of_views (fun a => by rw [boundSession, boundSession, same.attachments]) same.sessions
    same.subscriptions same.ownSessions fun s => by rw [same.own]

theorem boundSession_insert (c : Core) (a b : Attachment) (e : AttachmentEntry) (next : Nat) :
    { c with nextSignalSeq := next, attachments := c.attachments.insert a e }.boundSession b =
      if b = a then e.session else c.boundSession b := by
  simp only [boundSession, lookup_insert_if]
  split
  · rfl
  · rfl

theorem boundSession_keeps (held : c.attachments.lookup a = some e)
    (kept : e'.session = e.session) (next : Nat) (b : Attachment) :
    { c with nextSignalSeq := next, attachments := c.attachments.insert a e' }.boundSession b =
      c.boundSession b := by
  rw [boundSession_insert]
  split
  · next same => rw [same, boundSession, held, kept]; rfl
  · rfl

theorem boundSession_modifyEntry (c : Core) (a b : Attachment) (kept : ∀ e, (f e).session = e.session) :
    (c.modifyEntry a f).boundSession b = c.boundSession b := by
  simp only [boundSession, modifyEntry, lookup_modify_if]
  split
  · next same =>
    rw [same]
    cases c.attachments.lookup a with
    | none => rfl
    | some e => exact kept e
  · rfl

theorem boundSession_forgetConnection (c : Core) (a b : Attachment) :
    (c.forgetConnection a).boundSession b = if b = a then none else c.boundSession b := by
  simp only [boundSession, forgetConnection, lookup_erase_if]
  split
  · rfl
  · rfl

theorem boundSession_unbound (c : Core) (a b : Attachment) :
    (c.modifyEntry a fun e => { e with session := none, nativeId := none, withheld := false }).boundSession b =
      if b = a then none else c.boundSession b := by
  simp only [boundSession, modifyEntry, lookup_modify_if]
  split
  · cases c.attachments.lookup a with
    | none | some => rfl
  · rfl

end Views

/-- A binding taken away together with its session leaves the tables consistent: what matters is
that no other attachment is bound to the session, and that the attachment was bound to no other. -/
theorem Consistent.endSession {c c₁ : Core} (now : Timestamp)
    (consistent : c.Consistent) (bound : ∀ b, c₁.boundSession b = if b = a then none else c.boundSession b)
    (sessions : c₁.sessions = c.sessions) (subscriptions : c₁.subscriptions = c.subscriptions)
    (engine : c₁.engine = c.engine) (registry : c₁.registry = c.registry)
    (own : ∀ s, c.boundSession a = some s → s = session)
    (alone : ∀ b, c.sessions.lookup session = some b → b = a) : (c₁.endSession session now).Consistent := by
  have kept : ∀ s, (c₁.endSession session now).sessions.lookup s =
      if s = session then none else c.sessions.lookup s := fun s => by
    rw [← sessions]
    exact lookup_erase_if session s _
  refine ⟨fun s b => ?_, fun s => ?_, fun s => ?_, fun s => ?_⟩
  · change (c₁.endSession session now).sessions.lookup s = some b ↔ c₁.boundSession b = some s
    rw [kept, bound]
    by_cases ended : s = session
    · subst ended
      by_cases here : b = a
      · simp [here]
      · simp only [if_true, if_neg here, reduceCtorEq, false_iff]
        exact fun elsewhere => here (alone b ((consistent.linked s b).mpr elsewhere))
    · by_cases here : b = a
      · subst here
        simp only [if_neg ended, if_true, reduceCtorEq, iff_false]
        exact fun held => ended (own s ((consistent.linked s b).mp held))
      · simpa only [if_neg ended, if_neg here] using consistent.linked s b
  · have gone : (c₁.endSession session now).subscriptions.lookup s =
        if s = session then none else c.subscriptions.lookup s := by
      rw [← subscriptions]
      exact lookup_erase_if session s _
    rw [kept, gone]
    split
    · simp
    · exact consistent.subscribed s
  · have gone : (c₁.endSession session now).engine.ownSessions.lookup s =
        if s = session then none else c.engine.ownSessions.lookup s := by
      rw [← engine]
      exact AuthorizationEngine.endSession_own c₁.engine session s
    rw [kept, gone]
    split
    · simp
    · exact consistent.owned s
  · have gone : (c₁.endSession session now).registry.own.lookup s =
        if s = session then none else c.registry.own.lookup s := by
      rw [← registry]
      exact PresenceRegistry.deregisterOwn_own c₁.registry session s
    rw [kept, gone]
    split
    · simp
    · exact consistent.registered s

theorem Consistent.applyClosure {c : Core} (consistent : c.Consistent) (a : Attachment)
    (adapter : AdapterId) (now : Timestamp) : (c.applyClosure a adapter now).Consistent := by
  unfold Core.applyClosure
  split
  · exact consistent
  · have forgets := c.boundSession_forgetConnection a
    split
    · next session held =>
      have bound : c.boundSession a = some session := held
      refine consistent.endSession now forgets rfl rfl rfl rfl ?_ ?_
      · intro s held
        exact some.inj (held.symm.trans bound)
      · intro b held
        have here := (consistent.linked session a).mpr bound
        exact some.inj (held.symm.trans here)
    · next unbound =>
      refine consistent.of_views (fun b => ?_) rfl rfl rfl fun s => .rfl
      rw [forgets]
      split
      · next same => exact (same ▸ unbound).symm
      · rfl

/-- The second section of `unbind` keeps the tables consistent when the attachment is still bound to
the session read, or neither is bound any more. -/
theorem Consistent.unbind {c : Core} (consistent : c.Consistent) (a : Attachment)
    (session : SessionId) (now : Timestamp) (current : c.boundSession a = some session ∨
      (c.boundSession a = none ∧ c.sessions.lookup session = none)) : (c.unbind a session now).Consistent := by
  refine consistent.endSession now (c.boundSession_unbound a) rfl rfl rfl rfl ?_ ?_
  · intro s held
    rcases current with bound | ⟨unbound, _⟩
    · exact some.inj (held.symm.trans bound)
    · rw [unbound] at held
      cases held
  · intro b held
    rcases current with bound | ⟨_, absent⟩
    · have here := (consistent.linked session a).mpr bound
      exact some.inj (held.symm.trans here)
    · rw [absent] at held
      cases held

section Binding

variable [Libraries]

theorem bindRecord_eq_ok {c c' : Core} (made : c.bindRecord own a record descriptor seq = (c', .ok entry)) :
    ∃ e engine, c.attachments.lookup a = some e ∧ e.isOpen = true ∧ e.session = none ∧
      c.sessions.lookup record.sessionId = none ∧ c.engine.registerSession record own = (true, engine) ∧
      entry = boundEntry e record.sessionId record.nativeId seq ∧
      c' = c.register engine a entry record.sessionId descriptor := by
  unfold bindRecord at made
  split at made
  · cases made
  next e found =>
  split at made
  · cases made
  next fresh =>
  split at made
  · cases made
  next engine registered =>
  cases made
  obtain ⟨held, ready⟩ := filter_eq_some_iff.mp found
  obtain ⟨isOpen, unbound⟩ : e.isOpen = true ∧ e.session = none := by simpa using ready
  exact ⟨e, engine, held, isOpen, unbound, by simpa using fresh, registered, rfl, rfl⟩

theorem Consistent.bindRecord {c c' : Core} (consistent : c.Consistent)
    (made : c.bindRecord own a record descriptor seq = (c', .ok entry)) : c'.Consistent := by
  obtain ⟨e, engine, held, isOpen, unbound, fresh, registered, rfl, rfl⟩ := bindRecord_eq_ok made
  have free : c.boundSession a = none := by rw [boundSession, held, bind_some, unbound]
  have bound : ∀ b, (c.register engine a (boundEntry e record.sessionId record.nativeId seq)
      record.sessionId descriptor).boundSession b = if b = a then some record.sessionId
        else c.boundSession b := by
    intro b
    simp only [boundSession, register, lookup_insert_if]
    split
    · rfl
    · rfl
  have engineOwn := AuthorizationEngine.registerSession_own registered
  refine ⟨fun s b => ?_, fun s => ?_, fun s => ?_, fun s => ?_⟩
  · rw [bound]
    simp only [register, lookup_insert_if]
    by_cases new : s = record.sessionId
    · by_cases here : b = a
      · simp [new, here]
      · rw [if_pos new, if_neg here]
        refine ⟨fun same => absurd (some.inj same).symm here, fun elsewhere => ?_⟩
        rw [new, ← consistent.linked, fresh] at elsewhere
        cases elsewhere
    · by_cases here : b = a
      · rw [if_neg new, here, consistent.linked, free]
        simpa using Ne.symm new
      · rw [if_neg new, if_neg here]
        exact consistent.linked s b
  · simp only [register, lookup_insert_if]
    split
    · simp
    · exact consistent.subscribed s
  · simp only [register, engineOwn, lookup_insert_if]
    split
    · simp
    · exact consistent.owned s
  · simp only [register, PresenceRegistry.registerOwn_own, lookup_insert_if, descriptor.2]
    split
    · simp
    · exact consistent.registered s

end Binding

end Core

/-- A section that acts on what an earlier one read finds it as it was read: the attachment of an
`unbind` is still bound to the session read or neither is bound any more, the session of a
capability change is still an own one, and an attachment whose connection is forgotten is
unbound. -/
def Label.actsOnCurrent (label : Label) (w : Pipelines) : Bool :=
  match label.frame w with
  | some (.plain (.unbindWrite a session _), x) =>
    let c := (w.locked x.now).core
    c.boundSession a == some session || (c.boundSession a == none && c.sessions.lookup session == none)
  | some (.plain (.capabilitiesWrite session _), x) => (w.locked x.now).core.registry.isOwn session
  | some (.plain (.forgetConnection a), x) => (w.locked x.now).core.boundSession a == none
  | _ => true

namespace Pipelines

variable [Libraries] {p : PipelineSetup} {label : Label} {w w' : Pipelines} {c c' : Core}

theorem section_consistent {events : List PipelineEvent} {given : List Attachment}
    (current : label.actsOnCurrent w = true) (section_ : Section p label w c c' events given)
    (consistent : c.Consistent) : c'.Consistent := by
  cases section_ with
  | quiet same silent => exact consistent.same same
  | connected => exact consistent.of_views (fun b => rfl) rfl rfl rfl fun s => .rfl
  | opened adapter a crossCheck connected absent =>
    refine consistent.of_views (fun b => ?_) rfl rfl rfl fun s => .rfl
    rw [c.boundSession_insert a b _ c.nextSignalSeq]
    split
    · next same => rw [same, Core.boundSession, absent]; rfl
    · rfl
  | closed a =>
    exact consistent.of_views (fun b => c.boundSession_modifyEntry a b fun _ => rfl) rfl rfl rfl fun s => .rfl
  | noted a seq kept =>
    exact consistent.of_views (fun b => c.boundSession_modifyEntry a b fun _ => rfl) rfl rfl rfl fun s => .rfl
  | stopped a e seq next held stops =>
    have kept : (Core.stoppedBy e seq).session = e.session := rfl
    exact consistent.of_views (Core.boundSession_keeps held kept next) rfl rfl rfl fun s => .rfl
  | released x a e seq frame held answered =>
    have kept : (Core.releasedEntry e).session = e.session := rfl
    exact consistent.of_views (Core.boundSession_keeps held kept c.nextSignalSeq) rfl rfl rfl fun s => .rfl
  | forgot x a frame =>
    have unbound : (w.locked x.now).core.boundSession a = none := by
      simpa [Label.actsOnCurrent, frame] using current
    refine consistent.of_views (fun b => ?_) rfl rfl rfl fun s => .rfl
    rw [Core.boundSession_forgetConnection]
    split
    · next same => rw [same, unbound]
    · rfl
  | unbound x a session origin frame =>
    refine consistent.unbind a session x.now ?_
    simpa [Label.actsOnCurrent, frame] using current
  | bound _ _ _ _ _ _ _ _ made => exact consistent.bindRecord made
  | described x session updated frame =>
    have own : ((w.locked x.now).core.registry.own.lookup session).isSome := by
      simpa [Label.actsOnCurrent, frame, PresenceRegistry.isOwn] using current
    refine consistent.of_views (fun b => rfl) rfl rfl rfl fun s => ?_
    rw [PresenceRegistry.registerOwn_own, updated.2]
    split
    · next same =>
      subst same
      simpa using own
    · exact .rfl

/-- In every run whose later sections find what the earlier ones read, the tables agree in every
state reached. -/
theorem tables_consistent (reachable : Reachable p (fun label w => label.actsOnCurrent w = true)
    w) : w.core.Consistent := by
  refine reachable.invariant (P := fun w => w.core.Consistent) ?_ ?_
  · intro engine caps noOwn
    refine ⟨fun s a => ?_, fun s => ?_, fun s => ?_, fun s => ?_⟩
    · simp [new, Core.new, Core.boundSession]
    · simp [new, Core.new]
    · simp [new, Core.new, noOwn]
    · simp [new, Core.new, PresenceRegistry.new, PresenceRegistry.withCapacity, PresenceRegistry.withLimits]
  · intro label w w' current stepped held
    refine step_keeps (I := fun _ _ c => c.Consistent) ?_ ?_ stepped held
    · exact fun c a adapter now held => held.applyClosure a adapter now
    · exact fun c c' events given _ section_ held => section_consistent current section_ held

end Pipelines

/-! Runs of a small pipelines: one adapter, and attachment 7. -/

section Samples

open AuthorizationEngine Pipelines

def sampleSetup : PipelineSetup := ⟨sampleOwn, .default⟩

def sampleExt : Ext where
  now := .epoch
  instant := 0
  capabilities := some ⟨true, [], none⟩
  subscribed := true
  record := none
  value := none
  outcome := .completed

def samplePipelines : Pipelines := .new (.new sampleOwn) sampleSetup none

abbrev sampleStep : Label → Pipelines → Option Pipelines := @step sampleLibraries sampleSetup

def sampleConnect : List Label := [.addAdapter .epoch, .connect 7 0 .none false .epoch]

def sampleOpened : Label := .reportLocal 0 (.attachmentOpened 7 none) 0 .epoch

def sampleTurn (n : Nat) : List Label := List.replicate n (.turn sampleExt) ++ [.releaseTurn]

def sampleBind (n : BitVec 128) : List Label :=
  .bind 7 (sampleRegistration (sampleSession n)) none :: sampleTurn 4

def sampleBindWithheld (n : BitVec 128) : List Label :=
  .bind 7 (sampleRegistration (sampleSession n)) none :: sampleTurn 3

def sampleUnconfirmed : Label := .reportLocal 0 (.attachmentUnconfirmed 7) 0 .epoch

def sampleFrames (i n : Nat) : List Label := List.replicate n (.run i sampleExt)

theorem reachable_of_perform (labels : List Label)
    (performed : perform sampleStep labels samplePipelines = some w) :
    @Reachable sampleLibraries sampleSetup anyMove w :=
  ⟨.new sampleOwn, none, rfl, reaches_of_perform labels performed⟩

theorem reachable_of_labels {guard : Label → Pipelines → Prop}
    [∀ label w, Decidable (guard label w)] (labels : List Label)
    (performed : performWithin sampleStep guard labels samplePipelines = some w) :
    @Reachable sampleLibraries sampleSetup guard w :=
  ⟨.new sampleOwn, none, rfl, reaches_of_performWithin labels performed⟩

end Samples

namespace Pipelines

open AuthorizationEngine

theorem tables_consistent_sample : ∃ w : Pipelines,
    w.core.Consistent ∧ w.core.sessions.lookup (sampleSession 1) = some 7 := by
  have performed : (performWithin sampleStep (fun label w => label.actsOnCurrent w = true)
      (sampleConnect ++ [sampleOpened] ++ sampleBind 2 ++ [.unbind 7] ++ sampleFrames 2 3 ++ sampleBind 1)
      samplePipelines).map (fun w => w.core.sessions.lookup (sampleSession 1)) =
        some (some 7) := by decide +kernel
  obtain ⟨w, run, bound⟩ := map_eq_some_iff.mp performed
  exact ⟨w, @tables_consistent sampleLibraries sampleSetup w (reachable_of_labels _ run), bound⟩

/-- Without the condition each of the three sections breaks the agreement. A second unbind and a
bind to session 2 pass between the two holds of an unbind that read session 1; the session ends
between the two holds of a capability change; the attachment opens and is bound between the holds of
a disconnect. -/
theorem tables_disagree : ∃ w w₁ w₂ : Pipelines,
    (@Reachable sampleLibraries sampleSetup anyMove w ∧ ¬ w.core.Consistent ∧
      w.core.sessions.lookup (sampleSession 2) = some 7 ∧ w.core.boundSession 7 = none) ∧
    (@Reachable sampleLibraries sampleSetup anyMove w₁ ∧ ¬ w₁.core.Consistent ∧
      w₁.core.registry.isOwn (sampleSession 1) ∧ w₁.core.sessions.lookup (sampleSession 1) = none) ∧
    (@Reachable sampleLibraries sampleSetup anyMove w₂ ∧ ¬ w₂.core.Consistent ∧
      w₂.core.sessions.lookup (sampleSession 1) = some 7 ∧ w₂.core.attachments.lookup 7 = none) := by
  have stale : ((Transition.perform sampleStep
      (sampleConnect ++ [sampleOpened] ++ sampleBind 1 ++ [.unbind 7] ++ sampleFrames 2 1 ++
        [.unbind 7] ++ sampleFrames 3 3 ++ sampleBind 2 ++ sampleFrames 2 1) samplePipelines).map
      fun w => (w.core.sessions.lookup (sampleSession 2), w.core.boundSession 7)) = some (some 7, none) := by
    decide +kernel
  have described : ((Transition.perform sampleStep
      (sampleConnect ++ [sampleOpened] ++ sampleBind 1 ++ [.report 0 (.capabilitiesChanged 7) 0] ++
        sampleFrames 2 2 ++ [.unbind 7] ++ sampleFrames 3 3 ++ sampleFrames 2 1) samplePipelines).map
      fun w => (w.core.registry.isOwn (sampleSession 1),
        w.core.sessions.lookup (sampleSession 1))) = some (true, none) := by
    decide +kernel
  have disconnected : ((Transition.perform sampleStep
      (sampleConnect ++ [.disconnect 7] ++ sampleFrames 0 2 ++ [sampleOpened] ++ sampleBind 1 ++
        sampleFrames 0 1) samplePipelines).map
      fun w => (w.core.sessions.lookup (sampleSession 1), w.core.attachments.lookup 7)) =
        some (some 7, none) := by
    decide +kernel
  obtain ⟨w, run, found⟩ := map_eq_some_iff.mp stale
  obtain ⟨w₁, run₁, found₁⟩ := map_eq_some_iff.mp described
  obtain ⟨w₂, run₂, found₂⟩ := map_eq_some_iff.mp disconnected
  obtain ⟨bound, unbound⟩ := Prod.mk.inj found
  obtain ⟨own, absent⟩ := Prod.mk.inj found₁
  obtain ⟨bound₂, gone⟩ := Prod.mk.inj found₂
  refine ⟨w, w₁, w₂, ⟨reachable_of_perform _ run, ?_, bound, unbound⟩,
    ⟨reachable_of_perform _ run₁, ?_, own, absent⟩, ⟨reachable_of_perform _ run₂, ?_, bound₂, gone⟩⟩
  · intro consistent
    have linked := (consistent.linked _ _).mp bound
    rw [unbound] at linked
    cases linked
  · intro consistent
    have registered := (consistent.registered (sampleSession 1)).mp own
    rw [absent] at registered
    cases registered
  · intro consistent
    have linked := (consistent.linked _ _).mp bound₂
    rw [Core.boundSession, gone] at linked
    cases linked

end Pipelines

end Oac
