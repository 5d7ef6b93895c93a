import Oac.Pipeline.Consistency

/-! The presence of own sessions. The registry keeps a flag for an own session whose delivery is
withheld, and shows the session unreachable while it is set. The pipelines keep withholding in the
attachment's entry alone and never set the flag, so an own session is always online in the registry,
and this is right only while no bound attachment is withheld. -/

namespace Oac

/-- The state of an own session in the status snapshot. -/
inductive SessionState where
  | online
  | withheld
  deriving DecidableEq

namespace Core

def sessionState (c : Core) (session : SessionId) : Option SessionState :=
  (c.registry.own.lookup session).map fun o => if o.withheld then .withheld else .online

def Unflagged (c : Core) : Prop := ∀ s o, c.registry.own.lookup s = some o → o.withheld = false

def Served (c : Core) : Prop := ∀ a e, c.attachments.lookup a = some e → e.withheld = false

variable {c c' : Core}

theorem Unflagged.online (unflagged : c.Unflagged) (own : c.registry.isOwn s = true)
    (now : Instant) : c.registry.state s now = .online ∧ c.sessionState s = some .online := by
  obtain ⟨o, held⟩ := Option.isSome_iff_exists.mp own
  have clear := unflagged s o held
  simp [PresenceRegistry.state, sessionState, held, clear]

theorem Unflagged.endSession (unflagged : c.Unflagged) (session : SessionId) (now : Timestamp) :
    (c.endSession session now).Unflagged := by
  intro s o held
  have kept := c.registry.deregisterOwn_own session s
  simp only [Core.endSession] at held
  rw [kept] at held
  split at held
  · cases held
  · exact unflagged s o held

theorem Unflagged.registerOwn (unflagged : c.Unflagged) (d : SessionDescriptor)
    (held : (c.registry.registerOwn d).own.lookup s = some o) : o.withheld = false := by
  rw [PresenceRegistry.registerOwn_own] at held
  split at held
  · cases held
    cases before : c.registry.own.lookup d.sessionId with
    | none => rfl
    | some o => exact unflagged _ o before
  · exact unflagged s o held

theorem Unflagged.applyClosure (unflagged : c.Unflagged) (a : Attachment)
    (adapter : AdapterId) (now : Timestamp) : (c.applyClosure a adapter now).Unflagged := by
  have forgot : (c.forgetConnection a).Unflagged := unflagged
  fun_cases Core.applyClosure
  · exact unflagged
  · exact forgot.endSession _ now
  · exact forgot

theorem Served.applyClosure (served : c.Served) (a : Attachment) (adapter : AdapterId)
    (now : Timestamp) : (c.applyClosure a adapter now).Served := by
  have forgot : (c.forgetConnection a).Served := by
    intro b e held
    simp only [forgetConnection, Table.lookup_erase_if] at held
    split at held
    · cases held
    · exact served b e held
  fun_cases Core.applyClosure
  · exact served
  · exact forgot
  · exact forgot

theorem Served.insert (served : c.Served) (free : e.withheld = false)
    (entries : c'.attachments = c.attachments.insert a e) : c'.Served := by
  intro b e' held
  rw [entries, Table.lookup_insert_if] at held
  split at held
  · cases held
    exact free
  · exact served b e' held

theorem Served.modify (served : c.Served) (free : ∀ e, e.withheld = false → (f e).withheld = false)
    (entries : c'.attachments = Table.modify a f c.attachments) : c'.Served := by
  intro b e' held
  rw [entries, Table.lookup_modify_if] at held
  split at held
  · obtain ⟨e, before, rfl⟩ := Option.map_eq_some_iff.mp held
    exact free e (served a e before)
  · exact served b e' held

/-- A report from `adapter` that it cannot confirm the attachment has no binding to stop. -/
def stopsNothing (c : Core) (adapter : AdapterId) (a : Attachment) : Bool :=
  (c.attachments.lookup a).all fun e => e.adapter != adapter || e.session.isNone

end Core

/-- No step withholds a bound attachment: a dropped signal or an unconfirmed attachment finds no
binding, and a bind finds no arrival number unanswered. -/
def Label.withholdsNothing (label : Label) (w : Pipelines) : Bool :=
  (match label with
    | .reportLocal adapter (.attachmentUnconfirmed a) _ clock => (w.locked clock).core.stopsNothing adapter a
    | _ => true) &&
  (match label.frame w with
    | some (.plain (.stopUnconfirmed adapter a), x) => (w.locked x.now).core.stopsNothing adapter a
    | some (.plain (.withhold a seq), x) =>
      ((w.locked x.now).core.attachments.lookup a).all fun e => e.session.isNone || Core.ignoresDrop e seq
    | some (.bindRecord a _ _ seq, x) =>
      ((w.locked x.now).core.attachments.lookup a).all fun e => answers e.withheldBy seq
    | _ => true)

namespace Pipelines

variable {p : PipelineSetup} {label : Label} {w w' : Pipelines} {c c' : Core}

theorem stops_unbound (nothing : label.withholdsNothing w = true) (entered : c.attachments.lookup a = some e)
    (stops : Stops label w a e seq c) : e.session = none := by
  obtain ⟨onReport, onFrame⟩ := (Bool.and_eq_true _ _).mp nothing
  cases stops with
  | reported now clock label_ =>
    subst label_
    simpa [Core.stopsNothing, entered] using onReport
  | unconfirmed x frame => simpa [frame, Core.stopsNothing, entered] using onFrame
  | dropped x frame counts => simpa [frame, entered, counts] using onFrame

section Runs

variable [Libraries] {given : List Attachment}

theorem section_unflagged (section_ : Section p label w c c' events given)
    (unflagged : c.Unflagged) : c'.Unflagged := by
  cases section_ with
  | quiet same silent =>
    intro s o held
    exact unflagged s o (same.own ▸ held)
  | connected | opened | closed | noted | stopped | released | forgot => exact unflagged
  | unbound x a session => exact Core.Unflagged.endSession unflagged session x.now
  | bound x a record descriptor _ _ _ _ made =>
    obtain ⟨e, engine, _, _, _, _, _, rfl, rfl⟩ := Core.bindRecord_eq_ok made
    exact fun s o held => unflagged.registerOwn descriptor.1 held
  | described x session updated => exact fun s o held => unflagged.registerOwn updated.1 held

theorem step_unflagged (stepped : step p label w = some w') (unflagged : w.core.Unflagged) :
    w'.core.Unflagged := by
  refine step_keeps (I := fun _ _ c => c.Unflagged) ?_ ?_ stepped unflagged
  · exact fun c a adapter now held => held.applyClosure a adapter now
  · exact fun c c' events given _ section_ held => section_unflagged section_ held

theorem section_served (nothing : label.withholdsNothing w = true)
    (section_ : Section p label w c c' events given) (served : c.Served) : c'.Served := by
  cases section_ with
  | quiet same silent =>
    intro a e held
    exact served a e (same.attachments ▸ held)
  | connected | described => exact served
  | closed => exact served.modify (f := fun e => { e with isOpen := false }) (fun _ free => free) rfl
  | noted a seq => exact served.modify (f := Core.notedBy seq) (fun _ free => free) rfl
  | stopped a e seq next entered stops =>
    have unbound := stops_unbound nothing entered stops
    refine served.insert ?_ rfl
    simp [Core.stoppedBy, unbound, served a e entered]
  | opened | released => exact served.insert rfl rfl
  | forgot x a frame =>
    intro b e held
    simp only [Core.forgetConnection, Table.lookup_erase_if] at held
    split at held
    · cases held
    · exact served b e held
  | unbound => exact served.modify (fun _ _ => rfl) rfl
  | bound x a record descriptor seq entry c' frame made =>
    obtain ⟨e, engine, entered, _, _, _, _, rfl, rfl⟩ := Core.bindRecord_eq_ok made
    have answered : answers e.withheldBy seq = true := by
      have onFrame := ((Bool.and_eq_true _ _).mp nothing).2
      simpa [frame, entered] using onFrame
    exact served.insert (by simp [Core.boundEntry, answered]) rfl

/-- In every run whose steps withhold no bound attachment, an own session bound to an attachment is
online, in the registry and in the status, exactly when the attachment is not withheld. -/
theorem withheld_not_online (reachable : Reachable p (fun label w => label.withholdsNothing w = true) w) :
    ∀ a e s now, w.core.attachments.lookup a = some e → e.session = some s → w.core.registry.isOwn s = true →
      (w.core.registry.state s now = .online ↔ e.withheld = false) ∧
        (w.core.sessionState s = some .online ↔ e.withheld = false) := by
  have kept : w.core.Unflagged ∧ w.core.Served := by
    refine reachable.invariant (P := fun w => w.core.Unflagged ∧ w.core.Served) ?_ ?_
    · intro engine caps noOwn
      constructor
      · intro s o held
        cases held
      · intro a e held
        cases held
    · rintro label w w' nothing stepped ⟨unflagged, served⟩
      refine ⟨step_unflagged stepped unflagged, ?_⟩
      refine step_keeps (I := fun _ _ c => c.Served) ?_ ?_ stepped served
      · exact fun c a adapter now held => held.applyClosure a adapter now
      · exact fun c c' events given _ section_ held => section_served nothing section_ held
  intro a e s now entered _ own
  obtain ⟨online, status⟩ := kept.1.online own now
  have free := kept.2 a e entered
  exact ⟨iff_of_true online free, iff_of_true status free⟩

end Runs

open AuthorizationEngine

theorem withheld_not_online_sample : ∃ (w : Pipelines) (e : AttachmentEntry),
    w.core.attachments.lookup 7 = some e ∧ e.session = some (sampleSession 1) ∧
      (w.core.registry.state (sampleSession 1) 0 = .online ↔ e.withheld = false) := by
  have performed : (Transition.performWithin sampleStep (fun label w => label.withholdsNothing w = true)
      (sampleConnect ++ [sampleOpened] ++ sampleBind 1) samplePipelines).map
      (fun w => ((w.core.attachments.lookup 7).map (·.session), w.core.registry.isOwn (sampleSession 1))) =
      some (some (some (sampleSession 1)), true) := by
    decide +kernel
  obtain ⟨w, run, found⟩ := Option.map_eq_some_iff.mp performed
  obtain ⟨session, own⟩ := Prod.mk.inj found
  obtain ⟨e, entered, bound⟩ := Option.map_eq_some_iff.mp session
  exact ⟨w, e, entered, bound, (@withheld_not_online sampleSetup w sampleLibraries (reachable_of_labels _ run)
    7 e (sampleSession 1) 0 entered bound own).1⟩

/-- A bound attachment that its adapter cannot confirm is withheld, and its session stays online. -/
theorem withheld_but_online : ∃ (w : Pipelines) (e : AttachmentEntry),
    @Reachable sampleLibraries sampleSetup Transition.anyMove w ∧
      w.core.attachments.lookup 7 = some e ∧ e.session = some (sampleSession 1) ∧ e.withheld = true ∧
      w.core.registry.isOwn (sampleSession 1) = true ∧ w.core.registry.state (sampleSession 1) 0 = .online ∧
      w.core.sessionState (sampleSession 1) = some .online := by
  have performed : (Transition.perform sampleStep
      (sampleConnect ++ [sampleOpened] ++ sampleBind 1 ++ [sampleUnconfirmed]) samplePipelines).map
      (fun w => ((w.core.attachments.lookup 7).map fun e => (e.session, e.withheld),
        w.core.registry.isOwn (sampleSession 1), w.core.registry.state (sampleSession 1) 0,
        w.core.sessionState (sampleSession 1))) =
      some (some (some (sampleSession 1), true), true, .online, some .online) := by
    decide +kernel
  obtain ⟨w, run, found⟩ := Option.map_eq_some_iff.mp performed
  obtain ⟨entry, own, online, status⟩ : _ ∧ _ ∧ _ ∧ _ := by simpa only [Prod.mk.injEq] using found
  obtain ⟨e, entered, shown⟩ := Option.map_eq_some_iff.mp entry
  obtain ⟨bound, withheld⟩ := Prod.mk.inj shown
  exact ⟨w, e, reachable_of_perform _ run, entered, bound, withheld, own, online, status⟩

end Pipelines

end Oac
