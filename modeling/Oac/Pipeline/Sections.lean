import Oac.Pipeline.Steps
import Oac.PresenceProofs

/-! What one step of the pipelines does to attachments, sessions and own sessions. Every property of
these tables is shown over the few kinds of critical section here, not over the frames. -/

namespace Oac

/-- Two cores with the same attachments, connections and sessions. -/
structure Core.SameBindings (c c' : Core) : Prop where
  attachments : c'.attachments = c.attachments
  connections : c'.connections = c.connections
  sessions : c'.sessions = c.sessions
  subscriptions : c'.subscriptions = c.subscriptions
  ownSessions : c'.engine.ownSessions = c.engine.ownSessions
  own : c'.registry.own = c.registry.own

theorem Core.SameBindings.refl (c : Core) : c.SameBindings c := ⟨rfl, rfl, rfl, rfl, rfl, rfl⟩

/-- The frame a step runs, with what it takes from outside. -/
def Label.frame (label : Label) (w : Pipelines) : Option (TurnFrame × Ext) :=
  match label with
  | .run i x =>
    match w.threads[i]? with
    | some (action :: _) => some (.plain action, x)
    | _ => none
  | .turn x =>
    match w.turn with
    | some ⟨action :: _, _⟩ => some (action, x)
    | _ => none
  | _ => none

def Label.runs : Label → Bool
  | .run _ _ | .turn _ => true
  | _ => false

theorem Label.frame_aside {label : Label} (aside : label.runs = false) : label.frame w = none := by
  cases label with
  | run | turn => cases aside
  | _ => rfl

/-- An event that says nothing about withholding or bindings. -/
def PipelineEvent.quiet : PipelineEvent → Bool
  | .noted _ _ | .stopped _ _ | .bound _ _ _ | .unbound _ _ _ => false
  | .reported _ _ _ | .paired _ _ _ _ | .told _ _ => true

variable (label : Label) (w : Pipelines) (a : Attachment) (e : AttachmentEntry) (seq : Nat) in
/-- Which step stops an attachment with entry `e`, and the core it finds. -/
inductive Stops : Core → Prop
  | reported (now clock) (label_ : label = .reportLocal e.adapter (.attachmentUnconfirmed a) now clock) :
      Stops (w.locked clock).core
  | unconfirmed (x : Ext) (frame : label.frame w = some (.plain (.stopUnconfirmed e.adapter a), x)) :
      Stops (w.locked x.now).core
  | dropped (x : Ext) (frame : label.frame w = some (.plain (.withhold a seq), x))
      (counts : Core.ignoresDrop e seq = false) : Stops (w.locked x.now).core

variable [Libraries] (p : PipelineSetup) (label : Label) (w : Pipelines) in
/-- What one step may do to the tables: the core it found, the core it left, what it logged and the
handles given after it. -/
inductive Section : Core → Core → List PipelineEvent → List Attachment → Prop
  | quiet {c c' : Core} (same : c.SameBindings c') (silent : ∀ event ∈ events, event.quiet = true) :
      Section c c' events w.given
  | connected {c : Core} (a adapter observation carrier) (fresh : a ∉ w.given) :
      Section c (c.connectDesignated a adapter observation carrier) [] (a :: w.given)
  | opened {c : Core} (adapter a crossCheck) (connected : c.connections.lookup a = some adapter)
      (absent : c.attachments.lookup a = none) :
      Section c { c with attachments := c.attachments.insert a (.opened adapter crossCheck) } [] w.given
  | closed {c : Core} (a) : Section c (c.markClosed a) [] w.given
  | noted {c : Core} (a seq kept) :
      Section c { c.modifyEntry a (Core.notedBy seq) with held := kept } [.noted a seq] w.given
  | stopped {c : Core} (a e seq next) (held : c.attachments.lookup a = some e)
      (stops : Stops label w a e seq c) :
      Section c { c with
        nextSignalSeq := next
        attachments := c.attachments.insert a (Core.stoppedBy e seq) } [.stopped a seq] w.given
  | released {c : Core} (x a e seq) (frame : label.frame w = some (.releaseWithheld a seq, x))
      (held : c.attachments.lookup a = some e) (answered : answers e.withheldBy (some seq) = true) :
      Section c { c with attachments := c.attachments.insert a (Core.releasedEntry e) } [] w.given
  | forgot (x a) (frame : label.frame w = some (.plain (.forgetConnection a), x)) :
      Section (w.locked x.now).core ((w.locked x.now).core.forgetConnection a) [] w.given
  | unbound (x a session origin) (frame : label.frame w = some (.plain (.unbindWrite a session origin), x)) :
      Section (w.locked x.now).core ((w.locked x.now).core.unbind a session x.now)
        [.unbound a session origin] w.given
  | bound (x a record descriptor seq entry c')
      (frame : label.frame w = some (.bindRecord a record descriptor seq, x))
      (made : (w.locked x.now).core.bindRecord p.identity a record descriptor seq = (c', .ok entry)) :
      Section (w.locked x.now).core c' [.bound a record.sessionId seq] w.given
  | described (x session updated)
      (frame : label.frame w = some (.plain (.capabilitiesWrite session updated), x)) :
      Section (w.locked x.now).core { (w.locked x.now).core with
        registry := (w.locked x.now).core.registry.registerOwn updated.1 } [] w.given

namespace Core

/-! Sections that leave the tables as they were. -/

variable (c : Core) (config : PipelineConfig)

theorem expireHeld_same (now : Instant) : c.SameBindings (c.expireHeld config now).1 :=
  ⟨rfl, rfl, rfl, rfl, rfl, rfl⟩

theorem takeHeld_same (seq : Nat) : c.SameBindings (c.takeHeld seq).1 := by
  fun_cases takeHeld c seq <;> exact ⟨rfl, rfl, rfl, rfl, rfl, rfl⟩

theorem popSignal_same : c.SameBindings c.popSignal.1 := by
  fun_cases popSignal c <;> exact ⟨rfl, rfl, rfl, rfl, rfl, rfl⟩

theorem takePending_same (seq : Nat) : c.SameBindings (c.takePending seq).1 := by
  fun_cases takePending c seq <;> exact ⟨rfl, rfl, rfl, rfl, rfl, rfl⟩

theorem enqueue_same (q : QueuedSignal) : c.SameBindings (c.enqueue config q).1 := by
  fun_cases enqueue c config q
  · exact ⟨rfl, rfl, rfl, rfl, rfl, rfl⟩
  · next victim _ _ _ taken =>
    have same := c.takePending_same victim
    rw [taken] at same
    obtain ⟨attachments, connections, sessions, subscriptions, ownSessions, own⟩ := same
    exact ⟨attachments, connections, sessions, subscriptions, ownSessions, own⟩
  · exact .refl c

theorem queueSignal_same (adapter : AdapterId) (signal : NativeSignal) (now : Instant) :
    c.SameBindings (c.queueSignal config adapter signal now).1 := by
  unfold queueSignal
  simp only
  split
  · exact ⟨rfl, rfl, rfl, rfl, rfl, rfl⟩
  · obtain ⟨attachments, connections, sessions, subscriptions, ownSessions, own⟩ :=
      (c.numberSignal adapter signal now).1.enqueue_same config (c.numberSignal adapter signal now).2
    exact ⟨attachments, connections, sessions, subscriptions, ownSessions, own⟩

theorem releaseWithheld_cases (a : Attachment) (seq : Nat) :
    c.releaseWithheld a seq = (c, none) ∨ ∃ e, c.attachments.lookup a = some e ∧
      answers e.withheldBy (some seq) = true ∧ c.releaseWithheld a seq =
        ({ c with attachments := c.attachments.insert a (releasedEntry e) },
          if e.withheld then e.session else none) := by
  fun_cases releaseWithheld c a seq
  · exact .inl rfl
  · exact .inl rfl
  · next e held answered => exact .inr ⟨e, held, by simpa using answered, rfl⟩

theorem pairingValueFor_same (closedHandles : List Attachment) (adapter : AdapterId)
    (a : Attachment) (now : Instant) (fresh : Option String) :
    c.SameBindings (c.pairingValueFor closedHandles adapter a now fresh) := by
  fun_cases pairingValueFor c closedHandles adapter a now fresh <;> exact ⟨rfl, rfl, rfl, rfl, rfl, rfl⟩

end Core

namespace Pipelines

section

variable (w : Pipelines) (now : Timestamp)

@[simp] theorem locked_given : (w.locked now).given = w.given := rfl

@[simp] theorem locked_turn : (w.locked now).turn = w.turn := rfl

@[simp] theorem locked_threads : (w.locked now).threads = w.threads := rfl

@[simp] theorem locked_log : (w.locked now).log = w.log := rfl

end

/-- The core a step finds: as it stands, or with every pending closure applied. -/
inductive Finds (w : Pipelines) : Core → Prop
  | unlocked : Finds w w.core
  | locked (now : Timestamp) : Finds w (w.locked now).core

variable [Libraries] {p : PipelineSetup} {label : Label} {w w' : Pipelines} {c : Core} {x : Ext}

def Explained (p : PipelineSetup) (label : Label) (w w' : Pipelines) : Prop :=
  ∃ c events, Finds w c ∧ Section p label w c w'.core events w'.given ∧ w'.log = events ++ w.log

theorem Explained.of_section (finds : Finds w c)
    (section_ : Section p label w c w'.core events w'.given) (log : w'.log = events ++ w.log) :
    Explained p label w w' := ⟨c, events, finds, section_, log⟩

theorem Explained.logs (finds : Finds w c) (same : c.SameBindings w'.core) (given : w'.given = w.given)
    (event : PipelineEvent) (silent : event.quiet = true) (log : w'.log = event :: w.log) :
    Explained p label w w' :=
  ⟨c, [event], finds, given ▸ .quiet same (by simpa using silent), log⟩

theorem Explained.quiet (finds : Finds w c) (same : c.SameBindings w'.core)
    (given : w'.given = w.given) (log : w'.log = w.log) : Explained p label w w' :=
  ⟨c, [], finds, given ▸ .quiet same (by simp), log⟩

section

variable (now : Timestamp) (adapter : AdapterId) (a : Attachment) (crossCheck : Option String)

theorem Explained.reads : Explained p label w (w.locked now) :=
  .quiet (.locked now) (.refl _) rfl rfl

theorem Explained.untouched (core : w'.core = w.core) (given : w'.given = w.given)
    (log : w'.log = w.log) : Explained p label w w' :=
  .quiet .unlocked (core ▸ .refl _) given log

theorem attachmentOpened_explained :
    Explained p label w (w.update now (·.attachmentOpened adapter a crossCheck)) := by
  by_cases fresh : (w.locked now).core.connections.lookup a = some adapter ∧
      ((w.locked now).core.attachments.lookup a).isNone
  · refine ⟨_, [], .locked now, ?_, rfl⟩
    simp only [update, Core.attachmentOpened, if_pos fresh]
    exact .opened adapter a crossCheck fresh.1 (Option.isNone_iff_eq_none.mp fresh.2)
  · refine .quiet (.locked now) ?_ rfl rfl
    simp only [update, Core.attachmentOpened, if_neg fresh]
    exact .refl _

theorem stopUnconfirmed_explained
    (stops : ∀ e : AttachmentEntry, e.adapter = adapter → ∀ seq, Stops label w a e seq (w.locked now).core) :
    Explained p label w (w.stopUnconfirmed now adapter a).1 := by
  cases found : ((w.locked now).core.attachments.lookup a).filter (·.adapter == adapter) with
  | none =>
    refine .quiet (.locked now) ?_ rfl ?_
    · simp only [stopUnconfirmed, Core.stopUnconfirmed, found, noteAll]
      exact .refl _
    · simp [stopUnconfirmed, Core.stopUnconfirmed, found, noteAll]
  | some e =>
    obtain ⟨held, same⟩ := Option.filter_eq_some_iff.mp found
    refine ⟨_, [.stopped a (w.locked now).core.nextSignalSeq], .locked now, ?_, ?_⟩
    · simp only [stopUnconfirmed, Core.stopUnconfirmed, found, noteAll]
      exact .stopped a e _ _ held (stops e (by simpa using same) _)
    · simp [stopUnconfirmed, Core.stopUnconfirmed, found, noteAll]

theorem queueSignal_explained (config : PipelineConfig) (clock : Timestamp) (adapter : AdapterId)
    (signal : NativeSignal) (now : Instant) :
    Explained p label w (w.queueSignal config clock adapter signal now).1 :=
  .logs (.locked clock) ((w.locked clock).core.queueSignal_same config adapter signal now) rfl
    (.reported adapter _ _) rfl rfl

theorem perform_explained (action : Frame) (frame : label.frame w = some (.plain action, x)) :
    Explained p label w (w.perform p x action).1 := by
  cases action with
  | lockOnly => exact .reads x.now
  | attachmentOpened adapter a crossCheck => exact attachmentOpened_explained x.now adapter a crossCheck
  | noteRepair => exact .untouched rfl rfl rfl
  | attachmentClosed adapter a => exact .reads x.now
  | markClosed a => exact .of_section (.locked x.now) (.closed a) rfl
  | unbindRead a origin => exact .reads x.now
  | unbindWrite a session origin => exact .of_section (.locked x.now) (.unbound x a session origin frame) rfl
  | setUnbound a => exact .logs .unlocked (.refl _) rfl (.told a none) rfl rfl
  | forgetConnection a => exact .of_section (.locked x.now) (.forgot x a frame) rfl
  | unbindAll | capabilitiesRead => exact .reads x.now
  | capabilitiesAsk a session descriptor limit => exact .untouched rfl rfl rfl
  | capabilitiesWrite session updated =>
    exact .of_section (.locked x.now) (.described x session updated frame) rfl
  | stopUnconfirmed adapter a =>
    exact stopUnconfirmed_explained x.now adapter a fun e same _ => .unconfirmed x (same ▸ frame)
  | queueSignal adapter signal now => exact queueSignal_explained _ _ _ _ _
  | withhold a seq =>
    cases held : (w.locked x.now).core.attachments.lookup a with
    | none =>
      simp only [perform, Core.withhold, held]
      exact .reads x.now
    | some e =>
      cases ignored : Core.ignoresDrop e seq with
      | true =>
        simp only [perform, Core.withhold, held, ignored, if_true]
        exact .reads x.now
      | false =>
        simp only [perform, Core.withhold, held, ignored]
        exact .of_section (.locked x.now) (.stopped a e seq _ held (.dropped x frame ignored)) rfl
  | drainBinding =>
    simp only [perform]
    split
    · exact .untouched rfl rfl rfl
    · exact .untouched rfl rfl rfl
  | drainMore => exact .reads x.now
  | request adapter a now =>
    simp only [perform]
    split
    · exact .reads x.now
    · exact .quiet (.locked x.now) (Core.pairingValueFor_same _ _ _ _ _ _) rfl rfl
  | handOff msg => exact .reads x.now
  | recordHandOff adapter a msg =>
    refine .quiet (.locked x.now) ⟨rfl, rfl, rfl, rfl, ?_, rfl⟩ rfl rfl
    exact AuthorizationEngine.recordHandoff_own _ _ _ _
  | deliver | delivered => exact .untouched rfl rfl rfl
  | forgetHandOff record => exact .quiet (.locked x.now) ⟨rfl, rfl, rfl, rfl, rfl, rfl⟩ rfl rfl

theorem performTurn_explained (frame : label.frame w = some (action, x))
    (performed : w.performTurn p x action = some left) : Explained p label w left.1 := by
  revert performed
  fun_cases performTurn p x w action <;> rintro ⟨⟩
  all_goals try exact .reads x.now
  all_goals try exact .untouched rfl rfl rfl
  · next action _ _ made => simpa only [made] using perform_explained (p := p) action frame
  · next expired =>
    cases expired
    exact .quiet (.locked x.now) (Core.expireHeld_same _ _ _) rfl rfl
  · next seq _ _ h attempt taken _ _ =>
    have kept := (w.locked x.now).core.takeHeld_same seq
    rw [taken] at kept
    cases attempt with
    | paired a => exact .logs (.locked x.now) kept rfl (.paired h.adapter (some h.key) a seq) rfl rfl
    | notYet | unpairable | rejected | conflict => exact .quiet (.locked x.now) kept rfl rfl
  · next taken =>
    have kept := (w.locked x.now).core.popSignal_same
    rw [taken] at kept
    exact .quiet (.locked x.now) kept rfl rfl
  · next q _ _ a _ _ => exact .logs (.locked x.now) (.refl _) rfl (.paired q.adapter q.key a q.seq) rfl rfl
  · exact .quiet (.locked x.now) ⟨rfl, rfl, rfl, rfl, rfl, rfl⟩ rfl rfl
  · exact .quiet (.locked x.now) ⟨rfl, rfl, rfl, rfl, rfl, rfl⟩ rfl rfl
  · next adapter _ a seq =>
    refine ⟨_, [.noted a seq], .locked x.now, ?_, rfl⟩
    simp only [update, note, Core.supersede]
    split
    · exact .noted a seq _
    · exact .noted a seq _
  · next a record descriptor seq _ core entry made =>
    exact .of_section (.locked x.now) (.bound x a record descriptor seq entry core frame made) rfl
  · next a session => exact .logs .unlocked (.refl _) rfl (.told a (some session)) rfl rfl
  all_goals
    next taken =>
    rcases (w.locked x.now).core.releaseWithheld_cases _ _ with same | ⟨e, held, answered, same⟩
    · obtain ⟨rfl, -⟩ := Prod.mk.inj (same.symm.trans taken)
      exact .reads x.now
    · obtain ⟨rfl, -⟩ := Prod.mk.inj (same.symm.trans taken)
      exact .of_section (.locked x.now) (.released x _ e _ frame held answered) rfl

theorem reportLocal_explained (now : Instant) (clock : Timestamp) (event : AdapterEvent)
    (reported : label = .reportLocal adapter event now clock) :
    Explained p label w (w.reportLocal p adapter now clock event) := by
  cases event with
  | attachmentClosed a =>
    simp only [reportLocal]
    split
    · exact .untouched rfl rfl rfl
    · exact .untouched rfl rfl rfl
  | attachmentOpened a crossCheck =>
    have explained : Explained p label w (w.update clock (·.attachmentOpened adapter a crossCheck)) :=
      attachmentOpened_explained clock adapter a crossCheck
    exact explained
  | attachmentUnconfirmed a =>
    have explained : Explained p label w (w.stopUnconfirmed clock adapter a).1 :=
      stopUnconfirmed_explained clock adapter a fun e same _ => .reported now clock (same ▸ reported)
    exact explained
  | nativeSignal signal =>
    have explained : Explained p label w (w.queueSignal p.config clock adapter signal now).1 :=
      queueSignal_explained p.config clock adapter signal now
    exact explained
  | capabilitiesChanged a => exact .reads clock

end

def spawned (p : PipelineSetup) (w : Pipelines) : Label → List Frame
  | .report adapter event now => onAdapterEvent adapter now event
  | .reportLocal adapter event now clock =>
    match event with
    | .attachmentClosed _ => [.lockOnly]
    | .attachmentUnconfirmed a => finishUnconfirmed a (w.stopUnconfirmed clock adapter a).2
    | .nativeSignal signal => afterQueuedSignal (w.queueSignal p.config clock adapter signal now).2
    | event => onAdapterEvent adapter now event
  | .unbind a => unbindFrames a none
  | .disconnect a => endConnection a
  | .expireSignals => [.drainBinding]
  | .request adapter a now => [.request adapter a now]
  | .handOff msg => [.handOff msg]
  | .shutdown => [.lockOnly, .unbindAll]
  | .releaseTurn => w.turn.elim [] (·.after)
  | _ => []

variable (p : PipelineSetup) (w : Pipelines) in
/-- What a step comes to: it starts a thread, leaves all bindings alone, or is one of the guarded
steps with what it requires. -/
inductive Stepped : Label → Pipelines → Prop
  | spawns {label : Label} (aside : label.runs = false) : Stepped label (w.spawn (spawned p w label))
  | updates {label : Label} (now adapters) (engine : AuthorizationEngine)
      (registry : PresenceRegistry) (aside : label.runs = false)
      (ownSessions : engine.ownSessions = (w.locked now).core.engine.ownSessions)
      (own : registry.own = (w.locked now).core.registry.own) :
      Stepped label (w.update now ({ · with adapters := adapters, engine := engine, registry := registry }))
  | connected (fresh : a ∉ w.given) : Stepped (.connect a adapter observation carrier now) { w.locked now with
      core := (w.locked now).core.connectDesignated a adapter observation carrier
      closures := { (w.locked now).closures with
        connections := (w.locked now).closures.connections.insert a adapter }
      given := a :: w.given }
  | closed (a : Attachment) : Stepped (.closeHandle a) { w with closedHandles := a :: w.closedHandles }
  | reported : Stepped (.reportLocal adapter event now clock) (w.reportLocal p adapter now clock event)
  | binds (free : w.turn = none) : Stepped (.bind a record displayName)
      { w with turn := some ⟨[.bindCheck a record displayName none], [.drainBinding]⟩ }
  | ran {x : Ext} (running : w.threads[i]? = some (action :: rest)) : Stepped (.run i x)
      { (w.perform p x action).1 with
      threads := Threads.advance (w.perform p x action).1.threads i (w.perform p x action).2 rest }
  | turned {x : Ext} (holding : w.turn = some ⟨action :: rest, after⟩)
      (performed : w.performTurn p x action = some (w₁, frames)) :
      Stepped (.turn x) { w₁ with turn := some ⟨frames ++ rest, after⟩ }
  | released (holding : w.turn = some ⟨[], after⟩) : Stepped .releaseTurn ({ w with turn := none }.spawn after)

theorem step_stepped (stepped : step p label w = some w') : Stepped p w label w' := by
  cases label with
  | report | unbind | disconnect | expireSignals | request | handOff | shutdown =>
    cases stepped
    exact .spawns rfl
  | addAdapter now | lockOnly now =>
    cases stepped
    exact .updates now _ (w.locked now).core.engine (w.locked now).core.registry rfl rfl rfl
  | registry op now =>
    cases stepped
    exact .updates now (w.locked now).core.adapters _ _ rfl rfl (PresenceRegistry.after_own _ op)
  | engine op now =>
    simp only [step] at stepped
    split at stepped
    · next keeps =>
      cases stepped
      exact .updates now (w.locked now).core.adapters _ _ rfl (AuthorizationEngine.after_own _ op keeps) rfl
    · cases stepped
  | connect a adapter observation carrier now =>
    simp only [step, connect] at stepped
    split at stepped
    · cases stepped
    · next admitted =>
      cases stepped
      exact .connected fun known => admitted (.inl known)
  | closeHandle a =>
    cases stepped
    exact .closed a
  | reportLocal =>
    cases stepped
    exact .reported
  | bind =>
    simp only [step] at stepped
    split at stepped
    · cases stepped
    · next free =>
      cases stepped
      exact .binds free
  | run =>
    simp only [step] at stepped
    split at stepped
    · next running =>
      cases stepped
      exact .ran running
    · cases stepped
  | turn =>
    simp only [step] at stepped
    split at stepped
    · next holding =>
      obtain ⟨⟨w₁, frames⟩, performed, rfl⟩ := Option.map_eq_some_iff.mp stepped
      exact .turned holding performed
    · cases stepped
  | releaseTurn =>
    simp only [step] at stepped
    split at stepped
    · next holding =>
      cases stepped
      exact .released holding
    · cases stepped

/-- Every step is one of the sections. -/
theorem step_explained (stepped : step p label w = some w') : Explained p label w w' := by
  cases step_stepped stepped with
  | spawns | closed | binds | released => exact .untouched rfl rfl rfl
  | updates now adapters engine registry aside ownSessions own =>
    exact .quiet (.locked now) ⟨rfl, rfl, rfl, rfl, ownSessions, own⟩ rfl rfl
  | connected fresh => exact .of_section (.locked _) (.connected _ _ _ _ fresh) rfl
  | reported => exact reportLocal_explained _ _ _ _ rfl
  | @ran i action rest x running =>
    have frame : (Label.run i x).frame w = some (.plain action, x) := by simp [Label.frame, running]
    obtain ⟨c, events, finds, section_, log⟩ := perform_explained action frame
    exact ⟨c, events, finds, section_, log⟩
  | @turned action rest after w₁ frames x holding performed =>
    have frame : (Label.turn x).frame w = some (action, x) := by simp [Label.frame, holding]
    obtain ⟨c, events, finds, section_, log⟩ := performTurn_explained frame performed
    exact ⟨c, events, finds, section_, log⟩

/-- A property of the tables, the handles given and the log that every closure and every section
keeps is kept by every step. -/
theorem step_keeps {I : List Attachment → List PipelineEvent → Core → Prop}
    (closures : ∀ c a adapter now, I w.given w.log c → I w.given w.log (c.applyClosure a adapter now))
    (sections : ∀ c c' events given, Finds w c → Section p label w c c' events given →
      I w.given w.log c → I given (events ++ w.log) c')
    (stepped : step p label w = some w') (held : I w.given w.log w.core) : I w'.given w'.log w'.core := by
  have applied : ∀ (pending : List (Sigma fun _ : Attachment => AdapterId)) now (c : Core), I w.given w.log c →
      I w.given w.log (pending.foldl (fun c e => c.applyClosure e.1 e.2 now) c) := by
    intro pending now
    induction pending with
    | nil => exact fun c held => held
    | cons e rest ih => exact fun c held => ih _ (closures c e.1 e.2 now held)
  obtain ⟨c, events, finds, section_, log⟩ := step_explained stepped
  rw [log]
  refine sections c _ events _ finds section_ ?_
  cases finds with
  | unlocked => exact held
  | locked now => exact applied _ now _ held

end Pipelines

end Oac
