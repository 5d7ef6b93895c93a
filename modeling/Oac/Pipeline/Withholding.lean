import Oac.Pipeline.Consistency
import Oac.Pipeline.Turns

/-! A withheld attachment is not served. The arrival number that withholds an attachment stays in
its entry until a later signal has paired with it, over every unbind and bind in between; the entry
shows the withholding whenever it has a session. A late `unbind` that ends another binding than the
one it read breaks this, so the attachment of an `unbind` is asked to have no other session by
then. -/

namespace Oac

open Table TurnFrame Option
open List hiding after

/-- The pairing a frame of the turn acts for: the attachment, and the arrival number of the
signal. -/
def TurnFrame.actsFor : TurnFrame → Option (Attachment × Nat)
  | .decide _ _ (.paired a) _ seq | .bindFromSignal a _ seq | .releaseWithheld a seq => some (a, seq)
  | .bindCheck a _ _ (some seq) | .describe a _ _ (some seq) _ | .bindRecord a _ _ (some seq) => some (a, seq)
  | _ => none

/-- The pairing the frame acts for was noted. -/
def TurnFrame.Noted (log : List PipelineEvent) (frame : TurnFrame) : Prop :=
  ∀ a seq, frame.actsFor = some (a, seq) → .noted a seq ∈ log

theorem TurnFrame.noted_of_none {frame : TurnFrame} (free : frame.actsFor = none) : frame.Noted log := by
  intro a seq acts
  rw [free] at acts
  cases acts

theorem TurnFrame.Noted.grow {frame : TurnFrame} (noted : frame.Noted log)
    (events : List PipelineEvent) : frame.Noted (events ++ log) :=
  fun a seq acts => mem_append_right events (noted a seq acts)

theorem actOn_noted (target : ∀ a, action.target = some a → .noted a seq ∈ log) :
    ∀ frame ∈ actOn action seq, frame.Noted log := by
  intro frame added b n acts
  cases action with
  | none => cases added
  | deregister a =>
    obtain ⟨_, _, rfl⟩ := mem_map.mp added
    cases acts
  | bind a nativeId deregisterFirst =>
    rcases mem_append.mp added with first | last
    · split at first
      · obtain ⟨_, _, rfl⟩ := mem_map.mp first
        cases acts
      · cases first
    · cases mem_singleton.mp last
      cases acts
      exact target _ rfl

theorem resolve_actsFor : ∀ frame ∈ resolve adapter signal attempt seq, frame.actsFor = none := by
  intro frame added
  cases attempt with
  | paired a | unpairable bound =>
    cases mem_singleton.mp added
    rfl
  | notYet key | rejected requirement | conflict a => cases added

namespace Pipelines

variable [Libraries] {p : PipelineSetup} {label : Label} {w w' : Pipelines} {x : Ext}

/-- A frame passes the pairing it acts for on; only a pairing that was noted starts one. -/
theorem performTurn_noted {rest frames : List TurnFrame} (holding : w.turn = some ⟨action :: rest, after⟩)
    (performed : w.performTurn p x action = some (w', frames)) (noted : action.Noted w.log) :
    ∀ frame ∈ frames, frame.Noted w'.log := by
  intro frame added
  obtain ⟨events, log⟩ := performTurn_log holding performed
  cases performTurn_leaves performed frame added with
  | plain | expire | drop | list | held | queue | take | again | count | hold | dropQueued | attributes
  | tell | tellAgain => exact noted_of_none rfl
  | resolve resolves | resolveQueued resolves => exact noted_of_none (resolve_actsFor frame resolves)
  | decide | release =>
    cases performed
    intro b n acts
    cases acts
    exact mem_cons_self
  | act target acts =>
    refine actOn_noted ?_ frame acts
    intro a targeted
    cases target a targeted
    rw [log]
    exact noted.grow events a _ rfl
  | record =>
    rw [log]
    exact noted.grow events
  | @describe _ _ _ seq | @register _ _ _ seq =>
    rw [log]
    cases seq with
    | none => exact noted_of_none rfl
    | some seq => exact noted.grow events

theorem turn_noted (stepped : step p label w = some w') (noted : TurnHolds Noted w) :
    TurnHolds Noted w' :=
  noted.step (fun events _ _ held => held.grow events) (fun _ => noted_of_none rfl)
    (fun _ _ _ _ => noted_of_none rfl) (fun _ _ _ _ _ _ => performTurn_noted) stepped

end Pipelines

/-- An attachment that was ever in use: once its entry is gone, so is its connection. -/
structure Core.Used (given : List Attachment) (c : Core) (a : Attachment) : Prop where
  known : a ∈ given
  entered : (c.connections.lookup a).isSome → (c.attachments.lookup a).isSome

/-- What the entries and the log say about withholding. -/
structure Core.Withholding (given : List Attachment) (log : List PipelineEvent) (c : Core) : Prop where
  flagged : ∀ a e, c.attachments.lookup a = some e → e.session.isSome →
    (e.withheld = true ↔ e.withheldBy.isSome)
  owner : ∀ s a e, c.sessions.lookup s = some a → c.attachments.lookup a = some e → e.session = some s
  known : ∀ a, (c.attachments.lookup a).isSome ∨ (c.connections.lookup a).isSome → a ∈ given
  routed : ∀ s a, c.sessions.lookup s = some a → c.Used given a
  used : ∀ a d, .stopped a d ∈ log → c.Used given a
  waiting : ∀ a d e, .stopped a d ∈ log → (∀ n, .noted a n ∈ log → n ≤ d) →
    c.attachments.lookup a = some e → ∃ n, e.withheldBy = some n ∧ d ≤ n

namespace Core

variable {given : List Attachment} {log events : List PipelineEvent} {c c' : Core} {a : Attachment}

section

variable (held : Withholding given log c)

include held

/-- An attachment that a later signal has not paired with is served neither way. -/
theorem Withholding.not_served (stopped : .stopped a d ∈ log)
    (unanswered : ∀ n, .noted a n ∈ log → n ≤ d) : (∀ handles adapter, c.requester handles adapter a = none) ∧
      ∀ to_ adapter, c.handOffTarget to_ ≠ some (adapter, a) := by
  constructor
  · intro handles adapter
    cases found : c.attachments.lookup a with
    | none => simp only [requester, found]
    | some e =>
      obtain ⟨n, by_, _⟩ := held.waiting a d e stopped unanswered found
      cases bound : e.session with
      | none => simp [requester, found, bound]
      | some s =>
        have withheld : e.withheld = true := (held.flagged a e found (by simp [bound])).mpr (by simp [by_])
        simp [requester, found, withheld]
  · intro to_ adapter target
    simp only [handOffTarget, bind_eq_bind, bind_eq_some_iff] at target
    obtain ⟨b, routed, e, found, served⟩ := target
    split at served
    · cases served
    · next free =>
      obtain ⟨_, rfl⟩ := Prod.mk.inj (some.inj served)
      obtain ⟨n, by_, _⟩ := held.waiting b d e stopped unanswered found
      have bound := held.owner to_ b e routed found
      exact free ((held.flagged b e found (by simp [bound])).mpr (by simp [by_]))

/-- A change to the entry of one attachment, and of the sessions to no other. -/
theorem Withholding.change
    (entries : ∀ b, c'.attachments.lookup b = if b = a then (c.attachments.lookup a).map f
      else c.attachments.lookup b)
    (connections : c'.connections = c.connections) (sessions : ∀ s b, c'.sessions.lookup s = some b →
      c.sessions.lookup s = some b ∨ b = a ∧ (c.attachments.lookup a).isSome)
    (owner : ∀ s e, c'.sessions.lookup s = some a → c.attachments.lookup a = some e → (f e).session = some s)
    (flagged : ∀ e, c.attachments.lookup a = some e → (f e).session.isSome →
      ((f e).withheld = true ↔ (f e).withheldBy.isSome))
    (stops : ∀ b d, .stopped b d ∈ events → b = a ∧ (c.attachments.lookup a).isSome)
    (waiting : ∀ d e, c.attachments.lookup a = some e → .stopped a d ∈ events ++ log →
      (∀ n, .noted a n ∈ events ++ log → n ≤ d) → ∃ n, (f e).withheldBy = some n ∧ d ≤ n) :
    Withholding given (events ++ log) c' := by
  have present : ∀ b, (c'.attachments.lookup b).isSome = (c.attachments.lookup b).isSome := by
    intro b
    rw [entries]
    split
    · next same => rw [same, isSome_map]
    · rfl
  have kept : ∀ b, c.Used given b → c'.Used given b := by
    intro b used
    refine ⟨used.known, fun connected => ?_⟩
    rw [present]
    exact used.entered (connections ▸ connected)
  have inUse : (c.attachments.lookup a).isSome → c'.Used given a :=
    fun entered => kept a ⟨held.known a (.inl entered), fun _ => entered⟩
  refine ⟨fun b e found bound => ?_, fun s b e routed found => ?_, fun b known => ?_,
    fun s b routed => ?_, fun b d stopped => ?_, fun b d e stopped unanswered found => ?_⟩
  · rw [entries] at found
    split at found
    · obtain ⟨e, before, rfl⟩ := map_eq_some_iff.mp found
      exact flagged e before bound
    · exact held.flagged b e found bound
  · rw [entries] at found
    split at found
    · next same =>
      subst same
      obtain ⟨e, before, rfl⟩ := map_eq_some_iff.mp found
      exact owner s e routed before
    · next other =>
      rcases sessions s b routed with old | ⟨same, _⟩
      · exact held.owner s b e old found
      · exact absurd same other
  · rw [present, connections] at known
    exact held.known b known
  · rcases sessions s b routed with old | ⟨rfl, entered⟩
    · exact kept b (held.routed s b old)
    · exact inUse entered
  · rcases mem_append.mp stopped with new | old
    · obtain ⟨rfl, entered⟩ := stops b d new
      exact inUse entered
    · exact kept b (held.used b d old)
  · rw [entries] at found
    split at found
    · next same =>
      subst same
      obtain ⟨e, before, rfl⟩ := map_eq_some_iff.mp found
      exact waiting d e before stopped unanswered
    · next other =>
      rcases mem_append.mp stopped with new | old
      · exact absurd (stops b d new).1 other
      · exact held.waiting b d e old (fun n noted => unanswered n (mem_append_right events noted)) found

theorem Withholding.same (attachments : c'.attachments = c.attachments)
    (connections : c'.connections = c.connections) (sessions : c'.sessions = c.sessions)
    (silent : ∀ event ∈ events, event.quiet = true) : Withholding given (events ++ log) c' := by
  have older : ∀ b d, .stopped b d ∈ events ++ log → .stopped b d ∈ log := by
    intro b d stopped
    rcases mem_append.mp stopped with new | old
    · cases silent _ new
    · exact old
  refine ⟨?_, ?_, ?_, ?_, ?_, ?_⟩
  · rw [attachments]
    exact held.flagged
  · rw [attachments, sessions]
    exact held.owner
  · rw [attachments, connections]
    exact held.known
  · intro s b routed
    obtain ⟨known, entered⟩ := held.routed s b (sessions ▸ routed)
    exact ⟨known, by rwa [attachments, connections]⟩
  · intro b d stopped
    obtain ⟨known, entered⟩ := held.used b d (older b d stopped)
    exact ⟨known, by rwa [attachments, connections]⟩
  · intro b d e stopped unanswered found
    rw [attachments] at found
    exact held.waiting b d e (older b d stopped)
      (fun n noted => unanswered n (mem_append_right events noted)) found

theorem Withholding.remove
    (entries : ∀ b, c'.attachments.lookup b = if b = a then none else c.attachments.lookup b)
    (connections : ∀ b, c'.connections.lookup b = if b = a then none else c.connections.lookup b)
    (sessions : ∀ s b, c'.sessions.lookup s = some b → c.sessions.lookup s = some b) :
    Withholding given log c' := by
  have before : ∀ {b e}, c'.attachments.lookup b = some e → c.attachments.lookup b = some e := by
    intro b e found
    rw [entries] at found
    split at found
    · cases found
    · exact found
  have kept : ∀ b, c.Used given b → c'.Used given b := by
    intro b used
    refine ⟨used.known, fun connected => ?_⟩
    rw [connections] at connected
    rw [entries]
    split
    · next same => simp [same] at connected
    · next other => exact used.entered (by rwa [if_neg other] at connected)
  refine ⟨fun b e found bound => held.flagged b e (before found) bound,
    fun s b e routed found => held.owner s b e (sessions s b routed) (before found), fun b known => ?_,
    fun s b routed => kept b (held.routed s b (sessions s b routed)),
    fun b d stopped => kept b (held.used b d stopped),
    fun b d e stopped unanswered found => held.waiting b d e stopped unanswered (before found)⟩
  rw [entries, connections] at known
  split at known
  · simp at known
  · exact held.known b known

theorem Withholding.forgetConnection (a : Attachment) :
    Withholding given log (c.forgetConnection a) :=
  held.remove (a := a) (fun b => lookup_erase_if a b _) (fun b => lookup_erase_if a b _)
    fun _ _ routed => routed

theorem Withholding.applyClosure (a : Attachment) (adapter : AdapterId)
    (now : Timestamp) : Withholding given log (c.applyClosure a adapter now) := by
  fun_cases Core.applyClosure
  · exact held
  · next session bound =>
    refine held.remove (fun b => lookup_erase_if a b _) (fun b => lookup_erase_if a b _) ?_
    intro s b routed
    have kept := lookup_erase_if session s c.sessions
    simp only [endSession, Core.forgetConnection] at routed
    rw [kept] at routed
    split at routed
    · cases routed
    · exact routed
  · exact held.forgetConnection a

/-- The second section of `unbind`, when the attachment has no other session than the one read: the
arrival number that withholds the attachment stays. -/
theorem Withholding.unbind (a : Attachment) (session : SessionId)
    (now : Timestamp) (origin : Option Nat) (current : ∀ s, c.boundSession a = some s → s = session) :
    Withholding given ([.unbound a session origin] ++ log) (c.unbind a session now) := by
  have older : ∀ {s b}, (c.unbind a session now).sessions.lookup s = some b →
      s ≠ session ∧ c.sessions.lookup s = some b := by
    intro s b routed
    have erased := lookup_erase_if session s c.sessions
    simp only [Core.unbind, endSession, modifyEntry] at routed
    rw [erased] at routed
    split at routed
    · cases routed
    · next other => exact ⟨other, routed⟩
  refine held.change (a := a) (f := fun e => { e with session := none, nativeId := none, withheld := false })
    (fun b => ?_) rfl (fun s b routed => .inl (older routed).2) (fun s e routed entered => ?_) ?_ (by simp) ?_
  · simp only [Core.unbind, endSession, modifyEntry, lookup_modify_if]
  · obtain ⟨other, before⟩ := older routed
    have bound := held.owner s a e before entered
    exact absurd (current s (by rw [boundSession, entered, bind_some, bound])) other
  · rintro e _ ⟨⟩
  · intro d e entered stopped unanswered
    exact held.waiting a d e (by simpa using stopped) (fun n noted => unanswered n (by simp [noted])) entered

theorem Withholding.connect (adapter : AdapterId)
    (observation : PeerObservation) (carrier : Bool) (fresh : a ∉ given) :
    Withholding (a :: given) log (c.connectDesignated a adapter observation carrier) := by
  have kept : ∀ b, c.Used given b → (c.connectDesignated a adapter observation carrier).Used (a :: given) b := by
    intro b used
    refine ⟨mem_cons_of_mem a used.known, fun connected => used.entered ?_⟩
    have other : b ≠ a := fun same => fresh (same ▸ used.known)
    simpa only [connectDesignated, lookup_insert_if, if_neg other] using connected
  refine ⟨held.flagged, held.owner, fun b known => ?_, fun s b routed => kept b (held.routed s b routed),
    fun b d stopped => kept b (held.used b d stopped), held.waiting⟩
  by_cases same : b = a
  · simp [same]
  · refine mem_cons_of_mem a (held.known b ?_)
    simpa only [connectDesignated, lookup_insert_if, if_neg same] using known

theorem Withholding.open_ (adapter : AdapterId) (crossCheck : Option String)
    (connected : c.connections.lookup a = some adapter) (absent : c.attachments.lookup a = none) :
    Withholding given log { c with attachments := c.attachments.insert a (.opened adapter crossCheck) } := by
  have unused : ¬ c.Used given a := by
    intro used
    have entered := used.entered (by simp [connected])
    simp [absent] at entered
  have kept : ∀ b, c.Used given b →
      { c with attachments := c.attachments.insert a (.opened adapter crossCheck) }.Used given b := by
    intro b used
    have other : b ≠ a := fun same => unused (same ▸ used)
    exact ⟨used.known, by simpa only [lookup_insert_if, if_neg other] using used.entered⟩
  have entries := fun b => lookup_insert_if a b (AttachmentEntry.opened adapter crossCheck) c.attachments
  refine ⟨fun b e found bound => ?_, fun s b e routed found => ?_, fun b known => ?_,
    fun s b routed => kept b (held.routed s b routed), fun b d stopped => kept b (held.used b d stopped),
    fun b d e stopped unanswered found => ?_⟩
  · rw [entries] at found
    split at found
    · cases found
      cases bound
    · exact held.flagged b e found bound
  · rw [entries] at found
    split at found
    · next same => exact absurd (same ▸ held.routed s b routed) unused
    · exact held.owner s b e routed found
  · by_cases same : b = a
    · exact same ▸ held.known a (.inr (by simp [connected]))
    · rw [entries, if_neg same] at known
      exact held.known b known
  · rw [entries] at found
    split at found
    · next same => exact absurd (same ▸ held.used b d stopped) unused
    · exact held.waiting b d e stopped unanswered found

end

/-- A bind starts withheld unless the signal it is made for arrived after the one that withholds the
attachment, and then that signal was noted. -/
theorem Withholding.bindRecord [Libraries] (held : Withholding given log c)
    (noted : ∀ n, seq = some n → .noted a n ∈ log)
    (made : c.bindRecord own a record descriptor seq = (c', .ok entry)) :
    Withholding given ([.bound a record.sessionId seq] ++ log) c' := by
  obtain ⟨e, engine, entered, isOpen, unbound, fresh, registered, rfl, rfl⟩ := bindRecord_eq_ok made
  have routes := fun s => lookup_insert_if record.sessionId s a c.sessions
  refine held.change (a := a) (f := fun e => boundEntry e record.sessionId record.nativeId seq)
    (fun b => ?_) rfl (fun s b routed => ?_) (fun s e' routed before => ?_) (fun _ _ _ => .rfl) (by simp) ?_
  · simp only [register, lookup_insert_if, entered, map_some]
  · simp only [register, routes] at routed
    split at routed
    · exact .inr ⟨(some.inj routed).symm, by simp [entered]⟩
    · exact .inl routed
  · simp only [register, routes] at routed
    split at routed
    · next new => rw [new]; rfl
    · cases entered.symm.trans before
      have bound := held.owner s a e routed entered
      rw [unbound] at bound
      cases bound
  · intro d e before stopped unanswered
    have still : ∀ n, .noted a n ∈ log → n ≤ d := fun n noted => unanswered n (by simp [noted])
    obtain ⟨n, by_, late⟩ := held.waiting a d e (by simpa using stopped) still before
    -- The binding's signal is not above `d`, so it answers nothing.
    have unanswered : answers e.withheldBy seq = false := by
      rw [by_]
      cases seq with
      | none => rfl
      | some seq =>
        have early := still seq (noted seq rfl)
        simp only [answers, decide_eq_false_iff_not]
        omega
    refine ⟨n, ?_, late⟩
    simp only [boundEntry, unanswered, Bool.false_eq_true, if_false]
    exact by_

end Core

/-- The second section of an `unbind` finds the attachment bound to no other session than the one
the first section read. -/
def Label.unbindsCurrent (label : Label) (w : Pipelines) : Bool :=
  match label.frame w with
  | some (.plain (.unbindWrite a session _), x) => ((w.locked x.now).core.boundSession a).all (· == session)
  | _ => true

namespace Pipelines

section Runs

variable [Libraries] {p : PipelineSetup} {label : Label} {w w' : Pipelines} {x : Ext} {c c' : Core}

theorem section_withholding {given : List Attachment} (current : label.unbindsCurrent w = true)
    (noted : TurnHolds Noted w) (section_ : Section p label w c c' events given)
    (held : c.Withholding w.given w.log) : c'.Withholding given (events ++ w.log) := by
  have owner := fun a s e (routed : c.sessions.lookup s = some a) entered => held.owner s a e routed entered
  cases section_ with
  | quiet same silent => exact held.same same.attachments same.connections same.sessions silent
  | connected a adapter observation carrier fresh => exact held.connect adapter observation carrier fresh
  | opened adapter a crossCheck connected absent => exact held.open_ adapter crossCheck connected absent
  | closed a =>
    refine held.change
      (fun b => lookup_modify_if a b _ _) rfl (fun _ _ => .inl) (owner a) (held.flagged a) (by simp) ?_
    exact fun d e entered stopped unanswered => held.waiting a d e stopped unanswered entered
  | noted a seq =>
    refine held.change
      (fun b => lookup_modify_if a b _ _) rfl (fun _ _ => .inl) (owner a) (held.flagged a) (by simp) ?_
    intro d e entered stopped unanswered
    exact held.waiting a d e (by simpa using stopped) (fun n noted => unanswered n (by simp [noted])) entered
  | stopped a e seq next entered stops =>
    refine held.change (f := fun e => Core.stoppedBy e seq) ?_ rfl (fun _ _ => .inl) (owner a) ?_ ?_ ?_
    · intro b
      rw [lookup_insert_if, entered]
      rfl
    · intro e _ (bound : e.session.isSome)
      simp [Core.stoppedBy, bound]
    · intro b d stopped
      simp only [mem_singleton, PipelineEvent.stopped.injEq] at stopped
      exact ⟨stopped.1, by simp [entered]⟩
    · intro d e entered stopped unanswered
      refine ⟨_, rfl, ?_⟩
      simp only [singleton_append, mem_cons, PipelineEvent.stopped.injEq, true_and] at stopped
      rcases stopped with rfl | before
      · cases e.withheldBy with
        | none => exact le_rfl
        | some n => exact le_max_right n d
      · obtain ⟨n, by_, late⟩ :=
          held.waiting a d e before (fun n noted => unanswered n (by simp [noted])) entered
        rw [by_]
        exact le_max_of_le_left late
  | released x a e seq frame entered answered =>
    refine held.change (f := Core.releasedEntry) ?_ rfl (fun _ _ => .inl) (owner a) ?_ (by simp) ?_
    · intro b
      rw [lookup_insert_if, entered]
      rfl
    · intro e _ bound
      simp [Core.releasedEntry]
    · intro d e' entered' stopped unanswered
      cases entered.symm.trans entered'
      obtain ⟨n, by_, late⟩ := held.waiting a d e stopped unanswered entered
      have paired := unanswered seq (noted.frame frame (by simp) a seq rfl)
      rw [by_] at answered
      simp only [answers, decide_eq_true_eq] at answered
      omega
  | forgot x a => exact held.forgetConnection a
  | unbound x a session origin frame =>
    refine held.unbind a session x.now origin ?_
    intro s bound
    simpa [Label.unbindsCurrent, frame, bound] using current
  | bound x a record descriptor seq entry c' frame made =>
    refine held.bindRecord ?_ made
    rintro n rfl
    exact noted.frame frame (by simp) a n rfl
  | described => exact held.same rfl rfl rfl (by simp)

theorem withholding_kept (reachable : Reachable p (fun label w => label.unbindsCurrent w = true)
    w) : TurnHolds Noted w ∧ w.core.Withholding w.given w.log := by
  refine reachable.invariant (P := fun w => TurnHolds Noted w ∧ w.core.Withholding w.given w.log) ?_ ?_
  · intro engine caps noOwn
    refine ⟨?_, ?_, ?_, ?_, ?_, ?_, ?_⟩
    · intro turn held
      cases held
    all_goals simp [new, Core.new]
  · rintro label w w' current stepped ⟨noted, held⟩
    refine ⟨turn_noted stepped noted, ?_⟩
    refine step_keeps (I := fun given log c => c.Withholding given log) ?_ ?_ stepped held
    · exact fun c a adapter now held => held.applyClosure a adapter now
    · exact fun c c' events given _ section_ held => section_withholding current noted section_ held

/-- In every run whose unbinds find no other binding than the one they read: an attachment stopped
by an arrival number is served neither a request nor a hand-off until a signal of a greater number
has paired with it, and a bound attachment is withheld exactly when an arrival number withholds
it. -/
theorem withheld_not_served (reachable : Reachable p (fun label w => label.unbindsCurrent w = true) w) :
    (∀ now a d, .stopped a d ∈ w.log → (∀ n, .noted a n ∈ w.log → n ≤ d) →
      (∀ handles adapter, (w.locked now).core.requester handles adapter a = none) ∧
        ∀ to_ adapter, (w.locked now).core.handOffTarget to_ ≠ some (adapter, a)) ∧
    ∀ a e s, w.core.attachments.lookup a = some e → e.session = some s →
      (e.withheld = true ↔ e.withheldBy.isSome) := by
  constructor
  · intro now a d stopped unanswered
    exact (withholding_kept (reachable.locked now rfl)).2.not_served stopped unanswered
  · intro a e s entered bound
    exact (withholding_kept reachable).2.flagged a e entered (by simp [bound])

end Runs

open AuthorizationEngine

/-- An attachment stopped while bound, unbound and bound again is such a run: it stays withheld. -/
theorem withheld_not_served_sample : ∃ w : Pipelines, .stopped 7 0 ∈ w.log ∧
    w.core.sessions.lookup (sampleSession 2) = some 7 ∧ (w.locked .epoch).core.requester [] 0 7 = none ∧
    ∀ to_ adapter, (w.locked .epoch).core.handOffTarget to_ ≠ some (adapter, 7) := by
  have performed : (Transition.performWithin sampleStep (fun label w => label.unbindsCurrent w = true)
      (sampleConnect ++ [sampleOpened] ++ sampleBind 1 ++ [sampleUnconfirmed, .unbind 7] ++ sampleFrames 3 3 ++
        sampleBindWithheld 2) samplePipelines).map (fun w => (w.log, w.core.sessions.lookup (sampleSession 2))) =
      some ([.bound 7 (sampleSession 2) none, .told 7 none, .unbound 7 (sampleSession 1) none, .stopped 7 0,
        .told 7 (some (sampleSession 1)), .bound 7 (sampleSession 1) none], some 7) := by
    decide +kernel
  obtain ⟨w, run, found⟩ := map_eq_some_iff.mp performed
  obtain ⟨log, bound⟩ := Prod.mk.inj found
  have stopped : .stopped 7 0 ∈ w.log := by simp [log]
  have served := (@withheld_not_served sampleLibraries sampleSetup w (reachable_of_labels _ run)).1
    .epoch 7 0 stopped (by simp [log])
  exact ⟨w, stopped, bound, served.1 [] 0, served.2⟩

/-- Without the condition: an unbind that read session 1 runs its second section after another
unbind, a stop and a bind to session 2, and so clears the withholding of session 2. -/
theorem withheld_but_served : ∃ w : Pipelines,
    @Reachable sampleLibraries sampleSetup Transition.anyMove w ∧ .stopped 7 0 ∈ w.log ∧
      (∀ n, .noted 7 n ∉ w.log) ∧ (w.locked .epoch).core.handOffTarget (sampleSession 2) = some (0, 7) := by
  have performed : (Transition.perform sampleStep
      (sampleConnect ++ [sampleOpened] ++ sampleBind 1 ++ [.unbind 7] ++ sampleFrames 2 1 ++ [.unbind 7] ++
        sampleFrames 3 3 ++ [sampleUnconfirmed] ++ sampleBindWithheld 2 ++ sampleFrames 2 1) samplePipelines).map
      (fun w => (w.log, (w.locked .epoch).core.handOffTarget (sampleSession 2))) =
      some ([.unbound 7 (sampleSession 1) none, .bound 7 (sampleSession 2) none, .stopped 7 0, .told 7 none,
        .unbound 7 (sampleSession 1) none, .told 7 (some (sampleSession 1)), .bound 7 (sampleSession 1) none],
        some (0, 7)) := by
    decide +kernel
  obtain ⟨w, run, found⟩ := map_eq_some_iff.mp performed
  obtain ⟨log, target⟩ := Prod.mk.inj found
  exact ⟨w, reachable_of_perform _ run, by simp [log], by simp [log], target⟩

end Pipelines

end Oac
