import Oac.Pipeline.Arrival
import Oac.Pipeline.Consistency

/-! Signals of one key pair in the order in which they arrived. This needs that the attachment a
signal paired with is still observed when the older held signals of its key are dropped, and that no
conflicting reveal is turned away at the bound, since its unbind then runs late. -/

namespace Oac

open TurnFrame List Option

namespace Core

variable {given : List Attachment} {log : List PipelineEvent} {c c' : Core}
  {rest frames : List TurnFrame} {action : TurnFrame}

theorem pairByKey_paired (paired : c.pairByKey adapter key narrow = .paired a) :
    c.observedKey a = some key := by
  unfold pairByKey at paired
  split at paired
  · cases paired
  · next one only =>
    cases paired
    have member : a ∈ c.candidates adapter key narrow := by simp [only]
    obtain ⟨e, candidate, rfl⟩ := mem_map.mp member
    have fits := (mem_filter.mp candidate).2
    simp only [isCandidate, Bool.and_eq_true, beq_iff_eq] at fits
    exact fits.2
  · cases paired

theorem pairByKey_isConflict (c : Core) (adapter : AdapterId) (key : PairingKey)
    (narrow : Option Attachment) : (c.pairByKey adapter key narrow).isConflict = false := by
  fun_cases pairByKey <;> rfl

theorem pairByKey_notYet (notYet : c.pairByKey adapter key narrow = .notYet k) : k = key := by
  revert notYet
  fun_cases pairByKey <;> rintro ⟨⟩
  rfl

theorem pair_paired (paired : c.pair adapter key narrow = .paired a) :
    ∃ k, key = some k ∧ c.observedKey a = some k := by
  cases key with
  | none => cases paired
  | some k =>
    simp only [pair] at paired
    split at paired
    · split at paired
      · cases paired
      · cases paired
    · exact ⟨k, rfl, pairByKey_paired paired⟩

theorem pair_notYet (notYet : c.pair adapter key narrow = .notYet k) : key = some k := by
  cases key with
  | none => cases notYet
  | some key =>
    simp only [pair] at notYet
    split at notYet
    · next found =>
      split at notYet
      · cases notYet
      · cases notYet
        rw [pairByKey_notYet found]
    · next other => exact absurd notYet (other k)

theorem attempt_paired (paired : c.attempt adapter key reveal = .paired a) :
    ∃ k, key = some k ∧ c.observedKey a = some k := by
  cases reveal with
  | none | issued b => exact pair_paired paired
  | conflict b | rejected requirement => cases paired

theorem attempt_notYet (notYet : c.attempt adapter key reveal = .notYet k) : key = some k := by
  cases reveal with
  | none | issued b => exact pair_notYet notYet
  | conflict b | rejected requirement => cases notYet

theorem releaseWithheld_fewer (c : Core) (a : Attachment) (seq : Nat) :
    c.Fewer (c.releaseWithheld a seq).1 := by
  fun_cases releaseWithheld <;> exact .of_eq rfl rfl rfl rfl

theorem expireHeld_fewer (c : Core) (config : PipelineConfig) (now : Instant) :
    c.Fewer (c.expireHeld config now).1 :=
  ⟨.refl _, filter_sublist, le_rfl, fun _ _ => id⟩

theorem takeHeld_eq_some {attempt : PairAttempt} (taken : c.takeHeld seq = (c', some (h, attempt))) :
    h ∈ c.held ∧ h.seq = seq ∧ attempt = c.pairByKey h.adapter h.key none ∧
      c' = { c with held := c.held.eraseP (·.seq == seq) } := by
  unfold takeHeld at taken
  split at taken
  · cases taken
  · next held found =>
    have member := mem_of_find?_eq_some found
    have number : held.seq = seq := by simpa using find?_some found
    split at taken
    · cases taken
    · cases taken
      exact ⟨member, number, rfl, rfl⟩

/-- A frame that takes signals leaves frames that have none yet. -/
theorem Arrival.schedule (arrival : Arrival given log c (action :: rest)) (fewer : c.Fewer c')
    (schedules : action.schedules = true)
    (idle : ∀ frame ∈ frames, frame.inHand = none ∧ frame.origin = none ∧ frame.Sound log) :
    Arrival given log c' (frames ++ rest) := by
  have inHand : frames.filterMap inHand = [] :=
    filterMap_eq_nil_iff.mpr fun frame member => (idle frame member).1
  refine (arrival.next ⟨?_, fun _ _ _ => schedules, ?_,
    fun frame member => (idle frame member).2.2, ?_⟩ ?_).fewer fewer
  · exact pairwise_of_forall_mem_list fun _ _ later member _ => ⟨(idle later member).1, (idle later member).2.1⟩
  · rw [inHand]
    exact nil_sublist _
  · intro frame member m acts
    rw [(idle frame member).2.1] at acts
    cases acts
  · rintro adapter signal a n rfl
    cases schedules

theorem eraseP_seq {held : List HeldSignal} (increasing : (held.map (·.seq)).Pairwise (· < ·)) :
    ∀ h ∈ held.eraseP (·.seq == seq), h.seq ≠ seq := by
  induction held with
  | nil => simp
  | cons first rest ih =>
    simp only [map_cons, pairwise_cons] at increasing
    intro h member
    by_cases here : first.seq = seq
    · rw [eraseP_cons_of_pos (by simpa using here)] at member
      have later := increasing.1 h.seq (mem_map_of_mem member)
      omega
    · rw [eraseP_cons_of_neg (by simpa using here)] at member
      rcases mem_cons.mp member with rfl | old
      · exact here
      · exact ih increasing.2 h old

/-- A held signal that now pairs is later than every signal of its key that paired. -/
theorem Arrival.pairs_held {a : Attachment} (arrival : Arrival given log c (action :: rest))
    (schedules : action.schedules = true) (taken : c.takeHeld seq = (c', some (h, .paired a))) :
    c.Fewer c' ∧ Pairs given log c' h.adapter h.key a seq := by
  obtain ⟨member, rfl, pairing, rfl⟩ := takeHeld_eq_some taken
  have observed := pairByKey_paired pairing.symm
  obtain ⟨increasing, -, apart⟩ := pairwise_append.mp arrival.line
  have number : h.seq ∈ c.held.map (·.seq) := mem_map_of_mem member
  refine ⟨⟨.refl _, eraseP_sublist, le_rfl, fun _ _ => id⟩, arrival.held h member, ?_, ?_, ?_,
    arrival.known a h.key observed, ?_, eraseP_seq increasing⟩
  · intro b m paired
    rcases arrival.cleared h.adapter h.key b m paired with cleared | ⟨signal, waits, _⟩
    · exact cleared h member rfl rfl
    · rcases mem_cons.mp waits with rfl | later
      · cases schedules
      · have free := (arrival.staged.behind schedules _ later).2
        cases free
  · exact arrival.below h.seq (mem_append_left _ number)
  · intro q queued
    exact apart h.seq number q.seq (mem_append_right _ (mem_map_of_mem queued))
  · intro k found
    exact some.inj (found.symm.trans observed)

/-- The signal in hand is later than every signal that paired. -/
theorem Arrival.pairs_queued (arrival : Arrival given log c (.attemptQueued q now :: rest))
    (named : q.key = some key) (observed : c.observedKey a = some key) :
    Pairs given log c q.adapter key a q.seq := by
  have inHand : q.seq ∈ c.ahead (.attemptQueued q now :: rest) := by simp [Core.ahead, inHand]
  obtain ⟨-, increasing, apart⟩ := pairwise_append.mp arrival.line
  refine ⟨?_, ?_, ?_, ?_, arrival.known a key observed, ?_, ?_⟩
  · rw [← named]
    exact arrival.sound _ mem_cons_self
  · exact fun b m paired => (arrival.passed _ _ b m paired).2 q.seq inHand
  · exact arrival.below q.seq (mem_append_right _ inHand)
  · intro q' queued
    exact (pairwise_cons.mp increasing).1 q'.seq (mem_append_right _ (mem_map_of_mem queued))
  · intro k found
    exact some.inj (found.symm.trans observed)
  · intro h member
    have := apart h.seq (mem_map_of_mem member) q.seq inHand
    omega

end Core

theorem dropSignal_inTurn (attempt : PairAttempt) (seq : Nat) :
    ∀ frame ∈ dropSignal attempt seq, frame.inTurn = true := by
  intro frame added
  cases attempt with
  | rejected requirement | notYet key => cases added
  | conflict a =>
    simp only [dropSignal, unbindFrames, mem_cons, not_mem_nil, or_false] at added
    rcases added with rfl | rfl
    · rfl
    · rfl
  | paired a =>
    cases mem_singleton.mp added
    rfl
  | unpairable bound =>
    obtain ⟨a, _, rfl⟩ := mem_map.mp added
    rfl

theorem actOn_goesOn (own : act.target ≠ none → action.origin = some seq) :
    ∀ frame ∈ actOn act seq, Core.GoesOn log action frame := by
  intro frame added
  cases act with
  | none => cases added
  | deregister a =>
    have same := own (by simp [BindingAction.target])
    cases mem_singleton.mp added
    exact ⟨rfl, rfl, rfl, .inr same.symm⟩
  | bind a nativeId deregisterFirst =>
    have same := own (by simp [BindingAction.target])
    rcases mem_append.mp added with first | last
    · split at first
      · cases mem_singleton.mp first
        exact ⟨rfl, rfl, rfl, .inr same.symm⟩
      · cases first
    · cases mem_singleton.mp last
      exact ⟨rfl, rfl, trivial, .inr same.symm⟩

namespace Pipelines

theorem perform_inTurn {w : Pipelines} (inTurn : action.inTurn = true)
    (added : frame ∈ (w.perform p x action).2) : frame.inTurn = true := by
  cases action with
  | lockOnly | unbindWrite | setUnbound => cases added
  | unbindRead a origin =>
    simp only [perform] at added
    split at added
    · simp only [mem_cons, not_mem_nil, or_false] at added
      rcases added with rfl | rfl
      · rfl
      · rfl
    · cases added
  | withhold a seq =>
    simp only [perform] at added
    split at added
    · split at added
      · cases mem_singleton.mp added
        rfl
      · cases added
    · cases added
  | _ => cases inTurn

variable {p : PipelineSetup} {label : Label} {w w' : Pipelines} {x : Ext}
  {rest frames : List TurnFrame}

theorem plain_arrival {action : Frame} (arrival : w.core.Arrival w.given w.log (.plain action :: rest)) :
    (w.perform p x action).1.core.Arrival (w.perform p x action).1.given
      (w.perform p x action).1.log ((w.perform p x action).2.map .plain ++ rest) := by
  have inTurn : action.inTurn = true := arrival.sound _ mem_cons_self
  have other : ∀ adapter signal now, action ≠ .queueSignal adapter signal now := by
    rintro adapter signal now rfl
    cases inTurn
  obtain ⟨events, log, silent⟩ := perform_log p x w action other
  have next : (w.perform p x action).1.core.Arrival w.given w.log
      ((w.perform p x action).2.map .plain ++ rest) := by
    refine arrival.goOn (perform_fewer p x w action other) ?_
    intro frame added
    obtain ⟨f, left, rfl⟩ := mem_map.mp added
    refine ⟨rfl, rfl, perform_inTurn inTurn left, ?_⟩
    exact perform_origin left fun adapter signal now same => absurd same (other adapter signal now)
  rw [(perform_aside p x w action).2.given, log]
  exact next.noteAll silent (arrival.acting _ mem_cons_self)

variable [Libraries]

/-- Performing the frame keeps the order of arrival. -/
def TurnKeeps (p : PipelineSetup) (x : Ext) (w : Pipelines) (action : TurnFrame) : Prop :=
  ∀ rest left, w.core.Arrival w.given w.log (action :: rest) → w.performTurn p x action = some left →
    left.1.core.Arrival left.1.given left.1.log (left.2 ++ rest)

theorem passExpire_keeps : TurnKeeps p x w (.passExpire now) := by
  rintro rest left arrival ⟨⟩
  refine arrival.schedule ((w.locked_fewer x.now).trans (Core.expireHeld_fewer _ _ _)) rfl ?_
  intro frame added
  rcases mem_append.mp added with drops | last
  · obtain ⟨f, dropped, rfl⟩ := mem_map.mp drops
    obtain ⟨d, expired, left⟩ := mem_flatMap.mp dropped
    obtain ⟨h, _, rfl⟩ := mem_map.mp expired
    exact ⟨rfl, dropSignal_origin (Core.pairByKey_isConflict _ _ _ _) f left, dropSignal_inTurn _ _ f left⟩
  · cases mem_singleton.mp last
    exact ⟨rfl, rfl, trivial⟩

theorem listHeld_keeps : TurnKeeps p x w (.listHeld queued now) := by
  rintro rest left arrival ⟨⟩
  refine arrival.schedule (w.locked_fewer x.now) rfl ?_
  intro frame added
  rcases mem_append.mp added with held | last
  · obtain ⟨h, _, rfl⟩ := mem_map.mp held
    exact ⟨rfl, rfl, trivial⟩
  · cases mem_singleton.mp last
    exact ⟨rfl, rfl, trivial⟩

theorem decideHeld_keeps : TurnKeeps p x w (.decideHeld seq) := by
  intro rest left arrival performed
  have locked := arrival.fewer (w.locked_fewer x.now)
  simp only [performTurn] at performed
  split at performed
  · cases performed
    exact arrival.schedule (w.locked_fewer x.now) rfl (by simp)
  · next core h attempt taken =>
    cases attempt with
    | paired a =>
      cases performed
      obtain ⟨erased, pairs⟩ := locked.pairs_held rfl taken
      exact locked.pair rfl erased pairs
    | unpairable | notYet | rejected | conflict =>
      cases performed
      obtain ⟨_, _, _, rfl⟩ := Core.takeHeld_eq_some taken
      refine locked.schedule ⟨.refl _, eraseP_sublist, le_rfl, fun _ _ => id⟩ rfl ?_
      simp [resolve, Sound, inHand, origin]

theorem popQueued_keeps : TurnKeeps p x w (.popQueued left now) := by
  intro rest out arrival performed
  cases left with
  | zero =>
    cases performed
    exact arrival.schedule (.refl _) rfl (by simp)
  | succ left =>
    simp only [performTurn] at performed
    split at performed
    · cases performed
      exact arrival.schedule (w.locked_fewer x.now) rfl (by simp)
    · next popped =>
      cases performed
      revert popped
      fun_cases Core.popSignal <;> rintro ⟨⟩
      · next queue => exact (arrival.fewer (w.locked_fewer x.now)).pop rfl queue

theorem attemptQueued_keeps : TurnKeeps p x w (.attemptQueued q now) := by
  intro rest left arrival performed
  have fewer := w.locked_fewer x.now
  have locked := arrival.fewer fewer
  simp only [performTurn] at performed
  split at performed <;> cases performed
  · next a attempt =>
    obtain ⟨key, named, found⟩ := Core.attempt_paired attempt
    have pairs := locked.pairs_queued named found
    rw [named]
    split
    · have paired : Core.Arrival w.given (.paired q.adapter (some key) a q.seq :: w.log) (w.locked x.now).core
          (.supersede q.adapter q.signal a q.seq :: rest) := locked.pair rfl (.refl _) pairs
      exact paired.start rfl rfl trivial (pairwise_cons.mpr ⟨by simp [schedules], paired.staged⟩)
    · exact locked.pair rfl (.refl _) pairs
  · next key attempt =>
    have reported : .reported q.adapter q.key q.seq ∈ w.log := arrival.sound _ mem_cons_self
    rw [Core.attempt_notYet attempt] at reported
    have follows : Core.Follows w.log (.attemptQueued q now)
        [.holdSignal ⟨q.adapter, q.signal, key, now, q.seq⟩] :=
      ⟨pairwise_singleton _ _, fun _ _ _ => rfl, .refl _, forall_mem_singleton.mpr reported,
        forall_mem_singleton.mpr (by rintro m ⟨⟩)⟩
    exact (arrival.next follows (by simp)).fewer fewer
  · exact arrival.schedule fewer rfl (forall_mem_singleton.mpr ⟨rfl, rfl, trivial⟩)
  · exact arrival.schedule fewer rfl (by simp [dropSignal])
  · next a attempt =>
    have inHand : q.seq ∈ w.core.ahead (.attemptQueued q now :: rest) := by simp [Core.ahead, inHand]
    -- A conflicting reveal unbinds for the signal in hand, which no signal that paired follows.
    have follows : Core.Follows w.log (.attemptQueued q now)
        ((dropSignal (.conflict a) q.seq).map .plain) := by
      refine ⟨?_, fun _ _ _ => rfl, nil_sublist _, ?_, ?_⟩
      · simp [OneAtATime, dropSignal, unbindFrames, schedules]
      · intro frame added
        obtain ⟨f, left, rfl⟩ := mem_map.mp added
        exact dropSignal_inTurn _ _ f left
      · intro frame added m acts
        simp only [dropSignal, unbindFrames, map_cons, map_nil, mem_cons, not_mem_nil, or_false] at added
        rcases added with rfl | rfl
        · cases acts
        · cases acts
          intro adapter key b n _ paired
          exact ((arrival.passed adapter _ b n paired).2 q.seq inHand).le
    exact (arrival.next follows (by simp)).fewer fewer

theorem decide_keeps : TurnKeeps p x w (.decide adapter signal pairing attributed seq) := by
  rintro rest left arrival ⟨⟩
  refine arrival.goOn (w.locked_fewer x.now) ?_
  intro frame added
  rcases mem_append.mp added with withheld | acting
  · obtain ⟨a, _, rfl⟩ := mem_map.mp withheld
    exact ⟨rfl, rfl, rfl, .inl rfl⟩
  · refine actOn_goesOn ?_ frame acting
    intro acts
    obtain ⟨b, target⟩ := ne_none_iff_exists'.mp acts
    cases decideBinding_target target
    rfl

theorem bindFromSignal_keeps : TurnKeeps p x w (.bindFromSignal a nativeId seq) := by
  intro rest left arrival performed
  simp only [performTurn] at performed
  split at performed
  · cases performed
    exact arrival.goOn (w.locked_fewer x.now)
  · split at performed <;> cases performed
    exact arrival.goOn (w.locked_fewer x.now) (forall_mem_singleton.mpr ⟨rfl, rfl, trivial, .inr rfl⟩)

theorem bindCheck_keeps : TurnKeeps p x w (.bindCheck a record displayName seq) := by
  intro rest left arrival performed
  simp only [performTurn] at performed
  split at performed <;> cases performed
  · exact arrival.goOn (w.locked_fewer x.now)
  · exact arrival.goOn (w.locked_fewer x.now) (forall_mem_singleton.mpr ⟨rfl, rfl, trivial, .inr rfl⟩)

theorem describe_keeps : TurnKeeps p x w (.describe a record displayName seq limit) := by
  intro rest left arrival performed
  simp only [performTurn] at performed
  repeat' split at performed
  all_goals cases performed
  · exact arrival.goOn (.refl _)
  · exact arrival.goOn (.refl _)
  · exact arrival.goOn (.refl _)
  · exact arrival.goOn (.refl _) (forall_mem_singleton.mpr ⟨rfl, rfl, trivial, .inr rfl⟩)

theorem bindRecord_keeps : TurnKeeps p x w (.bindRecord a record descriptor seq) := by
  intro rest left arrival performed
  simp only [performTurn] at performed
  split at performed <;> cases performed
  · exact arrival.goOn (w.locked_fewer x.now)
  · next made =>
    obtain ⟨e, engine, _, _, _, _, _, rfl, rfl⟩ := Core.bindRecord_eq_ok made
    refine Core.Arrival.note ?_ rfl (arrival.acting _ mem_cons_self)
    refine arrival.goOn ((w.locked_fewer x.now).trans (.of_eq rfl rfl rfl rfl)) ?_
    intro frame added
    split at added
    · cases added
    · cases mem_singleton.mp added
      exact ⟨rfl, rfl, trivial, .inl rfl⟩

theorem releaseWithheld_keeps : TurnKeeps p x w (.releaseWithheld a seq) := by
  intro rest left arrival performed
  have released := (w.locked x.now).core.releaseWithheld_fewer a seq
  have fewer := w.locked_fewer x.now
  simp only [performTurn] at performed
  split at performed <;> cases performed
  · next taken =>
    rw [taken] at released
    exact arrival.goOn (fewer.trans released) (forall_mem_singleton.mpr ⟨rfl, rfl, trivial, .inl rfl⟩)
  · next taken =>
    rw [taken] at released
    exact arrival.goOn (fewer.trans released)

/-- Every frame of the turn keeps the order of arrival, the clearing of a key while its attachment
is still observed. -/
theorem performTurn_arrival (observed : ∀ adapter signal a seq, action = .supersede adapter signal a seq →
    ((w.locked x.now).core.observedKey a).isSome = true) : TurnKeeps p x w action := by
  have fewer := w.locked_fewer x.now
  cases action with
  | plain action =>
    rintro rest left arrival ⟨⟩
    exact plain_arrival arrival
  | passStart =>
    rintro rest left arrival ⟨⟩
    exact arrival.schedule (.refl _) rfl (forall_mem_singleton.mpr ⟨rfl, rfl, trivial⟩)
  | passExpire => exact passExpire_keeps
  | listHeld => exact listHeld_keeps
  | decideHeld => exact decideHeld_keeps
  | popQueued => exact popQueued_keeps
  | attemptQueued => exact attemptQueued_keeps
  | notePaired =>
    rintro rest left arrival ⟨⟩
    exact arrival.goOn (fewer.trans (.of_eq rfl rfl rfl rfl))
  | holdSignal =>
    rintro rest left arrival ⟨⟩
    exact (arrival.fewer fewer).hold
  | supersede adapter signal a seq =>
    rintro rest left arrival ⟨⟩
    obtain ⟨key, found⟩ := isSome_iff_exists.mp (observed adapter signal a seq rfl)
    exact ((arrival.fewer fewer).supersede found).note rfl (by simp [PipelineEvent.origin])
  | decide => exact decide_keeps
  | bindFromSignal => exact bindFromSignal_keeps
  | bindCheck => exact bindCheck_keeps
  | describe => exact describe_keeps
  | bindRecord => exact bindRecord_keeps
  | setBound =>
    rintro rest left arrival ⟨⟩
    exact (arrival.goOn (.refl _)).note rfl (by simp [PipelineEvent.origin])
  | releaseWithheld => exact releaseWithheld_keeps

end Pipelines

/-- The attachment a signal paired with is still observed when its key is cleared, and no
conflicting reveal is turned away at the bound. -/
def Label.keepsArrival (p : PipelineSetup) (label : Label) (w : Pipelines) : Bool :=
  (match label with
    | .reportLocal adapter (.nativeSignal signal) now clock =>
      (w.queueSignal p.config clock adapter signal now).2.all (!·.attempt.isConflict)
    | _ => true) &&
  (match label.frame w with
    | some (.plain (.queueSignal adapter signal now), x) =>
      (w.queueSignal p.config x.now adapter signal now).2.all (!·.attempt.isConflict)
    | some (.supersede _ _ a _, x) => ((w.locked x.now).core.observedKey a).isSome
    | _ => true)

namespace Pipelines

def work (w : Pipelines) : List TurnFrame := w.turn.elim [] (·.work)

/-- No thread unbinds for a signal. -/
structure Unclaimed (w : Pipelines) : Prop where
  threads : ∀ frame, Threads.Waits w.threads frame → frame.origin = none
  after : ∀ turn, w.turn = some turn → ∀ frame ∈ turn.after, frame.origin = none

structure ArrivalKept (w : Pipelines) : Prop where
  arrival : w.core.Arrival w.given w.log w.work
  unclaimed : w.Unclaimed

theorem onAdapterEvent_origin (adapter : AdapterId) (now : Instant) (event : AdapterEvent) :
    ∀ frame ∈ onAdapterEvent adapter now event, frame.origin = none := by
  cases event with
  | attachmentOpened | nativeSignal | capabilitiesChanged | attachmentClosed | attachmentUnconfirmed =>
    simp [onAdapterEvent, Frame.origin]

theorem spawned_origin (keeps : label.keepsArrival p w = true) (unclaimed : w.Unclaimed) :
    ∀ frame ∈ spawned p w label, frame.origin = none := by
  intro frame new
  cases label with
  | report adapter event now => exact onAdapterEvent_origin adapter now event frame new
  | reportLocal adapter event now clock =>
    cases event with
    | attachmentClosed a =>
      cases mem_singleton.mp new
      rfl
    | attachmentUnconfirmed a =>
      simp only [spawned, finishUnconfirmed] at new
      split at new
      · cases mem_singleton.mp new
        rfl
      · cases new
    | nativeSignal signal =>
      have agrees := ((Bool.and_eq_true _ _).mp keeps).1
      exact afterQueuedSignal_origin agrees frame new
    | attachmentOpened a crossCheck =>
      exact onAdapterEvent_origin adapter now (.attachmentOpened a crossCheck) frame new
    | capabilitiesChanged a => exact onAdapterEvent_origin adapter now (.capabilitiesChanged a) frame new
  | unbind a | expireSignals | request adapter a now | handOff msg =>
    cases mem_singleton.mp new
    rfl
  | disconnect a =>
    simp only [spawned, endConnection, unbindFrames, singleton_append, mem_cons, not_mem_nil, or_false] at new
    rcases new with rfl | rfl | rfl
    · rfl
    · rfl
    · rfl
  | shutdown =>
    simp only [spawned, mem_cons, not_mem_nil, or_false] at new
    rcases new with rfl | rfl
    · rfl
    · rfl
  | releaseTurn =>
    cases holding : w.turn with
    | none => simp [spawned, holding] at new
    | some turn =>
      simp only [spawned, holding, Option.elim] at new
      exact unclaimed.after turn holding frame new
  | addAdapter | connect | closeHandle | bind | engine | registry | lockOnly | run | turn => cases new

variable {p : PipelineSetup} {label : Label} {w w' : Pipelines} {x : Ext} {work : List TurnFrame}

theorem queueSignal_arrival (arrival : w.core.Arrival w.given w.log work)
    (clock : Timestamp) (adapter : AdapterId) (signal : NativeSignal) (now : Instant) :
    (w.queueSignal p.config clock adapter signal now).1.core.Arrival w.given
      (w.queueSignal p.config clock adapter signal now).1.log work := by
  obtain ⟨queues, named⟩ := (w.locked clock).core.queueSignal_queues p.config adapter signal now
  have queued := (arrival.fewer (w.locked_fewer clock)).queue queues
  rw [named] at queued
  exact queued

theorem perform_arrival (arrival : w.core.Arrival w.given w.log work)
    (free : action.origin = none) :
    (w.perform p x action).1.core.Arrival (w.perform p x action).1.given (w.perform p x action).1.log work := by
  rw [(perform_aside p x w action).2.given]
  by_cases reports : ∃ adapter signal now, action = .queueSignal adapter signal now
  · obtain ⟨adapter, signal, now, rfl⟩ := reports
    exact queueSignal_arrival arrival x.now adapter signal now
  · have other : ∀ adapter signal now, action ≠ .queueSignal adapter signal now :=
      fun adapter signal now same => reports ⟨adapter, signal, now, same⟩
    obtain ⟨events, log, silent⟩ := perform_log p x w action other
    rw [log]
    exact (arrival.fewer (perform_fewer p x w action other)).noteAll silent (by simp [free])

theorem reportLocal_arrival (arrival : w.core.Arrival w.given w.log work)
    (adapter : AdapterId) (now : Instant) (clock : Timestamp) (event : AdapterEvent) :
    (w.reportLocal p adapter now clock event).core.Arrival w.given
      (w.reportLocal p adapter now clock event).log work := by
  have locked := arrival.fewer (w.locked_fewer clock)
  cases event with
  | attachmentClosed a =>
    simp only [reportLocal]
    split
    · exact arrival
    · exact arrival
  | attachmentOpened a crossCheck => exact locked.fewer (Core.attachmentOpened_fewer _ _ _ _)
  | attachmentUnconfirmed a =>
    obtain ⟨events, log, silent⟩ := w.stopUnconfirmed_log clock adapter a
    have stopped : (w.stopUnconfirmed clock adapter a).1.core.Arrival w.given
        (w.stopUnconfirmed clock adapter a).1.log work := by
      rw [log]
      exact (locked.fewer (Core.stopUnconfirmed_fewer _ adapter a)).noteAll silent
    exact stopped
  | nativeSignal signal =>
    have queued : (w.queueSignal p.config clock adapter signal now).1.core.Arrival w.given
        (w.queueSignal p.config clock adapter signal now).1.log work :=
      queueSignal_arrival arrival clock adapter signal now
    exact queued
  | capabilitiesChanged a => exact locked

variable [Libraries]

theorem step_unclaimed (keeps : label.keepsArrival p w = true) (stepped : step p label w = some w')
    (unclaimed : w.Unclaimed) : w'.Unclaimed := by
  refine ⟨fun frame waits => ?_, step_after stepped unclaimed.after rfl rfl⟩
  cases step_waits stepped waits with
  | waited waits => exact unclaimed.threads frame waits
  | spawned new => exact spawned_origin keeps unclaimed frame new
  | left i x action rest ran running added =>
    subst ran
    have waited : Threads.Waits w.threads action := ⟨_, mem_of_getElem? running, mem_cons_self⟩
    have agrees : ∀ adapter signal now, action = .queueSignal adapter signal now →
        (w.queueSignal p.config x.now adapter signal now).2.all (!·.attempt.isConflict) = true := by
      rintro adapter signal now rfl
      have onFrame := ((Bool.and_eq_true _ _).mp keeps).2
      simpa [Label.frame, running] using onFrame
    rcases perform_origin added agrees with free | same
    · exact free
    · exact same.trans (unclaimed.threads action waited)

/-- A step of any thread keeps the order of arrival. -/
theorem step_arrival (keeps : label.keepsArrival p w = true) (stepped : step p label w = some w')
    (kept : w.ArrivalKept) : w'.core.Arrival w'.given w'.log w'.work := by
  obtain ⟨arrival, unclaimed⟩ := kept
  have onFrame := ((Bool.and_eq_true _ _).mp keeps).2
  have locked := fun now => arrival.fewer (w.locked_fewer now)
  cases step_stepped stepped with
  | spawns | closed => exact arrival
  | updates => exact arrival.fewer (update_fewer (.of_eq rfl rfl rfl rfl))
  | connected fresh => exact (locked _).connect _ _ _ fresh
  | @reported adapter event now clock =>
    have reported := reportLocal_arrival (p := p) arrival adapter now clock event
    obtain ⟨turn, aside⟩ := reportLocal_aside p w adapter now clock event
    have work_ : (w.reportLocal p adapter now clock event).work = w.work := by rw [work, turn, work]
    rwa [← aside.given, ← work_] at reported
  | binds free =>
    have empty : w.work = [] := by rw [work, free]; rfl
    rw [empty] at arrival
    exact arrival.start rfl rfl trivial (pairwise_singleton _ _)
  | @ran i action rest x running =>
    have waited : Threads.Waits w.threads action := ⟨_, mem_of_getElem? running, mem_cons_self⟩
    have performed := perform_arrival (p := p) (x := x) arrival (unclaimed.threads action waited)
    rcases perform_turn p x w action with same | ⟨free, started⟩
    · have work_ : (w.perform p x action).1.work = w.work := by rw [work, same, work]
      rw [← work_] at performed
      exact performed
    · have empty : w.work = [] := by rw [work, free]; rfl
      have work_ : (w.perform p x action).1.work = [.passStart] := by rw [work, started]; rfl
      rw [empty] at performed
      have passes : Core.Arrival (w.perform p x action).1.given (w.perform p x action).1.log
          (w.perform p x action).1.core [.passStart] :=
        performed.start rfl rfl trivial (pairwise_singleton _ _)
      rw [← work_] at passes
      exact passes
  | @turned action rest after w₁ frames x holding performed =>
    have work_ : w.work = action :: rest := by rw [work, holding]; rfl
    rw [work_] at arrival
    have observed : ∀ adapter signal a seq, action = .supersede adapter signal a seq →
        ((w.locked x.now).core.observedKey a).isSome = true := by
      rintro adapter signal a seq rfl
      simpa [Label.frame, holding] using onFrame
    have next : w₁.core.Arrival w₁.given w₁.log (frames ++ rest) :=
      performTurn_arrival observed _ _ arrival performed
    exact next
  | released holding =>
    have empty : w.work = [] := by rw [work, holding]; rfl
    rw [empty] at arrival
    exact arrival

theorem arrival_kept (reachable : Reachable p (fun label w => label.keepsArrival p w = true) w) :
    w.ArrivalKept := by
  refine reachable.invariant (P := ArrivalKept) ?_ ?_
  · intro engine caps noOwn
    refine ⟨?_, ?_, ?_⟩
    · constructor
      all_goals simp [new, Core.new, work, OneAtATime, Core.line, Core.ahead, InOrder, Core.observedKey]
    · simp [new, Threads.Waits]
    · simp [new]
  · intro label w w' keeps stepped kept
    exact ⟨step_arrival keeps stepped kept, step_unclaimed keeps stepped kept.unclaimed⟩

end Pipelines

/-- The arrival numbers of the signals of one key that paired, the latest pairing first. -/
def pairings (adapter : AdapterId) (key : PairingKey) (log : List PipelineEvent) : List Nat :=
  log.filterMap fun event =>
    match event with
    | .paired ad k _ n => if ad = adapter ∧ k = some key then some n else none
    | _ => none

theorem mem_pairings : n ∈ pairings adapter key log ↔ ∃ a, .paired adapter (some key) a n ∈ log := by
  constructor
  · intro member
    obtain ⟨event, logged, number⟩ := mem_filterMap.mp member
    split at number
    · next ad k a m =>
      split at number
      · next same =>
        obtain ⟨rfl, rfl⟩ := same
        cases number
        exact ⟨a, logged⟩
      · cases number
    · cases number
  · rintro ⟨a, logged⟩
    exact mem_filterMap.mpr ⟨_, logged, by simp⟩

theorem InOrder.pairings (ordered : InOrder log) (adapter : AdapterId) (key : PairingKey) :
    (pairings adapter key log).Pairwise (· > ·) := by
  induction log with
  | nil => exact .nil
  | cons event older ih =>
    obtain ⟨before, fits⟩ := ordered
    have rest := ih before
    rw [Oac.pairings, filterMap_cons]
    split
    · exact rest
    · next n number =>
      refine pairwise_cons.mpr ⟨fun m member => ?_, rest⟩
      obtain ⟨a, logged⟩ := mem_pairings.mp member
      split at number
      · split at number
        · next same =>
          obtain ⟨rfl, rfl⟩ := same
          cases number
          exact fits a m logged
        · cases number
      · cases number

theorem InOrder.fits (ordered : InOrder (newer ++ event :: older)) : event.Fits older := by
  induction newer with
  | nil => exact ordered.2
  | cons first rest ih => exact ih ordered.1

theorem InOrder.latest (ordered : InOrder (newer ++ event :: older)) (acts : event.origin = some m)
    (reported : .reported adapter (some key) m ∈ newer ++ event :: older)
    (paired : .paired adapter (some key) a n ∈ older) : n ≤ m := by
  rcases mem_append.mp reported with later | rest
  · -- Reported after the event: then its number is greater than all given out by then.
    obtain ⟨first, between, rfl⟩ := append_of_mem later
    rw [append_assoc] at ordered
    exact (ordered.fits adapter (some key) a n (by simp [paired])).le
  · rcases mem_cons.mp rest with rfl | earlier
    · cases acts
    · have fits := ordered.fits
      cases event with
      | bound b session seq =>
        cases acts
        exact fits adapter key a n earlier paired
      | unbound b session seq =>
        cases acts
        exact fits adapter key a n earlier paired
      | reported | paired | noted | stopped | told => cases acts

namespace Pipelines

/-- In every run that meets the condition, the signals of one adapter and key pair in the order of
their arrival; and once one has paired, no binding is made or ended for one that arrived before
it. -/
theorem signals_pair_in_order [Libraries] {p : PipelineSetup} {w : Pipelines}
    (reachable : Reachable p (fun label w => label.keepsArrival p w = true) w) :
    (∀ adapter key, (pairings adapter key w.log).Pairwise (· > ·)) ∧
    ∀ newer event older adapter key a m n, w.log = newer ++ event :: older → event.origin = some m →
      .reported adapter (some key) m ∈ w.log → .paired adapter (some key) a n ∈ older → n ≤ m := by
  have ordered := (arrival_kept reachable).arrival.ordered
  refine ⟨ordered.pairings, ?_⟩
  intro newer event older adapter key a m n log acts reported paired
  rw [log] at ordered reported
  exact ordered.latest acts reported paired

end Pipelines

/-! Signals on connection 5, with attachments of the same key. -/

section Samples

open AuthorizationEngine Pipelines

def sampleBounded : PipelineSetup :=
  ⟨sampleOwn, { PipelineConfig.default with maxPendingSignals := 1 }⟩

def sampleKey : PairingKey := ⟨[1]⟩

def sampleObservation : PeerObservation := ⟨some sampleKey, some sampleHarness, some "/work"⟩

def sampleSignal (nativeId : String) (revealed : Option String) : NativeSignal :=
  ⟨nativeId, some .transition, none, some 5, revealed⟩

def sampleReport (nativeId : String) (revealed : Option String) : Label :=
  .reportLocal 0 (.nativeSignal (sampleSignal nativeId revealed)) 0 .epoch

def sampleDecide (n : BitVec 128) (nativeId : String) (count : Nat) : List Label :=
  let record := sampleRegistration (sampleSession n)
  replicate count (.turn { sampleExt with
    record := some { record with wire := ("native_id", .string nativeId) :: record.wire } })

def sampleCarried (attachments : List Attachment) : List Label :=
  [.addAdapter .epoch, .connect 5 0 sampleObservation true .epoch] ++
    attachments.flatMap fun a =>
      [.connect a 0 sampleObservation false .epoch, .reportLocal 0 (.attachmentOpened a none) 0 .epoch]

end Samples

namespace Pipelines

open AuthorizationEngine

theorem signals_pair_in_order_sample : ∃ w : Pipelines, pairings 0 sampleKey w.log = [1, 0] ∧
    (pairings 0 sampleKey w.log).Pairwise (· > ·) ∧ .bound 7 (sampleSession 4) (some 1) ∈ w.log := by
  have performed : (Transition.performWithin sampleStep
      (fun label w => label.keepsArrival sampleSetup w = true)
      (sampleCarried [7] ++ [sampleReport "x" none] ++ sampleFrames 1 1 ++
        sampleDecide 3 "x" 14 ++ [.releaseTurn,
        sampleReport "z" none] ++ sampleFrames 3 1 ++ sampleDecide 4 "z" 14) samplePipelines).map
      (fun w => (pairings 0 sampleKey w.log, w.log.contains (.bound 7 (sampleSession 4) (some 1)))) =
      some ([1, 0], true) := by
    decide +kernel
  obtain ⟨w, run, found⟩ := map_eq_some_iff.mp performed
  obtain ⟨paired, bound⟩ := Prod.mk.inj found
  have ordered :=
    (@signals_pair_in_order sampleLibraries sampleSetup w (reachable_of_labels _ run)).1 0 sampleKey
  exact ⟨w, paired, ordered, by simpa using bound⟩

/-- Without the condition the order breaks in two ways. Signal 0 is held, attachment 7 opens within
a pass and signal 1 pairs with it, and 7's connection ends before the key is cleared: attachment 8
is then bound for signal 0. A conflicting reveal, signal 1, is turned away at a bound of one, and
its unbind runs after signal 2 paired and bound attachment 7. -/
theorem signals_pair_out_of_order : ∃ w w₁ : Pipelines,
    (@Reachable sampleLibraries sampleSetup Transition.anyMove w ∧
      pairings 0 sampleKey w.log = [0, 1] ∧ .bound 8 (sampleSession 3) (some 0) ∈ w.log) ∧
    (@Reachable sampleLibraries sampleBounded Transition.anyMove w₁ ∧ ∃ older,
      w₁.log = .unbound 7 (sampleSession 4) (some 1) :: older ∧
        .reported 0 (some sampleKey) 1 ∈ older ∧ .paired 0 (some sampleKey) 7 2 ∈ older) := by
  have unobserved : (Transition.perform sampleStep
      (sampleCarried [] ++ [sampleReport "old" none] ++ sampleFrames 0 1 ++ sampleDecide 3 "old" 7 ++
        [.releaseTurn, sampleReport "new" none, .connect 7 0 sampleObservation false .epoch] ++
          sampleFrames 2 1 ++
        sampleDecide 3 "new" 4 ++ [.reportLocal 0 (.attachmentOpened 7 none) 0 .epoch] ++
          sampleDecide 3 "new" 2 ++
        [.reportLocal 0 (.attachmentClosed 7) 0 .epoch] ++ sampleDecide 3 "new" 4 ++
        [.releaseTurn, .connect 8 0 sampleObservation false .epoch,
          .reportLocal 0 (.attachmentOpened 8 none) 0 .epoch, .expireSignals] ++ sampleFrames 7 1 ++
        sampleDecide 3 "old" 10) samplePipelines).map
      (fun w => (pairings 0 sampleKey w.log, w.log.contains (.bound 8 (sampleSession 3) (some 0)))) =
      some ([0, 1], true) := by
    decide +kernel
  have turnedAway : (Transition.perform (@step sampleLibraries sampleBounded)
      (sampleCarried [7] ++ [.request 0 7 0, .run 1 { sampleExt with value := some "v" },
        sampleReport "x" (some "v")] ++ sampleFrames 2 1 ++ sampleDecide 3 "x" 15 ++
        [.releaseTurn, sampleReport "y" (some "v"), sampleReport "z" none] ++ sampleFrames 4 1 ++
        sampleDecide 4 "z" 15 ++ sampleFrames 5 3) (.new (.new sampleOwn) sampleBounded none)).map
      (fun w => (w.log.head?, w.log.tail.contains (.reported 0 (some sampleKey) 1),
        w.log.tail.contains (.paired 0 (some sampleKey) 7 2))) =
      some (some (.unbound 7 (sampleSession 4) (some 1)), true, true) := by
    decide +kernel
  obtain ⟨w, run, found⟩ := map_eq_some_iff.mp unobserved
  obtain ⟨w₁, reached, found₁⟩ := Transition.reached_of_map _ turnedAway
  obtain ⟨paired, bound⟩ := Prod.mk.inj found
  obtain ⟨head, rest⟩ := Prod.mk.inj found₁
  obtain ⟨reported, paired₁⟩ := Prod.mk.inj rest
  refine ⟨w, w₁, ⟨reachable_of_perform _ run, paired, by simpa using bound⟩,
    ⟨.new sampleOwn, none, rfl, reached⟩, w₁.log.tail, ?_, ?_, ?_⟩
  · exact (cons_head?_tail head).symm
  · simpa using reported
  · simpa using paired₁

end Pipelines

end Oac
