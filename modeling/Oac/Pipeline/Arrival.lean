import Oac.Pipeline.Signals

/-! The order in which native signals arrived, and where it can be read: held signals come before
the one in hand, which comes before those queued, and a signal that paired comes before all that can
still pair under its key. The turn decides one signal at a time, so what it does is for the signal
that paired last. -/

namespace Oac

open List

/-- A frame after which the turn has no other signal to act for: it takes the next one, or finds how
the one in hand pairs. -/
def TurnFrame.schedules : TurnFrame → Bool
  | .passStart | .passExpire _ | .listHeld _ _ | .decideHeld _ | .popQueued _ _ | .attemptQueued _ _ => true
  | _ => false

/-- The arrival number of the signal a frame may bind or unbind for. -/
def TurnFrame.origin : TurnFrame → Option Nat
  | .plain action => action.origin
  | .supersede _ _ _ seq | .decide _ _ (.paired _) _ seq | .bindFromSignal _ _ seq => some seq
  | .bindCheck _ _ _ seq | .describe _ _ _ seq _ | .bindRecord _ _ _ seq => seq
  | _ => none

/-- The arrival number of the signal taken from the queue and neither decided nor held yet. -/
def TurnFrame.inHand : TurnFrame → Option Nat
  | .attemptQueued q _ => some q.seq
  | .holdSignal h => some h.seq
  | _ => none

/-- The plain frames a turn runs: what a drop or an unbind leaves. -/
def Frame.inTurn : Frame → Bool
  | .lockOnly | .unbindRead _ _ | .unbindWrite _ _ _ | .setUnbound _ | .withhold _ _ => true
  | _ => false

/-- The frame's own facts: a signal in hand was reported. -/
def TurnFrame.Sound (log : List PipelineEvent) : TurnFrame → Prop
  | .plain action => action.inTurn = true
  | .attemptQueued q _ => .reported q.adapter q.key q.seq ∈ log
  | .holdSignal h => .reported h.adapter (some h.key) h.seq ∈ log
  | _ => True

theorem TurnFrame.Sound.grow {frame : TurnFrame} (sound : frame.Sound log)
    (events : List PipelineEvent) : frame.Sound (events ++ log) := by
  cases frame with
  | attemptQueued | holdSignal => exact mem_append_right events sound
  | _ => exact sound

/-- The frames that act for a signal come before the one that takes the next signal. -/
def OneAtATime (work : List TurnFrame) : Prop :=
  work.Pairwise fun first later => first.schedules = true → later.inHand = none ∧ later.origin = none

theorem OneAtATime.of_idle (idle : ∀ frame ∈ frames, frame.schedules = false) : OneAtATime frames :=
  pairwise_of_forall_mem_list fun first member _ _ takes => by
    rw [idle first member] at takes
    cases takes

theorem OneAtATime.behind (staged : OneAtATime (action :: rest)) (schedules : action.schedules = true) :
    ∀ frame ∈ rest, frame.inHand = none ∧ frame.origin = none :=
  fun frame member => (pairwise_cons.mp staged).1 frame member schedules

theorem OneAtATime.replace (staged : OneAtATime (action :: rest)) (new : OneAtATime frames)
    (schedules : ∀ frame ∈ frames, frame.schedules = true → action.schedules = true) :
    OneAtATime (frames ++ rest) := by
  refine pairwise_append.mpr ⟨new, (pairwise_cons.mp staged).2, ?_⟩
  intro first member later waits takes
  exact staged.behind (schedules first member takes) later waits

/-- No signal of the key that `m` was reported with has paired that arrived after `m`. -/
def LatestOf (log : List PipelineEvent) (m : Nat) : Prop :=
  ∀ adapter key a n, .reported adapter (some key) m ∈ log → .paired adapter (some key) a n ∈ log → n ≤ m

/-- The event fits the order of arrival after what is logged already. -/
def PipelineEvent.Fits (older : List PipelineEvent) : PipelineEvent → Prop
  | .reported _ _ m => ∀ adapter key a n, .paired adapter key a n ∈ older → n < m
  | .paired adapter (some key) _ n => ∀ a m, .paired adapter (some key) a m ∈ older → m < n
  | .bound _ _ (some m) | .unbound _ _ (some m) => LatestOf older m
  | _ => True

def InOrder : List PipelineEvent → Prop
  | [] => True
  | event :: older => InOrder older ∧ event.Fits older

namespace Core

def ahead (c : Core) (work : List TurnFrame) : List Nat :=
  work.filterMap TurnFrame.inHand ++ c.signals.map (·.seq)

def line (c : Core) (work : List TurnFrame) : List Nat := c.held.map (·.seq) ++ c.ahead work

/-- No held signal of the key arrived before `n`. -/
def Cleared (c : Core) (adapter : AdapterId) (key : PairingKey) (n : Nat) : Prop :=
  ∀ h ∈ c.held, h.adapter = adapter → h.key = key → n < h.seq

/-- The turn is about to clear the key of a signal that paired. -/
structure Pending (given : List Attachment) (c : Core) (key : PairingKey)
    (a : Attachment) (n : Nat) : Prop where
  known : a ∈ given
  observed : ∀ k, c.observedKey a = some k → k = key
  gone : ∀ h ∈ c.held, h.seq ≠ n

structure Arrival (given : List Attachment) (log : List PipelineEvent) (c : Core)
    (work : List TurnFrame) : Prop where
  staged : OneAtATime work
  line : (c.line work).Pairwise (· < ·)
  below : ∀ m ∈ c.line work, m < c.nextSignalSeq
  numbered : ∀ adapter key m, .reported adapter key m ∈ log → m < c.nextSignalSeq
  once : ∀ adapter key adapter' key' m, .reported adapter key m ∈ log →
    .reported adapter' key' m ∈ log → adapter' = adapter ∧ key' = key
  queued : ∀ q ∈ c.signals, .reported q.adapter q.key q.seq ∈ log
  held : ∀ h ∈ c.held, .reported h.adapter (some h.key) h.seq ∈ log
  sound : ∀ frame ∈ work, frame.Sound log
  known : ∀ a key, c.observedKey a = some key → a ∈ given
  passed : ∀ adapter key a n, .paired adapter key a n ∈ log → n < c.nextSignalSeq ∧ ∀ m ∈ c.ahead work, n < m
  cleared : ∀ adapter key a n, .paired adapter (some key) a n ∈ log → c.Cleared adapter key n ∨
    ∃ signal, .supersede adapter signal a n ∈ work ∧ c.Pending given key a n
  acting : ∀ frame ∈ work, ∀ m, frame.origin = some m → LatestOf log m
  ordered : InOrder log

variable {given : List Attachment} {log : List PipelineEvent} {c c' : Core}
  {work rest : List TurnFrame} {action : TurnFrame}

theorem Fewer.ahead (fewer : c.Fewer c') (work : List TurnFrame) : (c'.ahead work).Sublist (c.ahead work) :=
  (Sublist.refl _).append (fewer.signals.map _)

theorem Pending.fewer (pending : c.Pending given key a n) (fewer : c.Fewer c') : c'.Pending given key a n :=
  ⟨pending.known, fun k observed => pending.observed k (fewer.observed a k observed),
    fun h held => pending.gone h (fewer.held.subset held)⟩

theorem Cleared.fewer (cleared : c.Cleared adapter key n) (fewer : c.Fewer c') : c'.Cleared adapter key n :=
  fun h held => cleared h (fewer.held.subset held)

/-- The work may change with the core when no signal comes to the line and each pairing whose key
was to be cleared still waits for it or has it cleared. -/
theorem Arrival.rework (arrival : Arrival given log c work) (fewer : c.Fewer c')
    (staged : OneAtATime work') (ahead : (c'.ahead work').Sublist (c.ahead work))
    (new : ∀ frame ∈ work', frame ∈ work ∨ frame.Sound log ∧ ∀ m, frame.origin = some m → LatestOf log m)
    (clears : ∀ adapter signal a n, .supersede adapter signal a n ∈ work →
      .supersede adapter signal a n ∈ work' ∨ ∀ key, c'.Pending given key a n → c'.Cleared adapter key n) :
    Arrival given log c' work' := by
  have line : (c'.line work').Sublist (c.line work) := (fewer.held.map _).append ahead
  exact { arrival with
    staged := staged
    line := arrival.line.sublist line
    below := fun m member => (arrival.below m (line.subset member)).trans_le fewer.next
    numbered := fun adapter key m reported => (arrival.numbered adapter key m reported).trans_le fewer.next
    queued := fun q queued => arrival.queued q (fewer.signals.subset queued)
    held := fun h held => arrival.held h (fewer.held.subset held)
    known := fun a key observed => arrival.known a key (fewer.observed a key observed)
    sound := fun frame member => (new frame member).elim (arrival.sound frame) And.left
    acting := fun frame member => (new frame member).elim (arrival.acting frame) And.right
    passed := fun adapter key a n paired => by
      obtain ⟨low, before⟩ := arrival.passed adapter key a n paired
      exact ⟨low.trans_le fewer.next, fun m member => before m (ahead.subset member)⟩
    cleared := fun adapter key a n paired => by
      rcases arrival.cleared adapter key a n paired with cleared | ⟨signal, waits, pending⟩
      · exact .inl (cleared.fewer fewer)
      · have pending := pending.fewer fewer
        rcases clears adapter signal a n waits with waits | clears
        · exact .inr ⟨signal, waits, pending⟩
        · exact .inl (clears key pending) }

theorem Arrival.fewer (arrival : Arrival given log c work) (fewer : c.Fewer c') : Arrival given log c' work :=
  arrival.rework fewer arrival.staged (fewer.ahead work) (fun _ member => .inl member)
    fun _ _ _ _ waits => .inl waits

end Core

theorem mem_of_silent {event about : PipelineEvent} (silent : event.aboutSignal = false)
    (signal : about.aboutSignal = true) (member : about ∈ event :: log) : about ∈ log := by
  rcases mem_cons.mp member with rfl | older
  · rw [silent] at signal
    cases signal
  · exact older

theorem LatestOf.note (latest : LatestOf log m)
    (silent : event.aboutSignal = false) : LatestOf (event :: log) m :=
  fun adapter key a n reported paired => latest adapter key a n (mem_of_silent silent rfl reported)
    (mem_of_silent silent rfl paired)

variable {event : PipelineEvent}

theorem PipelineEvent.fits_of_origin
    (silent : event.aboutSignal = false) (latest : ∀ m, event.origin = some m → LatestOf older m) :
    event.Fits older := by
  cases event with
  | bound a session seq =>
    cases seq with
    | none => trivial
    | some m => exact latest m rfl
  | unbound a session seq =>
    cases seq with
    | none => trivial
    | some m => exact latest m rfl
  | reported | paired => cases silent
  | noted | stopped | told => trivial

namespace Core

variable {given : List Attachment} {log : List PipelineEvent} {c c' : Core}
  {work rest : List TurnFrame} {action : TurnFrame}

section

variable (arrival : Arrival given log c work)

include arrival

/-- What is logged about no signal fits when the signal it was done for is the latest. -/
theorem Arrival.note
    (silent : event.aboutSignal = false) (latest : ∀ m, event.origin = some m → LatestOf log m) :
    Arrival given (event :: log) c work where
  __ := arrival
  numbered adapter key m reported := arrival.numbered adapter key m (mem_of_silent silent rfl reported)
  once adapter key adapter' key' m reported reported' :=
    arrival.once adapter key adapter' key' m (mem_of_silent silent rfl reported)
      (mem_of_silent silent rfl reported')
  queued q queued := mem_cons_of_mem event (arrival.queued q queued)
  held h held := mem_cons_of_mem event (arrival.held h held)
  sound frame waits := (arrival.sound frame waits).grow [event]
  passed adapter key a n paired := arrival.passed adapter key a n (mem_of_silent silent rfl paired)
  cleared adapter key a n paired := arrival.cleared adapter key a n (mem_of_silent silent rfl paired)
  acting frame waits m acts := (arrival.acting frame waits m acts).note silent
  ordered := ⟨arrival.ordered, PipelineEvent.fits_of_origin silent latest⟩

theorem Arrival.noteAll
    (silent : ∀ event ∈ events, event.aboutSignal = false ∧ event.origin = origin)
    (latest : ∀ m, origin = some m → LatestOf log m := by simp) : Arrival given (events ++ log) c work := by
  have both : Arrival given (events ++ log) c work ∧ ∀ m, LatestOf log m → LatestOf (events ++ log) m := by
    induction events with
    | nil => exact ⟨arrival, fun _ => id⟩
    | cons event older ih =>
      obtain ⟨arrival, grows⟩ := ih fun event member => silent event (mem_cons_of_mem _ member)
      obtain ⟨quiet, same⟩ := silent event mem_cons_self
      exact ⟨arrival.note quiet fun m acts => grows m (latest m (same ▸ acts)),
        fun m held => (grows m held).note quiet⟩
  exact both.1

theorem Arrival.connect (adapter : AdapterId) (observation : PeerObservation)
    (carrier : Bool) (fresh : a ∉ given) :
    Arrival (a :: given) log (c.connectDesignated a adapter observation carrier) work := by
  have other : ∀ {b}, b ≠ a →
      (c.connectDesignated a adapter observation carrier).observedKey b = c.observedKey b := by
    intro b differs
    simp only [observedKey, connectDesignated]
    split
    · rfl
    · rw [Table.lookup_insert_if, if_neg differs]
  exact { arrival with
    known := fun b key observed => by
      by_cases same : b = a
      · simp [same]
      · exact mem_cons_of_mem a (arrival.known b key (other same ▸ observed))
    cleared := fun ad key b n paired => by
      rcases arrival.cleared ad key b n paired with cleared | ⟨signal, waits, pending⟩
      · exact .inl cleared
      · have differs : b ≠ a := fun same => fresh (same ▸ pending.known)
        refine .inr ⟨signal, waits, mem_cons_of_mem a pending.known, ?_, pending.gone⟩
        rw [other differs]
        exact pending.observed }

theorem Arrival.queue {q : QueuedSignal} (queues : c.Queues c' q) :
    Arrival given (.reported q.adapter q.key q.seq :: log) c' work := by
  have ahead : (c'.ahead work).Sublist (c.ahead work ++ [q.seq]) := by
    simpa [Core.ahead] using (Sublist.refl (work.filterMap TurnFrame.inHand)).append (queues.signals.map (·.seq))
  have line : (c'.line work).Sublist (c.line work ++ [q.seq]) := by
    simpa [Core.line] using (queues.held.map (·.seq)).append ahead
  have older : ∀ {adapter key a n},
      .paired adapter key a n ∈ PipelineEvent.reported q.adapter q.key q.seq :: log →
        .paired adapter key a n ∈ log := by
    intro adapter key a n paired
    simpa using paired
  have number := queues.number
  have next := queues.next
  exact { arrival with
    line := by
      refine Pairwise.sublist line (pairwise_append.mpr ⟨arrival.line, pairwise_singleton _ _, ?_⟩)
      intro m member n last
      cases mem_singleton.mp last
      rw [number]
      exact arrival.below m member
    below := fun m member => by
      rcases mem_append.mp (line.subset member) with old | last
      · have := arrival.below m old
        omega
      · cases mem_singleton.mp last
        omega
    numbered := fun adapter key m reported => by
      rcases mem_cons.mp reported with new | old
      · cases new
        omega
      · have := arrival.numbered adapter key m old
        omega
    once := fun adapter key adapter' key' m reported reported' => by
      rcases mem_cons.mp reported with new | old
      · cases new
        rcases mem_cons.mp reported' with new' | old'
        · cases new'
          exact ⟨rfl, rfl⟩
        · have := arrival.numbered adapter' key' _ old'
          omega
      · rcases mem_cons.mp reported' with new' | old'
        · cases new'
          have := arrival.numbered adapter key _ old
          omega
        · exact arrival.once adapter key adapter' key' m old old'
    queued := fun q' queued => by
      rcases mem_append.mp (queues.signals.subset queued) with old | last
      · exact mem_cons_of_mem _ (arrival.queued q' old)
      · cases mem_singleton.mp last
        exact mem_cons_self
    held := fun h held => mem_cons_of_mem _ (arrival.held h (queues.held.subset held))
    sound := fun frame waits => (arrival.sound frame waits).grow [_]
    known := fun a key observed => arrival.known a key (queues.observed a key observed)
    passed := fun adapter key a n paired => by
      obtain ⟨low, before⟩ := arrival.passed adapter key a n (older paired)
      refine ⟨by omega, fun m member => ?_⟩
      rcases mem_append.mp (ahead.subset member) with old | last
      · exact before m old
      · cases mem_singleton.mp last
        omega
    cleared := fun adapter key a n paired => by
      rcases arrival.cleared adapter key a n (older paired) with cleared | ⟨signal, waits, pending⟩
      · exact .inl fun h held => cleared h (queues.held.subset held)
      · exact .inr ⟨signal, waits, pending.known,
          fun k observed => pending.observed k (queues.observed a k observed),
          fun h held => pending.gone h (queues.held.subset held)⟩
    acting := fun frame waits m acts adapter key a n reported paired => by
      rcases mem_cons.mp reported with new | old
      · have last : m = q.seq := (PipelineEvent.reported.inj new).2.2
        have := (arrival.passed adapter _ a n (older paired)).1
        omega
      · exact arrival.acting frame waits m acts adapter key a n old (older paired)
    ordered := ⟨arrival.ordered, fun adapter key a n paired =>
      number ▸ (arrival.passed adapter key a n paired).1⟩ }

end

/-! The turn goes on. -/

/-- What a frame leaves: frames that take no other signal and act for its signal or none. -/
structure Follows (log : List PipelineEvent) (action : TurnFrame) (frames : List TurnFrame) : Prop where
  staged : OneAtATime frames
  schedules : ∀ frame ∈ frames, frame.schedules = true → action.schedules = true
  inHand : (frames.filterMap TurnFrame.inHand).Sublist ([action].filterMap TurnFrame.inHand)
  sound : ∀ frame ∈ frames, frame.Sound log
  acting : ∀ frame ∈ frames, ∀ m, frame.origin = some m → LatestOf log m

/-- A frame that goes on with the signal of `action`, if it acts for one at all. -/
structure GoesOn (log : List PipelineEvent) (action frame : TurnFrame) : Prop where
  schedules : frame.schedules = false
  inHand : frame.inHand = none
  sound : frame.Sound log
  origin : frame.origin = none ∨ frame.origin = action.origin

theorem Follows.of_goesOn (goesOn : ∀ frame ∈ frames, GoesOn log action frame)
    (acting : ∀ m, action.origin = some m → LatestOf log m) : Follows log action frames where
  staged := .of_idle fun frame member => (goesOn frame member).schedules
  schedules frame member schedules := by
    rw [(goesOn frame member).schedules] at schedules
    cases schedules
  inHand := by
    have none : frames.filterMap TurnFrame.inHand = [] :=
      filterMap_eq_nil_iff.mpr fun frame member => (goesOn frame member).inHand
    rw [none]
    exact nil_sublist _
  sound frame member := (goesOn frame member).sound
  acting frame member m acts := by
    rcases (goesOn frame member).origin with free | same
    · rw [free] at acts
      cases acts
    · exact acting m (same ▸ acts)

theorem Arrival.next (arrival : Arrival given log c (action :: rest))
    (follows : Follows log action frames)
    (other : ∀ adapter signal a n, action ≠ .supersede adapter signal a n) :
    Arrival given log c (frames ++ rest) := by
  refine arrival.rework (.refl _) (arrival.staged.replace follows.staged follows.schedules) ?_ ?_ ?_
  · have inHand := (follows.inHand.append (Sublist.refl (rest.filterMap TurnFrame.inHand))).append
      (Sublist.refl (c.signals.map (·.seq)))
    rwa [← filterMap_append, ← filterMap_append] at inHand
  · intro frame member
    rcases mem_append.mp member with new | old
    · exact .inr ⟨follows.sound frame new, follows.acting frame new⟩
    · exact .inl (mem_cons_of_mem action old)
  · intro adapter signal a n waits
    rcases mem_cons.mp waits with first | later
    · exact absurd first.symm (other adapter signal a n)
    · exact .inl (mem_append_right frames later)

theorem Arrival.goOn (arrival : Arrival given log c (action :: rest)) (fewer : c.Fewer c')
    (goesOn : ∀ frame ∈ frames, GoesOn log action frame := by simp)
    (other : ∀ adapter signal a n, action ≠ .supersede adapter signal a n := by simp) :
    Arrival given log c' (frames ++ rest) :=
  (arrival.next (.of_goesOn goesOn (arrival.acting action mem_cons_self)) other).fewer fewer

theorem Arrival.start (arrival : Arrival given log c work) (inHand : frame.inHand = none)
    (origin : frame.origin = none) (sound : frame.Sound log) (staged : OneAtATime (frame :: work)) :
    Arrival given log c (frame :: work) := by
  have ahead : c.ahead (frame :: work) =
    c.ahead work := by rw [Core.ahead, filterMap_cons_none inHand, Core.ahead]
  refine arrival.rework (.refl _) staged (ahead ▸ .refl _) ?_ fun _ _ _ _ waits =>
    .inl (mem_cons_of_mem frame waits)
  intro f member
  rcases mem_cons.mp member with rfl | old
  · exact .inr ⟨sound, by simp [origin]⟩
  · exact .inl old

theorem Arrival.pop {signals : List QueuedSignal} (arrival : Arrival given log c (action :: rest))
    (schedules : action.schedules = true) (queue : c.signals = q :: signals) :
    Arrival given log { c with signals := signals } (.attemptQueued q now :: .popQueued left now :: rest) := by
  have fewer : c.Fewer { c with signals := signals } :=
    ⟨queue ▸ sublist_cons_self q signals, .refl _, le_rfl, fun _ _ => id⟩
  have staged : OneAtATime [.attemptQueued q now, .popQueued left now] := by
    simp [OneAtATime, TurnFrame.inHand, TurnFrame.origin]
  have idle : rest.filterMap TurnFrame.inHand = [] :=
    filterMap_eq_nil_iff.mpr fun frame member => (arrival.staged.behind schedules frame member).1
  refine arrival.rework fewer (arrival.staged.replace staged fun _ _ _ => schedules) ?_ ?_ ?_
  · simp [Core.ahead, filterMap_cons, TurnFrame.inHand, idle, queue]
  · intro frame member
    simp only [mem_cons] at member
    rcases member with rfl | rfl | old
    · exact .inr ⟨arrival.queued q (queue ▸ mem_cons_self), by rintro m ⟨⟩⟩
    · exact .inr ⟨trivial, by rintro m ⟨⟩⟩
    · exact .inl (mem_cons_of_mem action old)
  · intro adapter signal a n waits
    rcases mem_cons.mp waits with rfl | old
    · cases schedules
    · exact .inl (by simp [old])

theorem Arrival.hold (arrival : Arrival given log c (.holdSignal h :: rest)) :
    Arrival given log (c.holdSignal h) rest := by
  have inHand : h.seq ∈ c.ahead (.holdSignal h :: rest) := by simp [Core.ahead, TurnFrame.inHand]
  have line : (c.holdSignal h).line rest = c.line (.holdSignal h :: rest) := by
    simp [Core.line, Core.ahead, holdSignal, TurnFrame.inHand]
  have ahead : ((c.holdSignal h).ahead rest).Sublist (c.ahead (.holdSignal h :: rest)) := by
    simp [Core.ahead, holdSignal, TurnFrame.inHand]
  exact { arrival with
    staged := (pairwise_cons.mp arrival.staged).2
    line := line ▸ arrival.line
    below := line ▸ arrival.below
    held := fun h' member => by
      rcases mem_append.mp member with old | last
      · exact arrival.held h' old
      · cases mem_singleton.mp last
        exact arrival.sound (.holdSignal h) mem_cons_self
    sound := fun frame member => arrival.sound frame (mem_cons_of_mem _ member)
    passed := fun adapter key a n paired => by
      obtain ⟨low, before⟩ := arrival.passed adapter key a n paired
      exact ⟨low, fun m member => before m (ahead.subset member)⟩
    cleared := fun adapter key a n paired => by
      have before := (arrival.passed adapter key a n paired).2 h.seq inHand
      rcases arrival.cleared adapter key a n paired with cleared | ⟨signal, waits, pending⟩
      · refine .inl fun h' member sameAdapter sameKey => ?_
        rcases mem_append.mp member with old | last
        · exact cleared h' old sameAdapter sameKey
        · cases mem_singleton.mp last
          exact before
      · rcases mem_cons.mp waits with first | later
        · cases first
        · refine .inr ⟨signal, later, pending.known, pending.observed, fun h' member => ?_⟩
          rcases mem_append.mp member with old | last
          · exact pending.gone h' old
          · cases mem_singleton.mp last
            omega
    acting := fun frame member => arrival.acting frame (mem_cons_of_mem _ member) }

/-- What is known of a signal when it pairs. -/
structure Pairs (given : List Attachment) (log : List PipelineEvent) (c : Core)
    (adapter : AdapterId) (key : PairingKey) (a : Attachment) (n : Nat) : Prop where
  reported : .reported adapter (some key) n ∈ log
  later : ∀ b m, .paired adapter (some key) b m ∈ log → m < n
  number : n < c.nextSignalSeq
  before : ∀ q ∈ c.signals, n < q.seq
  pending : c.Pending given key a n

theorem Arrival.pair {key : PairingKey} (arrival : Arrival given log c (action :: rest))
    (schedules : action.schedules = true) (fewer : c.Fewer c') (pairs : Pairs given log c' adapter key a n) :
    Arrival given (.paired adapter (some key) a n :: log) c' (.supersede adapter signal a n :: rest) := by
  have behind := arrival.staged.behind schedules
  have other : ∀ adapter signal a n, action ≠ .supersede adapter signal a n := by
    rintro _ _ _ _ rfl
    cases schedules
  have dropped : Arrival given log c' ([] ++ rest) := arrival.goOn fewer (by simp) other
  have ahead : c'.ahead (.supersede adapter signal a n :: rest) = c'.signals.map (·.seq) := by
    have none : rest.filterMap TurnFrame.inHand = [] :=
      filterMap_eq_nil_iff.mpr fun frame member => (behind frame member).1
    rw [Core.ahead, filterMap_cons_none rfl, none, nil_append]
  exact { dropped with
    staged := pairwise_cons.mpr ⟨fun _ _ takes => Bool.noConfusion takes, dropped.staged⟩
    numbered := fun adapter key m reported => dropped.numbered adapter key m (by simpa using reported)
    once := fun adapter key adapter' key' m reported reported' =>
      arrival.once adapter key adapter' key' m (by simpa using reported) (by simpa using reported')
    queued := fun q member => mem_cons_of_mem _ (dropped.queued q member)
    held := fun h member => mem_cons_of_mem _ (dropped.held h member)
    sound := fun frame member => by
      rcases mem_cons.mp member with rfl | old
      · trivial
      · exact (dropped.sound frame old).grow [_]
    passed := fun ad k b m paired => by
      rcases mem_cons.mp paired with new | old
      · cases new
        rw [ahead]
        exact ⟨pairs.number, forall_mem_map.mpr pairs.before⟩
      · exact dropped.passed ad k b m old
    cleared := fun ad k b m paired => by
      rcases mem_cons.mp paired with new | old
      · cases new
        exact .inr ⟨signal, mem_cons_self, pairs.pending⟩
      · rcases dropped.cleared ad k b m old with cleared | ⟨signal, waits, _⟩
        · exact .inl cleared
        · have free := (behind _ waits).2
          cases free
    acting := fun frame member m acts => by
      rcases mem_cons.mp member with rfl | old
      · cases acts
        intro ad k b l reported paired
        obtain ⟨rfl, same⟩ := arrival.once _ _ _ _ _ pairs.reported (by simpa using reported)
        cases same
        rcases mem_cons.mp paired with new | old
        · cases new
          exact le_rfl
        · exact (pairs.later b l old).le
      · rw [(behind frame old).2] at acts
        cases acts
    ordered := ⟨arrival.ordered, pairs.later⟩ }

/-- The key of a signal that paired is cleared, while its attachment is still observed with it. -/
theorem Arrival.supersede (arrival : Arrival given log c (.supersede adapter signal a n :: rest))
    (observed : c.observedKey a = some key) : Arrival given log (c.supersede adapter a n)
      (.decide adapter signal (.paired a) [] n :: .releaseWithheld a n :: rest) := by
  have core : c.supersede adapter a n = { c.modifyEntry a (notedBy n) with
      held := c.held.filter (!superseded adapter key n ·) } := by
    simp only [Core.supersede, observed]
  have fewer : c.Fewer (c.supersede adapter a n) := by
    rw [core]
    exact ⟨.refl _, filter_sublist, le_rfl, fun _ _ => id⟩
  have staged : OneAtATime [.decide adapter signal (.paired a) [] n, .releaseWithheld a n] := by
    simp [OneAtATime, TurnFrame.schedules]
  refine arrival.rework fewer (arrival.staged.replace staged (by simp [TurnFrame.schedules]))
    (fewer.ahead rest) ?_ ?_
  · intro frame member
    simp only [mem_cons] at member
    rcases member with rfl | rfl | old
    · exact .inr ⟨trivial, arrival.acting (.supersede adapter signal a n) mem_cons_self⟩
    · exact .inr ⟨trivial, by rintro m ⟨⟩⟩
    · exact .inl (mem_cons_of_mem _ old)
  · intro ad signal' b m waits
    rcases mem_cons.mp waits with first | later
    · cases first
      -- The pairing that this frame clears: its held signals are gone or arrived later.
      refine .inr fun k pending h member sameAdapter sameKey => ?_
      rw [core] at pending member
      have same : key = k := pending.observed key observed
      have kept := (mem_filter.mp member).2
      have distinct := pending.gone h member
      simp only [superseded, sameAdapter, sameKey, same, beq_self_eq_true,
        Bool.true_and, Bool.not_eq_true', decide_eq_false_iff_not] at kept
      omega
    · exact .inl (by simp [later])

end Core

end Oac
