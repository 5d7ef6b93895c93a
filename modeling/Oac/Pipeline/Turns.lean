import Oac.Pipeline.Sections

/-! How the binding turn and the threads go on from step to step. Only its holder adds frames to the
turn, and a thread's frames are its own, so what waiting frames promise is shown frame by frame. -/

namespace Oac

open List hiding after getElem?_eq_some_iff

def TurnFrame.tells : TurnFrame → Option (Attachment × Option SessionId)
  | .plain (.setUnbound a) => some (a, none)
  | .setBound a session => some (a, some session)
  | _ => none

/-- The `set_binding` call a step makes. -/
def Label.tells (label : Label) (w : Pipelines) : Option (Attachment × Option SessionId) :=
  (label.frame w).bind (·.1.tells)

def PipelineEvent.told? : PipelineEvent → Option (Attachment × Option SessionId)
  | .told a session => some (a, session)
  | _ => none

namespace Pipelines

/-- The `set_binding` calls made so far, newest first. -/
def tolds (w : Pipelines) : List (Attachment × Option SessionId) :=
  w.log.filterMap PipelineEvent.told?

variable {p : PipelineSetup} {label : Label} {w w' : Pipelines} {x : Ext}

theorem perform_turn (p : PipelineSetup) (x : Ext) (w : Pipelines) (action : Frame) :
    (w.perform p x action).1.turn = w.turn ∨
      (w.turn = none ∧ (w.perform p x action).1.turn = some ⟨[.passStart], [.drainMore]⟩) := by
  cases action with
  | drainBinding =>
    simp only [perform]
    split
    · exact .inl rfl
    · next free => exact .inr ⟨free, rfl⟩
  | withhold a seq =>
    simp only [perform]
    split
    · exact .inl rfl
    · exact .inl rfl
  | request adapter a now =>
    simp only [perform]
    split
    · exact .inl rfl
    · exact .inl rfl
  | _ => exact .inl rfl

/-- Every frame the turn still has to run satisfies `P` of the log. -/
def TurnHolds (P : List PipelineEvent → TurnFrame → Prop) (w : Pipelines) : Prop :=
  ∀ turn, w.turn = some turn → ∀ frame ∈ turn.work, P w.log frame

theorem TurnHolds.frame {frame : TurnFrame} (holds : TurnHolds P w) (runs : label.frame w = some (frame, x))
    (own : ∀ action, frame ≠ .plain action) : P w.log frame := by
  revert runs
  fun_cases Label.frame <;> rintro ⟨⟩
  · exact absurd rfl (own _)
  · next holding => exact holds _ holding _ (by simp)

/-- A frame that waits after a step waited before, belongs to the thread the step started, or was
left by the frame that ran. -/
inductive WaitsFrom (p : PipelineSetup) (label : Label) (w : Pipelines) (frame : Frame) : Prop
  | waited (waits : Threads.Waits w.threads frame)
  | spawned (new : frame ∈ spawned p w label)
  | left (i : Nat) (x : Ext) (action : Frame) (rest : List Frame) (ran : label = .run i x)
      (running : w.threads[i]? = some (action :: rest)) (added : frame ∈ (w.perform p x action).2)

/-- Handles closed and given are as they were, and these calls have been made. -/
structure Aside (calls : List (Attachment × Option SessionId)) (w w' : Pipelines) : Prop where
  closedHandles : w'.closedHandles = w.closedHandles
  given : w'.given = w.given
  tolds : w'.tolds = calls ++ w.tolds

theorem stopUnconfirmed_aside (w : Pipelines) (now : Timestamp) (adapter : AdapterId)
    (a : Attachment) : Aside [] w (w.stopUnconfirmed now adapter a).1 := by
  refine ⟨rfl, rfl, ?_⟩
  simp only [stopUnconfirmed, noteAll, tolds]
  cases ((w.locked now).core.stopUnconfirmed adapter a).2 with
  | none | some => rfl

theorem perform_aside (p : PipelineSetup) (x : Ext) (w : Pipelines) (action : Frame) :
    (w.perform p x action).1.threads = w.threads ∧
      Aside (TurnFrame.plain action).tells.toList w (w.perform p x action).1 := by
  cases action with
  | drainBinding | withhold | request =>
    simp only [perform]
    split
    · exact ⟨rfl, rfl, rfl, rfl⟩
    · exact ⟨rfl, rfl, rfl, rfl⟩
  | stopUnconfirmed adapter a => exact ⟨rfl, stopUnconfirmed_aside w x.now adapter a⟩
  | _ => exact ⟨rfl, rfl, rfl, rfl⟩

theorem reportLocal_aside (p : PipelineSetup) (w : Pipelines) (adapter : AdapterId) (now : Instant)
    (clock : Timestamp) (event : AdapterEvent) : (w.reportLocal p adapter now clock event).turn = w.turn ∧
      Aside [] w (w.reportLocal p adapter now clock event) := by
  cases event with
  | attachmentClosed a =>
    simp only [reportLocal]
    split
    · exact ⟨rfl, rfl, rfl, rfl⟩
    · exact ⟨rfl, rfl, rfl, rfl⟩
  | attachmentUnconfirmed a => exact ⟨rfl, rfl, rfl, (stopUnconfirmed_aside w clock adapter a).tolds⟩
  | _ => exact ⟨rfl, rfl, rfl, rfl⟩

/-- Where the stack of thread `j` after a step comes from. -/
inductive ThreadFrom (p : PipelineSetup) (label : Label) (w : Pipelines) (j : Nat) (stack : List Frame) : Prop
  | kept (same : w.threads[j]? = some stack) (other : ∀ x, label ≠ .run j x)
  | spawned (new : stack = spawned p w label) (other : ∀ i x, label ≠ .run i x)
  | ran (x : Ext) (action : Frame) (rest : List Frame) (ran : label = .run j x)
      (running : w.threads[j]? = some (action :: rest)) (left : stack = (w.perform p x action).2 ++ rest)

/-- What a step does to the threads. -/
inductive ThreadsChange (p : PipelineSetup) (label : Label) (w w' : Pipelines) : Prop
  | kept (same : w'.threads = w.threads) (other : ∀ i x, label ≠ .run i x)
  | spawned (new : w'.threads = Threads.spawn w.threads (Pipelines.spawned p w label))
      (other : ∀ i x, label ≠ .run i x)
  | ran (i : Nat) (x : Ext) (action : Frame) (rest : List Frame) (ran : label = .run i x)
      (running : w.threads[i]? = some (action :: rest))
      (left : w'.threads = Threads.advance w.threads i (w.perform p x action).2 rest)

variable [Libraries]

/-- What a step does to the binding turn. -/
inductive TurnChange (p : PipelineSetup) (label : Label) (w w' : Pipelines) : Prop
  | kept (turn : w'.turn = w.turn)
  | started (free : w.turn = none) (turn : w'.turn = some ⟨[.passStart], [.drainMore]⟩)
  | binding (a record displayName) (free : w.turn = none)
      (turn : w'.turn = some ⟨[.bindCheck a record displayName none], [.drainBinding]⟩)
  | ran (x action rest after w₁ frames) (ran : label = .turn x) (holding : w.turn = some ⟨action :: rest, after⟩)
      (performed : w.performTurn p x action = some (w₁, frames))
      (left : w' = { w₁ with turn := some ⟨frames ++ rest, after⟩ })
  | released (after : List Frame) (holding : w.turn = some ⟨[], after⟩) (turn : w'.turn = none)

theorem step_turn (stepped : step p label w = some w') : TurnChange p label w w' := by
  cases step_stepped stepped with
  | spawns | updates | connected | closed => exact .kept rfl
  | reported => exact .kept (reportLocal_aside p w _ _ _ _).1
  | binds free => exact .binding _ _ _ free rfl
  | ran =>
    rcases perform_turn p _ w _ with kept | ⟨free, started⟩
    · exact .kept kept
    · exact .started free started
  | turned holding performed => exact .ran _ _ _ _ _ _ rfl holding performed rfl
  | released holding => exact .released _ holding rfl

/-- What holds of the frames that follow a turn when it starts holds of them in every state. -/
theorem step_after {P : Frame → Prop} (stepped : step p label w = some w')
    (holds : ∀ turn, w.turn = some turn → ∀ frame ∈ turn.after, P frame) (more : P .drainMore)
    (drains : P .drainBinding) : ∀ turn, w'.turn = some turn → ∀ frame ∈ turn.after, P frame := by
  intro turn held frame member
  cases step_turn stepped with
  | kept same => exact holds turn (same ▸ held) frame member
  | started free same =>
    cases same.symm.trans held
    cases mem_singleton.mp member
    exact more
  | binding a record displayName free same =>
    cases same.symm.trans held
    cases mem_singleton.mp member
    exact drains
  | ran x action rest after w₁ frames ran holding performed left =>
    subst left
    cases held
    exact holds _ holding frame member
  | released after holding same =>
    rw [same] at held
    cases held

theorem step_log (stepped : step p label w = some w') : ∃ events, w'.log = events ++ w.log := by
  obtain ⟨c, events, finds, section_, log⟩ := step_explained stepped
  exact ⟨events, log⟩

theorem performTurn_log (holding : w.turn = some ⟨action :: rest, after⟩)
    (performed : w.performTurn p x action = some (w', frames)) : ∃ events, w'.log = events ++ w.log := by
  have frame : (Label.turn x).frame w = some (action, x) := by simp [Label.frame, holding]
  obtain ⟨c, events, finds, section_, log⟩ := performTurn_explained frame performed
  exact ⟨events, log⟩

/-- A property of the turn's frames that the log cannot take away and that each frame passes on to
the frames it adds holds of them in every state. -/
theorem TurnHolds.step (holds : TurnHolds P w)
    (grows : ∀ events log frame, P log frame → P (events ++ log) frame)
    (starts : ∀ log, P log .passStart)
    (binds : ∀ log a record displayName, P log (.bindCheck a record displayName none))
    (adds : ∀ x action rest after w₁ frames, w.turn = some ⟨action :: rest, after⟩ →
      w.performTurn p x action = some (w₁, frames) → P w.log action → ∀ frame ∈ frames, P w₁.log frame)
    (stepped : step p label w = some w') : TurnHolds P w' := by
  obtain ⟨events, log⟩ := step_log stepped
  intro turn held frame waiting
  cases step_turn stepped with
  | kept same =>
    rw [log]
    exact grows _ _ _ (holds turn (same ▸ held) frame waiting)
  | started free same =>
    cases same.symm.trans held
    cases mem_singleton.mp waiting
    exact starts _
  | binding a record displayName free same =>
    cases same.symm.trans held
    cases mem_singleton.mp waiting
    exact binds _ _ _ _
  | ran x action rest after w₁ frames ran holding performed left =>
    subst left
    cases held
    rcases mem_append.mp waiting with added | later
    · exact adds x action rest after w₁ frames holding performed (holds _ holding action (by simp)) frame added
    · rw [log]
      exact grows _ _ _ (holds _ holding frame (by simp [later]))
  | released after holding same =>
    rw [same] at held
    cases held

/-- Which frames a frame of the turn may leave. -/
inductive Leaves : TurnFrame → TurnFrame → Prop
  | plain : Leaves (.plain action) (.plain left)
  | expire : Leaves .passStart (.passExpire now)
  | drop : Leaves (.passExpire now) (.plain left)
  | list : Leaves (.passExpire now) (.listHeld queued now)
  | held : Leaves (.listHeld queued now) (.decideHeld seq)
  | queue : Leaves (.listHeld queued now) (.popQueued queued now)
  | resolve (resolves : frame ∈ Oac.resolve adapter signal attempt seq) : Leaves (.decideHeld seq) frame
  | take : Leaves (.popQueued (left + 1) now) (.attemptQueued q now)
  | again : Leaves (.popQueued (left + 1) now) (.popQueued left now)
  | count : Leaves (.attemptQueued q now) (.notePaired a)
  | resolveQueued (resolves : frame ∈ Oac.resolve q.adapter q.signal attempt q.seq) :
      Leaves (.attemptQueued q now) frame
  | hold : Leaves (.attemptQueued q now) (.holdSignal h)
  | dropQueued : Leaves (.attemptQueued q now) (.plain left)
  | decide : Leaves (.supersede adapter signal a seq) (.decide adapter signal (.paired a) [] seq)
  | release : Leaves (.supersede adapter signal a seq) (.releaseWithheld a seq)
  | attributes : Leaves (.decide adapter signal pairing attributed seq) (.plain (.withhold a seq))
  | act (target : ∀ a, action.target = some a → pairing = .paired a) (acts : frame ∈ actOn action seq) :
      Leaves (.decide adapter signal pairing attributed seq) frame
  | record : Leaves (.bindFromSignal a nativeId seq) (.bindCheck a record none (some seq))
  | describe : Leaves (.bindCheck a record displayName seq) (.describe a record displayName seq limit)
  | register : Leaves (.describe a record displayName seq limit) (.bindRecord a record descriptor seq)
  | tell : Leaves (.bindRecord a record descriptor seq) (.setBound a record.sessionId)
  | tellAgain : Leaves (.releaseWithheld a seq) (.setBound a session)

theorem performTurn_leaves (performed : w.performTurn p x action = some left) :
    ∀ frame ∈ left.2, Leaves action frame := by
  intro frame added
  revert performed
  fun_cases performTurn p x w action <;> rintro ⟨⟩
  all_goals simp only [mem_append, mem_map, mem_cons, not_mem_nil, or_false] at added
  -- Where one frame follows, the frame and what follows it name the constructor.
  all_goals try (subst added; constructor; done)
  · obtain ⟨left, _, rfl⟩ := added
    exact .plain
  · rcases added with ⟨left, _, rfl⟩ | rfl
    · exact .drop
    · exact .list
  · rcases added with ⟨h, _, rfl⟩ | rfl
    · exact .held
    · exact .queue
  · exact .resolve added
  · rcases added with rfl | rfl
    · exact .take
    · exact .again
  · next q _ _ _ _ counts =>
    rcases added with counted | resolved
    · simp only [counts] at counted
      split at counted
      · cases mem_singleton.mp counted
        exact .count
      · cases counted
    · exact .resolveQueued resolved
  · subst added
    exact .hold
  · exact .resolveQueued added
  · obtain ⟨left, _, rfl⟩ := added
    exact .dropQueued
  · obtain ⟨left, _, rfl⟩ := added
    exact .dropQueued
  · rcases added with rfl | rfl
    · exact .decide
    · exact .release
  · rcases added with ⟨a, _, rfl⟩ | acting
    · exact .attributes
    · exact .act (fun a target => decideBinding_target target) acting
  · split at added
    · cases added
    · cases mem_singleton.mp added
      exact .tell

theorem performTurn_aside (performed : w.performTurn p x action = some left) :
    left.1.threads = w.threads ∧ Aside action.tells.toList w left.1 := by
  revert performed
  fun_cases performTurn p x w action <;> rintro ⟨⟩
  case case1 action w' frames made => simpa only [made] using perform_aside p x w action
  case case6 attempt _ _ _ => cases attempt <;> exact ⟨rfl, rfl, rfl, rfl⟩
  all_goals exact ⟨rfl, rfl, rfl, rfl⟩

section

variable (stepped : step p label w = some w')

include stepped

theorem step_threads : ThreadsChange p label w w' := by
  have idle : label.runs = false → ∀ i x, label ≠ .run i x := by
    rintro aside i x rfl
    cases aside
  cases step_stepped stepped with
  | spawns aside => exact .spawned rfl (idle aside)
  | updates now adapters engine registry aside => exact .kept rfl (idle aside)
  | connected | closed | binds => exact .kept rfl (idle rfl)
  | @reported adapter event now clock =>
    cases event with
    | attachmentClosed a =>
      simp only [reportLocal]
      split
      · exact .spawned rfl (idle rfl)
      · exact .kept rfl (idle rfl)
    | _ => exact .spawned rfl (idle rfl)
  | ran running => exact .ran _ _ _ _ rfl running (by rw [(perform_aside p _ w _).1])
  | turned holding performed => exact .kept (performTurn_aside performed).1 (by rintro _ _ ⟨⟩)
  | released holding => exact .spawned (by simp [spawn, spawned, holding]) (idle rfl)

theorem step_waits (waits : Threads.Waits w'.threads frame) :
    WaitsFrom p label w frame := by
  cases step_threads stepped with
  | kept same other => exact .waited (same ▸ waits)
  | spawned new other =>
    rw [new] at waits
    rcases Threads.waits_spawn.mp waits with old | added
    · exact .waited old
    · exact .spawned added
  | ran i x action rest ran running left =>
    rw [left] at waits
    rcases Threads.waits_advance running waits with added | old
    · exact .left i x action rest ran running added
    · exact .waited old

theorem step_thread (found : w'.threads[j]? = some stack) :
    ThreadFrom p label w j stack := by
  cases step_threads stepped with
  | kept same other => exact .kept (same ▸ found) (other j)
  | spawned new other =>
    rw [new, Threads.spawn, getElem?_append] at found
    split at found
    · exact .kept found (other j)
    · exact .spawned (mem_singleton.mp (mem_of_getElem? found)) other
  | ran i x action rest ran running left =>
    rw [left, Threads.advance, getElem?_set] at found
    split at found
    · next same =>
      subst same
      split at found
      · exact .ran x action rest ran running (Option.some.inj found).symm
      · cases found
    · next other =>
      refine .kept found fun y same => other ?_
      cases ran.symm.trans same
      rfl

theorem step_other (held : w.threads[j]? = some stack)
    (other : ∀ x, label ≠ .run j x) : w'.threads[j]? = some stack := by
  cases step_threads stepped with
  | kept same _ => exact same ▸ held
  | spawned new _ =>
    rw [new, Threads.spawn, getElem?_append_left (List.getElem?_eq_some_iff.mp held).1]
    exact held
  | ran i x action rest ran running left =>
    have elsewhere : i ≠ j := by
      rintro rfl
      exact other x ran
    rw [left, Threads.advance, getElem?_set_ne elsewhere]
    exact held

theorem step_closedHandles : w.closedHandles ⊆ w'.closedHandles := by
  cases step_stepped stepped with
  | closed a => exact subset_cons_self a _
  | reported => exact (reportLocal_aside p w _ _ _ _).2.closedHandles ▸ Subset.refl _
  | ran => exact (perform_aside p _ w _).2.closedHandles ▸ Subset.refl _
  | turned holding performed => exact (performTurn_aside performed).2.closedHandles ▸ Subset.refl _
  | _ => exact Subset.refl _

/-- A step makes the call of its frame and no other. -/
theorem step_tolds : w'.tolds = (label.tells w).toList ++ w.tolds := by
  cases step_stepped stepped with
  | spawns aside | updates _ _ _ _ aside =>
    rw [Label.tells, Label.frame_aside aside]
    rfl
  | reported => exact (reportLocal_aside p w _ _ _ _).2.tolds
  | ran running =>
    simp only [Label.tells, Label.frame, running]
    exact (perform_aside p _ w _).2.tolds
  | turned holding performed =>
    simp only [Label.tells, Label.frame, holding]
    exact (performTurn_aside performed).2.tolds
  | connected | closed | binds | released => rfl

theorem step_given : w.given ⊆ w'.given := by
  obtain ⟨c, events, finds, section_, -⟩ := step_explained stepped
  generalize w'.core = core, w'.given = given at section_
  cases section_ with
  | connected a => exact subset_cons_self a _
  | _ => exact Subset.refl _

end

end Pipelines

end Oac
