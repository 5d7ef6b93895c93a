import Oac.Pipeline.Consistency
import Oac.Pipeline.Turns

/-! What the core has told an adapter about an attachment. A bound attachment that is not withheld
was told last with its own session, unless the holder of the binding turn is just about to tell it;
calls that name no session may come at any time. -/

namespace Oac

open Table TurnFrame
open List hiding after

/-- The session of the newest call in `calls`, newest first, that names one for the attachment. -/
def namedFor (calls : List (Attachment × Option SessionId)) (a : Attachment) : Option SessionId :=
  calls.findSome? fun call => if call.1 = a then call.2 else none

theorem namedFor_cons (a b : Attachment) (x : Option SessionId)
    (calls : List (Attachment × Option SessionId)) :
    namedFor ((b, x) :: calls) a = if b = a then x.or (namedFor calls a) else namedFor calls a := by
  by_cases same : b = a
  · cases x with
    | none | some => simp [namedFor, same]
  · simp [namedFor, same]

theorem namedFor_append (newer : List (Attachment × Option SessionId))
    (same : namedFor calls a = namedFor calls' a) :
    namedFor (newer ++ calls) a = namedFor (newer ++ calls') a := by
  unfold namedFor at same ⊢
  rw [findSome?_append, findSome?_append, same]

theorem namedFor_of_lookup (latest : calls.lookup a = some (some s)) : namedFor calls a = some s := by
  induction calls with
  | nil => cases latest
  | cons call older ih =>
    obtain ⟨b, x⟩ := call
    rw [namedFor_cons]
    by_cases same : b = a
    · subst same
      rw [lookup_cons_self] at latest
      cases latest
      simp
    · rw [if_neg same]
      have other : (a == b) = false := by simpa using Ne.symm same
      rw [lookup_cons, other] at latest
      exact ih latest

theorem namedFor_unnamed (unnamed : ∀ a s, call ≠ some (a, some s)) (b : Attachment) :
    namedFor (call.toList ++ calls) b = namedFor calls b := by
  cases call with
  | none => rfl
  | some call =>
    obtain ⟨a, x⟩ := call
    cases x with
    | none =>
      rw [Option.toList_some, singleton_append, namedFor_cons]
      split
      · rfl
      · rfl
    | some s => exact absurd rfl (unnamed a s)

namespace Core

/-- Every binding served in `c'` was one in `c`, and none is served anew. -/
def Narrows (c c' : Core) : Prop :=
  ∀ a e' s, c'.attachments.lookup a = some e' → e'.session = some s →
    ∃ e, c.attachments.lookup a = some e ∧ e.session = some s ∧ (e'.withheld = false → e.withheld = false)

variable {c c' c'' : Core} {a : Attachment}

theorem Narrows.of_eq (same : c'.attachments = c.attachments) : c.Narrows c' :=
  fun _ e _ held bound => ⟨e, same ▸ held, bound, id⟩

theorem Narrows.trans (first : c.Narrows c') (second : c'.Narrows c'') : c.Narrows c'' := by
  intro a e'' s held bound
  obtain ⟨e', held', bound', served'⟩ := second a e'' s held bound
  obtain ⟨e, before, bound, served⟩ := first a e' s held' bound'
  exact ⟨e, before, bound, fun free => served (served' free)⟩

theorem Narrows.of_lookup (changed : ∀ b, c'.attachments.lookup b = if b = a then f
    else c.attachments.lookup b) (here : ∀ e' s, f = some e' → e'.session = some s →
      ∃ e, c.attachments.lookup a = some e ∧ e.session = some s ∧ (e'.withheld = false → e.withheld = false)) :
    c.Narrows c' := by
  intro b e' s held bound
  rw [changed] at held
  split at held
  · next same => exact same ▸ here e' s held bound
  · exact ⟨e', held, bound, id⟩

theorem forgetConnection_narrows (c : Core) (a : Attachment) : c.Narrows (c.forgetConnection a) :=
  Narrows.of_lookup (fun b => lookup_erase_if a b _) (by rintro _ _ ⟨⟩)

theorem applyClosure_narrows (c : Core) (a : Attachment) (adapter : AdapterId) (now : Timestamp) :
    c.Narrows (c.applyClosure a adapter now) := by
  fun_cases applyClosure
  · exact .of_eq rfl
  · have forgotten := c.forgetConnection_narrows a
    exact forgotten
  · exact c.forgetConnection_narrows a

theorem modifyEntry_narrows (c : Core) (a : Attachment)
    (session : ∀ e s, (f e).session = some s → e.session = some s)
    (served : ∀ e, (f e).session.isSome → (f e).withheld = false → e.withheld = false) :
    c.Narrows (c.modifyEntry a f) := by
  refine Narrows.of_lookup (fun b => lookup_modify_if a b f _) fun e' s changed bound => ?_
  obtain ⟨e, held, rfl⟩ := Option.map_eq_some_iff.mp changed
  exact ⟨e, held, session e s bound, served e (by simp [bound])⟩

end Core

theorem Label.frame_plain {label : Label} {frame : TurnFrame} (other : ∀ y, label ≠ .turn y)
    (runs : label.frame w = some (frame, x)) : ∃ action, frame = .plain action := by
  cases label with
  | run i y =>
    simp only [Label.frame] at runs
    split at runs
    · cases runs
      exact ⟨_, rfl⟩
    · cases runs
  | turn y => exact absurd rfl (other y)
  | _ => cases runs

def TurnFrame.serves : TurnFrame → Bool
  | .bindRecord _ _ _ _ | .releaseWithheld _ _ => true
  | _ => false

namespace Pipelines

variable {p : PipelineSetup} {label : Label} {w w' : Pipelines} {x : Ext} {c c' : Core}

/-- The binding that the holder of the turn is about to tell the adapter. -/
def telling (w : Pipelines) : Option (Attachment × SessionId) :=
  match w.turn with
  | some ⟨.setBound a session :: _, _⟩ => some (a, session)
  | _ => none

theorem locked_narrows (w : Pipelines) (now : Timestamp) : w.core.Narrows (w.locked now).core := by
  unfold locked
  generalize w.closures.pending.entries = pending
  generalize w.core = core
  induction pending generalizing core with
  | nil => exact .of_eq rfl
  | cons e rest ih => exact (core.applyClosure_narrows e.1 e.2 now).trans (ih _)

theorem Finds.narrows (finds : Finds w c) : w.core.Narrows c := by
  cases finds with
  | unlocked => exact .of_eq rfl
  | locked now => exact w.locked_narrows now

/-- A served binding was told last, among the calls that name a session, or is about to be told. -/
structure Tells (w : Pipelines) : Prop where
  first : ∀ turn, w.turn = some turn → ∀ a s, .setBound a s ∉ turn.work.tail
  told : ∀ a e s, w.core.attachments.lookup a = some e → e.session = some s → e.withheld = false →
    w.telling = some (a, s) ∨ namedFor w.tolds a = some s
  current : ∀ a s, w.telling = some (a, s) → ∀ e t, w.core.attachments.lookup a = some e →
    e.session = some t → t = s

theorem telling_eq_some : w.telling = some (a, s) ↔ ∃ rest after,
    w.turn = some ⟨.setBound a s :: rest, after⟩ := by
  unfold telling
  split
  · next b t rest after holding => simp [holding, eq_comm]
  · next other =>
    constructor
    · intro found
      cases found
    · rintro ⟨rest, after, holding⟩
      exact absurd holding (other a s rest after)

/-- Steps of the other threads: no binding is served anew and no session is named. -/
theorem Tells.of_narrows (tells : w.Tells) (narrows : w.core.Narrows w'.core)
    (named : ∀ a, namedFor w'.tolds a = namedFor w.tolds a) (telling : w'.telling = w.telling)
    (first : ∀ turn, w'.turn = some turn → ∀ a s, .setBound a s ∉ turn.work.tail) : w'.Tells := by
  refine ⟨first, fun a e' s held bound served => ?_, fun a s about e' t held bound => ?_⟩
  · obtain ⟨e, before, bound, free⟩ := narrows a e' s held bound
    rw [telling, named]
    exact tells.told a e s before bound (free served)
  · obtain ⟨e, before, bound, -⟩ := narrows a e' t held bound
    exact tells.current a s (telling ▸ about) e t before bound

theorem telling_none_of_work {work : List TurnFrame} (turn : w.turn = some ⟨work, after⟩)
    (free : ∀ a s, .setBound a s ∉ work) : w.telling = none := by
  cases about : w.telling with
  | none => rfl
  | some call =>
    obtain ⟨a, s⟩ := call
    obtain ⟨rest, later, holding⟩ := telling_eq_some.mp about
    cases turn.symm.trans holding
    exact absurd mem_cons_self (free a s)

theorem setBound_tells (holding : w.turn = some ⟨.setBound a s :: rest, after⟩) (tells : w.Tells) :
    Tells { w.note (.told a (some s)) with turn := some ⟨rest, after⟩ } := by
  have about : w.telling = some (a, s) := telling_eq_some.mpr ⟨rest, after, holding⟩
  have free : ∀ b t, .setBound b t ∉ rest := tells.first _ holding
  have calls : Pipelines.tolds { w.note (.told a (some s)) with turn := some ⟨rest, after⟩ } =
    (a, some s) :: w.tolds := rfl
  have silent : Pipelines.telling { w.note (.told a (some s)) with turn := some ⟨rest, after⟩ } = none :=
    telling_none_of_work rfl free
  refine ⟨fun turn held b t waiting => ?_, fun b e t held bound served => .inr ?_, fun b t about' => ?_⟩
  · cases held
    exact free b t (mem_of_mem_tail waiting)
  · rw [calls, namedFor_cons]
    by_cases same : a = b
    · subst same
      rw [tells.current a s about e t held bound]
      simp
    · rw [if_neg same]
      rcases tells.told b e t held bound served with pending | named
      · cases about.symm.trans pending
        exact absurd rfl same
      · exact named
  · rw [silent] at about'
    cases about'

theorem telling_silent (holding : w.turn = some ⟨action :: rest, after⟩)
    (unnamed : ∀ a s, action ≠ .setBound a s) : w.telling = none := by
  fun_cases telling
  · next b t _ _ named =>
    cases holding.symm.trans named
    exact absurd rfl (unnamed b t)
  · rfl

/-- The turn runs a frame that serves no binding and leaves none that names one to the adapter. -/
theorem Tells.ran {w₁ : Pipelines} (tells : w.Tells) (holding : w.turn = some ⟨action :: rest, after⟩)
    (unnamed : ∀ a s, action ≠ .setBound a s) (narrows : w.core.Narrows w₁.core)
    (named : ∀ a, namedFor w₁.tolds a = namedFor w.tolds a) (added : ∀ a s, .setBound a s ∉ frames) :
    Tells { w₁ with turn := some ⟨frames ++ rest, after⟩ } := by
  have free : ∀ a s, .setBound a s ∉ frames ++ rest := fun a s waiting =>
    (mem_append.mp waiting).elim (added a s) (tells.first _ holding a s)
  refine tells.of_narrows narrows named ?_ fun turn held a s waiting => ?_
  · rw [telling_silent holding unnamed]
    exact telling_none_of_work rfl free
  · cases held
    exact free a s (mem_of_mem_tail waiting)

/-- A binding is made or served again. The turn then tells it first, unless it is withheld or was
told before. -/
theorem serve_tells {w₁ : Pipelines} (now : Timestamp) (holding : w.turn = some ⟨action :: rest, after⟩)
    (unnamed : ∀ b t, action ≠ .setBound b t) (tells : w.Tells) (log : w₁.tolds = w.tolds)
    (changed : ∀ b, w₁.core.attachments.lookup b =
      if b = a then some e' else (w.locked now).core.attachments.lookup b)
    (left : frames = [] ∨ ∃ s, frames = [.setBound a s] ∧ e'.session = some s)
    (told : ∀ s, e'.session = some s → e'.withheld = false →
      frames = [.setBound a s] ∨ namedFor w.tolds a = some s) :
    Tells { w₁ with turn := some ⟨frames ++ rest, after⟩ } := by
  have free : ∀ b t, .setBound b t ∉ rest := tells.first _ holding
  have silent := telling_silent holding unnamed
  refine ⟨fun turn held b t waiting => ?_, fun b e t held bound served => ?_,
    fun b t about e u held bound => ?_⟩
  · cases held
    rcases left with rfl | ⟨s, rfl, -⟩
    · exact free b t (mem_of_mem_tail waiting)
    · exact free b t waiting
  · simp only [changed] at held
    split at held
    · next same =>
      subst same
      cases held
      rcases told t bound served with rfl | named
      · exact .inl (telling_eq_some.mpr ⟨rest, after, rfl⟩)
      · refine .inr ?_
        rw [← log] at named
        exact named
    · obtain ⟨e₀, before, bound, free⟩ := w.locked_narrows now b e t held bound
      rcases tells.told b e₀ t before bound (free served) with pending | named
      · rw [silent] at pending
        cases pending
      · refine .inr ?_
        rw [← log] at named
        exact named
  · obtain ⟨rest', after', holding'⟩ := telling_eq_some.mp about
    rcases left with rfl | ⟨s, rfl, session⟩
    · cases holding'
      exact absurd mem_cons_self (free b t)
    · cases holding'
      simp only [changed, if_pos] at held
      cases held
      cases session.symm.trans bound
      rfl

theorem new_tells (engine : AuthorizationEngine) (caps : Option TransportCapabilities) :
    (new engine p caps).Tells := by
  refine ⟨fun turn held => ?_, fun a e s held => ?_, fun a s about => ?_⟩
  · cases held
  · cases held
  · cases about

variable [Libraries]

theorem section_narrows {given : List Attachment}
    (other : ∀ frame x, label.frame w = some (frame, x) → frame.serves = false)
    (section_ : Section p label w c c' events given) : c.Narrows c' := by
  cases section_ with
  | quiet same => exact .of_eq same.attachments
  | connected | described => exact .of_eq rfl
  | opened _ a =>
    refine .of_lookup (fun b => lookup_insert_if a b _ _) fun e' s new bound => ?_
    cases new
    cases bound
  | closed a => exact c.modifyEntry_narrows a (fun _ _ bound => bound) fun _ _ served => served
  | noted a seq =>
    have narrows := c.modifyEntry_narrows a (f := Core.notedBy seq)
      (fun _ _ bound => bound) fun _ _ served => served
    exact narrows
  | stopped a e _ _ held =>
    refine .of_lookup (fun b => lookup_insert_if a b _ _) fun e' s new bound => ?_
    cases new
    refine ⟨e, held, bound, fun served => ?_⟩
    exact (Bool.or_eq_false_iff.mp served).1
  | forgot x a frame => exact Core.forgetConnection_narrows _ a
  | unbound x a =>
    have narrows := (w.locked x.now).core.modifyEntry_narrows a
      (f := fun e => { e with session := none, nativeId := none, withheld := false })
      (by rintro _ _ ⟨⟩) (by rintro _ ⟨⟩)
    exact narrows
  | released _ _ _ _ frame | bound _ _ _ _ _ _ _ frame => cases other _ _ frame

theorem step_narrows (stepped : step p label w = some w')
    (other : ∀ frame x, label.frame w = some (frame, x) → frame.serves = false) : w.core.Narrows w'.core := by
  obtain ⟨c, events, finds, section_, -⟩ := step_explained stepped
  exact finds.narrows.trans (section_narrows other section_)

theorem step_telling (other : ∀ y, label ≠ .turn y) (stepped : step p label w = some w') :
    w'.telling = w.telling ∧ ∀ turn, w'.turn = some turn → turn.work.tail = [] ∨ w.turn = some turn := by
  cases step_turn stepped with
  | kept same => exact ⟨by simp only [telling, same], fun turn held => .inr (same ▸ held)⟩
  | started free same =>
    refine ⟨by simp only [telling, same, free], fun turn held => .inl ?_⟩
    cases same.symm.trans held
    rfl
  | binding a record displayName free same =>
    refine ⟨by simp only [telling, same, free], fun turn held => .inl ?_⟩
    cases same.symm.trans held
    rfl
  | ran x action rest after w₁ frames ran holding performed left => exact absurd ran (other x)
  | released after holding same =>
    refine ⟨by simp only [telling, same, holding], fun turn held => ?_⟩
    rw [same] at held
    cases held

theorem step_tells_aside (other : ∀ y, label ≠ .turn y) (stepped : step p label w = some w')
    (tells : w.Tells) : w'.Tells := by
  obtain ⟨same, turns⟩ := step_telling other stepped
  refine tells.of_narrows ?_ (fun a => ?_) same fun turn held a s waiting => ?_
  · refine step_narrows stepped fun frame x runs => ?_
    obtain ⟨action, rfl⟩ := Label.frame_plain other runs
    rfl
  · rw [step_tolds stepped]
    refine namedFor_unnamed (fun b s makes => ?_) a
    obtain ⟨⟨frame, x⟩, runs, makes⟩ := Option.bind_eq_some_iff.mp makes
    obtain ⟨action, rfl⟩ := Label.frame_plain other runs
    cases action with
    | setUnbound | _ => cases makes
  · rcases turns turn held with empty | before
    · rw [empty] at waiting
      cases waiting
    · exact tells.first turn before a s waiting

/-- The turn runs a frame that neither serves a binding nor names one to the adapter. -/
theorem turn_tells (holding : w.turn = some ⟨action :: rest, after⟩)
    (performed : w.performTurn p x action = some (w₁, frames)) (plain : action.serves = false)
    (unnamed : ∀ a s, action ≠ .setBound a s) (tells : w.Tells) :
    Tells { w₁ with turn := some ⟨frames ++ rest, after⟩ } := by
  have stepped : step p (.turn x) w = some { w₁ with turn := some ⟨frames ++ rest, after⟩ } := by
    simp only [step, holding, performed, Option.map_some]
  have runs : (Label.turn x).frame w = some (action, x) := by simp only [Label.frame, holding]
  have narrows := step_narrows stepped fun frame y same => by
    cases runs.symm.trans same
    exact plain
  have log := step_tolds stepped
  refine tells.ran holding unnamed narrows (fun a => (congrArg (namedFor · a) log).trans ?_)
    fun a s added => ?_
  · refine namedFor_unnamed (fun b s makes => ?_) a
    simp only [Label.tells, runs, Option.bind_some] at makes
    cases action with
    | plain action =>
      cases action with
      | setUnbound | _ => cases makes
    | setBound b t => exact unnamed b t rfl
    | _ => cases makes
  · have left := performTurn_leaves performed _ added
    generalize told : setBound a s = frame at left
    cases left with
    | tell | tellAgain => cases plain
    | resolve resolves | resolveQueued resolves =>
      subst told
      unfold Oac.resolve at resolves
      split at resolves
      all_goals simp at resolves
    | act target acts =>
      subst told
      unfold actOn at acts
      split at acts
      · cases acts
      · simp [unbindFrames] at acts
      · split at acts
        all_goals simp [unbindFrames] at acts
    | _ => cases told

theorem bindRecord_tells (holding : w.turn = some ⟨.bindRecord a record descriptor seq :: rest, after⟩)
    (performed : w.performTurn p x (.bindRecord a record descriptor seq) = some (w₁, frames))
    (tells : w.Tells) :
    Tells { w₁ with turn := some ⟨frames ++ rest, after⟩ } := by
  have unnamed : ∀ b t, bindRecord a record descriptor seq ≠ .setBound b t := fun _ _ same => nomatch same
  simp only [performTurn] at performed
  split at performed
  · cases performed
    exact tells.ran holding unnamed (w.locked_narrows x.now) (fun _ => rfl) fun _ _ => not_mem_nil
  · next core bound made =>
    obtain ⟨e, engine, _, _, _, _, _, entry, left⟩ := Core.bindRecord_eq_ok made
    subst left
    have session : bound.session = some record.sessionId := by rw [entry]; rfl
    cases performed
    refine serve_tells x.now holding unnamed tells rfl
      (fun b => lookup_insert_if a b _ _) ?_ fun s named served => .inl ?_
    · split
      · exact .inl rfl
      · exact .inr ⟨record.sessionId, rfl, session⟩
    · cases session.symm.trans named
      simp [served]

theorem releaseWithheld_tells (holding : w.turn = some ⟨.releaseWithheld a seq :: rest, after⟩)
    (performed : w.performTurn p x (.releaseWithheld a seq) = some (w₁, frames)) (tells : w.Tells) :
    Tells { w₁ with turn := some ⟨frames ++ rest, after⟩ } := by
  have unnamed : ∀ b t, releaseWithheld a seq ≠ .setBound b t := fun _ _ same => nomatch same
  simp only [performTurn] at performed
  rcases (w.locked x.now).core.releaseWithheld_cases a seq with same | ⟨e, held, answered, same⟩
  · rw [same] at performed
    cases performed
    exact tells.ran holding unnamed (w.locked_narrows x.now) (fun _ => rfl) fun _ _ => not_mem_nil
  · rw [same] at performed
    cases withheld : e.withheld with
    | false =>
      simp only [withheld, Bool.false_eq_true, if_false] at performed
      cases performed
      refine serve_tells x.now holding unnamed tells rfl (fun b => lookup_insert_if a b _ _)
        (.inl rfl) fun s bound _ => .inr ?_
      obtain ⟨e₀, before, bound, free⟩ := w.locked_narrows x.now a e s held bound
      rcases tells.told a e₀ s before bound (free withheld) with pending | named
      · rw [telling_silent holding unnamed] at pending
        cases pending
      · exact named
    | true =>
      simp only [withheld, if_true] at performed
      cases session : e.session with
      | none =>
        simp only [session] at performed
        cases performed
        refine serve_tells x.now holding unnamed tells rfl
          (fun b => lookup_insert_if a b _ _) (.inl rfl) fun s bound _ => ?_
        cases session.symm.trans bound
      | some s =>
        simp only [session] at performed
        cases performed
        refine serve_tells x.now holding unnamed tells rfl
          (fun b => lookup_insert_if a b _ _) (.inr ⟨s, rfl, session⟩) fun t bound _ => .inl ?_
        cases session.symm.trans bound
        rfl

/-- Every step keeps what the adapter was told in line with the bindings served. -/
theorem step_tells (stepped : step p label w = some w') (tells : w.Tells) : w'.Tells := by
  by_cases turn : ∃ y, label = .turn y
  · obtain ⟨y, rfl⟩ := turn
    simp only [step] at stepped
    split at stepped
    · next action rest after holding =>
      obtain ⟨⟨w₁, frames⟩, performed, rfl⟩ := Option.map_eq_some_iff.mp stepped
      cases action with
      | bindRecord a record descriptor seq => exact bindRecord_tells holding performed tells
      | releaseWithheld a seq => exact releaseWithheld_tells holding performed tells
      | setBound a s =>
        cases performed
        exact setBound_tells holding tells
      | _ => exact turn_tells holding performed rfl (by rintro _ _ ⟨⟩) tells
    · cases stepped
  · exact step_tells_aside (fun y same => turn ⟨y, same⟩) stepped tells

end Pipelines

end Oac
