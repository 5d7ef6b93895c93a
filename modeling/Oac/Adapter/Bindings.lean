import Oac.Adapter.Providers

/-! The session an adapter would hand an attachment's input to. Only `set_binding` gives an
attachment a session; everything else an adapter does may only take one away. -/

namespace Oac

open Table Option

namespace ClaudeAdapter

variable {s : ClaudeAdapter} {a b : Attachment} {t : SessionId}

def boundTo (s : ClaudeAdapter) (a : Attachment) : Option SessionId :=
  (s.attachments.lookup a).bind (·.bound)

/-- What the adapter does on its own threads. -/
inductive Event where
  | takeConnection (a : Attachment)
  | admitShim (a : Attachment)
  | listed (a : Attachment)
  | carrier (a : Attachment)
  | running (a : Attachment)
  | ended (a : Attachment)
  | stop
  | closeAll
  deriving DecidableEq

def after (s : ClaudeAdapter) : Event → ClaudeAdapter
  | .takeConnection a => s.takeConnection a
  | .admitShim a => (s.admitShim a).1
  | .listed a => s.listed a
  | .carrier a => s.carrier a
  | .running a => s.running a
  | .ended a => s.ended a
  | .stop => s.stop
  | .closeAll => s.closeAll

theorem boundTo_modify (f : Claude.Att → Claude.Att) :
    (s.modify a f).boundTo b = if b = a then (s.attachments.lookup a).bind fun att => (f att).bound
      else s.boundTo b := by
  simp only [boundTo, modify, lookup_modify_if]
  split
  · cases s.attachments.lookup a with
    | none | some => rfl
  · rfl

theorem boundTo_modify_kept (keeps : ∀ att, (f att).bound = att.bound) :
    (s.modify a f).boundTo b = s.boundTo b := by
  rw [boundTo_modify]
  split
  · next same =>
    subst same
    simp only [keeps, boundTo]
  · rfl

theorem boundTo_advance (phase : AttachmentPhase) : (s.advance a phase).boundTo b = s.boundTo b := by
  unfold advance
  split
  · rfl
  · refine boundTo_modify_kept fun att => ?_
    split
    · rfl
    · rfl

theorem boundTo_close : (s.close a).boundTo b = s.boundTo b := boundTo_modify_kept fun _ => rfl

theorem boundTo_running : (s.running a).boundTo b = s.boundTo b := boundTo_modify_kept fun _ => rfl

theorem boundTo_recordHanded (env : Envelope) : (s.recordHanded a env).boundTo b = s.boundTo b :=
  boundTo_modify_kept fun _ => rfl

theorem boundTo_complete (env : Envelope) : (s.complete a env).boundTo b = s.boundTo b :=
  boundTo_modify_kept fun _ => rfl

theorem boundTo_admitShim : (s.admitShim a).1.boundTo b = s.boundTo b := by
  unfold admitShim
  split
  · rfl
  · exact boundTo_modify_kept fun _ => rfl

theorem boundTo_closeAll : s.closeAll.boundTo b = s.boundTo b := by
  unfold closeAll
  generalize s.attachments.keys = keys
  induction keys generalizing s with
  | nil => rfl
  | cons a rest ih => exact ih.trans boundTo_close

theorem boundTo_after (event : Event) (bound : (s.after event).boundTo b = some t) : s.boundTo b = some t := by
  cases event with
  | takeConnection a =>
    simp only [after, takeConnection] at bound
    split at bound
    · exact bound
    · simp only [boundTo, lookup_insert_if] at bound
      split at bound
      · cases bound
      · exact bound
  | admitShim a => exact boundTo_admitShim.symm.trans bound
  | listed | carrier => exact (boundTo_advance _).symm.trans bound
  | running a => exact boundTo_running.symm.trans bound
  | ended a =>
    simp only [after, ended, boundTo, lookup_erase_if] at bound
    split at bound
    · cases bound
    · exact bound
  | stop => exact bound
  | closeAll => exact boundTo_closeAll.symm.trans bound

theorem boundTo_setBinding (bound : (s.setBinding a x).boundTo b = some t) :
    if b = a then x = some t else s.boundTo b = some t := by
  rw [setBinding, boundTo_modify] at bound
  split
  · next same =>
    rw [if_pos same] at bound
    obtain ⟨att, _, named⟩ := bind_eq_some_iff.mp bound
    exact named
  · next other => rwa [if_neg other] at bound

theorem boundTo_of_ready (ready : s.ready a = true) : ∃ t, s.boundTo a = some t := by
  obtain ⟨att, held, open_⟩ := (any_eq_true _ _).mp ready
  simp only [Bool.and_eq_true] at open_
  obtain ⟨t, bound⟩ := isSome_iff_exists.mp open_.1.2
  exact ⟨t, by simp [boundTo, held, bound]⟩

end ClaudeAdapter

namespace CodexAdapter

variable {s : CodexAdapter} {a b : Attachment} {t : SessionId}

/-- The session of the latest `set_binding` for the attachment, while its carrier is the current
one. -/
def boundTo (s : CodexAdapter) (a : Attachment) : Option SessionId :=
  ((s.attachments.lookup a).filter (·.generation == s.generation)).bind (·.bound)

/-- What the adapter does on its own threads. -/
inductive Event where
  | takeConnection (a : Attachment) (spawned : Bool)
  | designateCarrier (a : Attachment) (isOpen : Bool)
  | carrierStarted (started : Bool)
  | listed (a : Attachment)
  | reveal (a : Attachment) (thread : String)
  | ended (a : Attachment)
  | stop
  | closeAll
  | clear
  deriving DecidableEq

def after (s : CodexAdapter) : Event → CodexAdapter
  | .takeConnection a spawned => s.takeConnection a spawned
  | .designateCarrier a isOpen => s.designateCarrier a isOpen
  | .carrierStarted started => s.carrierStarted started
  | .listed a => s.listed a
  | .reveal a thread => s.reveal a thread
  | .ended a => s.ended a
  | .stop => s.stop
  | .closeAll => s.closeAll
  | .clear => s.clear

theorem boundTo_eq_some : s.boundTo a = some t ↔
    ∃ att, s.attachments.lookup a = some att ∧ att.generation = s.generation ∧ att.bound = some t := by
  simp only [boundTo, bind_eq_some_iff, filter_eq_some_iff, beq_iff_eq, and_assoc]

theorem boundTo_modify (bound : (s.modify a f keeps).boundTo b = some t) :
    if b = a then ∃ att, s.attachments.lookup a = some att ∧ att.generation = s.generation ∧
      (f att).bound = some t else s.boundTo b = some t := by
  obtain ⟨att, held, current, named⟩ := boundTo_eq_some.mp bound
  simp only [modify, lookup_modify_if] at held current
  split
  · next same =>
    rw [if_pos same] at held
    obtain ⟨old, before, rfl⟩ := map_eq_some_iff.mp held
    exact ⟨old, before, (keeps old).symm.trans current, named⟩
  · next other =>
    rw [if_neg other] at held
    exact boundTo_eq_some.mpr ⟨att, held, current, named⟩

theorem boundTo_modify_kept (bound : (s.modify a f keeps).boundTo b = some t)
    (same : ∀ att, (f att).bound = att.bound) : s.boundTo b = some t := by
  have before := boundTo_modify bound
  split at before
  · next here =>
    obtain ⟨att, held, current, named⟩ := before
    exact boundTo_eq_some.mpr ⟨att, here ▸ held, current, (same att).symm.trans named⟩
  · exact before

theorem boundTo_close (bound : (s.close a).boundTo b = some t) : s.boundTo b = some t :=
  boundTo_modify_kept bound fun _ => rfl

theorem boundTo_recordHanded (bound : (s.recordHanded a env).boundTo b = some t) :
    s.boundTo b = some t := boundTo_modify_kept bound fun _ => rfl

theorem boundTo_complete (bound : (s.complete a env).boundTo b = some t) :
    s.boundTo b = some t := boundTo_modify_kept bound fun _ => rfl

theorem boundTo_insert (bound : (s.insert a).boundTo b = some t) : s.boundTo b = some t := by
  obtain ⟨att, held, current, named⟩ := boundTo_eq_some.mp bound
  simp only [insert, lookup_insert_if] at held current
  split at held
  · cases held
    cases named
  · exact boundTo_eq_some.mpr ⟨att, held, current, named⟩

theorem boundTo_ended (bound : (s.ended a).boundTo b = some t) : s.boundTo b = some t := by
  obtain ⟨att, held, current, named⟩ := boundTo_eq_some.mp bound
  simp only [ended, lookup_erase_if] at held current
  split at held
  · cases held
  · exact boundTo_eq_some.mpr ⟨att, held, current, named⟩

theorem boundTo_foldl (each : ∀ s a, (f s a).boundTo b = some t → s.boundTo b = some t)
    (l : List Attachment) (bound : (l.foldl f s).boundTo b = some t) : s.boundTo b = some t := by
  induction l generalizing s with
  | nil => exact bound
  | cons a rest ih => exact each s a (ih bound)

theorem boundTo_after (event : Event) (bound : (s.after event).boundTo b = some t) : s.boundTo b = some t := by
  cases event with
  | takeConnection a spawned =>
    simp only [after, takeConnection] at bound
    split at bound
    · exact bound
    · split at bound
      · split at bound
        · exact bound
        · exact bound
      · split at bound
        · exact bound
        · split at bound
          · exact boundTo_insert bound
          · exact boundTo_insert bound
          · exact bound
          · exact bound
  | designateCarrier a isOpen =>
    simp only [after, designateCarrier] at bound
    split at bound
    · exact bound
    · -- Every attachment is of an earlier generation than the new carrier.
      obtain ⟨att, held, current, -⟩ := boundTo_eq_some.mp bound
      have taken := s.taken b att held
      simp only at current
      omega
  | carrierStarted started =>
    simp only [after, carrierStarted] at bound
    split at bound
    · exact bound
    · exact boundTo_foldl (fun _ _ => boundTo_ended) s.pending bound
  | listed a =>
    simp only [after, listed] at bound
    split at bound
    · exact bound
    · refine boundTo_modify_kept bound fun att => ?_
      split
      · rfl
      · rfl
  | reveal a thread =>
    simp only [after, reveal] at bound
    split at bound
    · exact bound
    · refine boundTo_modify_kept bound fun att => ?_
      fun_cases Codex.Att.revealed <;> rfl
  | ended a => exact boundTo_ended bound
  | stop => exact bound
  | closeAll => exact boundTo_foldl (fun _ _ => boundTo_close) s.attachments.keys bound
  | clear => cases bound

theorem boundTo_setBinding (bound : (s.setBinding a x).boundTo b = some t) :
    if b = a then x = some t else s.boundTo b = some t := by
  have before := boundTo_modify bound
  split
  · next same =>
    rw [if_pos same] at before
    obtain ⟨att, held, current, named⟩ := before
    cases x with
    | none => cases named
    | some session =>
      simp only [current, ne_eq, not_true_eq_false, if_false] at named
      exact named
  · next other => rwa [if_neg other] at before

theorem boundTo_of_ready (ready : s.ready a = true) : ∃ t, s.boundTo a = some t := by
  obtain ⟨att, held, open_⟩ := (any_eq_true _ _).mp ready
  simp only [Bool.and_eq_true, beq_iff_eq] at open_
  obtain ⟨t, bound⟩ := isSome_iff_exists.mp open_.1.1.1.2
  exact ⟨t, boundTo_eq_some.mpr ⟨att, held, open_.1.1.2, bound⟩⟩

end CodexAdapter

/-- Either of the two adapters. -/
inductive Provider where
  | claude (adapter : ClaudeAdapter)
  | codex (adapter : CodexAdapter)

inductive ProviderEvent where
  | claude (event : ClaudeAdapter.Event)
  | codex (event : CodexAdapter.Event)
  deriving DecidableEq

namespace Provider

variable {s : Provider} {a b : Attachment} {t : SessionId}

def boundTo : Provider → Attachment → Option SessionId
  | claude s => s.boundTo
  | codex s => s.boundTo

def down : Provider → Bool
  | claude s => s.down
  | codex s => s.down

def after : Provider → ProviderEvent → Provider
  | claude s, .claude event => claude (s.after event)
  | codex s, .codex event => codex (s.after event)
  | s, _ => s

def setBinding (s : Provider) (a : Attachment) (x : Option SessionId) : Provider :=
  match s with
  | claude s => claude (s.setBinding a x)
  | codex s => codex (s.setBinding a x)

def ready (s : Provider) (a : Attachment) : Bool :=
  match s with
  | claude s => s.ready a
  | codex s => s.ready a

def recordHanded (s : Provider) (a : Attachment) (env : Envelope) : Provider :=
  match s with
  | claude s => claude (s.recordHanded a env)
  | codex s => codex (s.recordHanded a env)

def complete (s : Provider) (a : Attachment) (env : Envelope) : Provider :=
  match s with
  | claude s => claude (s.complete a env)
  | codex s => codex (s.complete a env)

/-- The Claude adapter looks again for a shutdown before it writes; the Codex adapter makes its
call. -/
def mayStart : Provider → Bool
  | claude s => !s.down
  | codex _ => true

/-- The Codex adapter asks its client whether the thread is still served; the Claude adapter has no
such question. -/
def asks : Provider → Bool
  | claude _ => false
  | codex _ => true

theorem boundTo_after (event : ProviderEvent) (bound : (s.after event).boundTo b = some t) :
    s.boundTo b = some t := by
  cases s with
  | claude s =>
    cases event with
    | claude event => exact ClaudeAdapter.boundTo_after event bound
    | codex event => exact bound
  | codex s =>
    cases event with
    | claude event => exact bound
    | codex event => exact CodexAdapter.boundTo_after event bound

theorem boundTo_setBinding (bound : (s.setBinding a x).boundTo b = some t) :
    if b = a then x = some t else s.boundTo b = some t := by
  cases s with
  | claude s => exact ClaudeAdapter.boundTo_setBinding bound
  | codex s => exact CodexAdapter.boundTo_setBinding bound

theorem boundTo_of_ready (ready : s.ready a = true) : ∃ t, s.boundTo a = some t := by
  cases s with
  | claude s => exact ClaudeAdapter.boundTo_of_ready ready
  | codex s => exact CodexAdapter.boundTo_of_ready ready

theorem boundTo_recordHanded (bound : (s.recordHanded a env).boundTo b = some t) : s.boundTo b = some t := by
  cases s with
  | claude s => exact (ClaudeAdapter.boundTo_recordHanded env).symm.trans bound
  | codex s => exact CodexAdapter.boundTo_recordHanded bound

theorem boundTo_complete (bound : (s.complete a env).boundTo b = some t) : s.boundTo b = some t := by
  cases s with
  | claude s => exact (ClaudeAdapter.boundTo_complete env).symm.trans bound
  | codex s => exact CodexAdapter.boundTo_complete bound

end Provider

end Oac
