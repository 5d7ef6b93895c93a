import Oac.Authorization.Engine

/-! What the calls that bind a sender leave: nothing but the table of bindings and its tracking
changes in them, and a binding is placed where there was room or where a victim was. -/

namespace Oac.AuthorizationEngine

variable {e e' : AuthorizationEngine} {s session : SessionId} {key : KeyId}
  {partition : HandOffPartition}

def Op.keepsOwn : Op → Bool
  | .registerSession _ _ | .endSession _ => false
  | _ => true

def Op.keepsTrust : Op → Bool
  | .pair _ _ _ | .admitStatement _ _ _ _ | .admitOwnStatement _ _ | .removeKey _ _ | .addGrant _ _
  | .removeGrant _ _ | .setRelay _ _ _ => false
  | _ => true

/-- A call that changes trust or settings and no binding. -/
def Op.onlySets : Op → Bool
  | .pair _ _ _ | .admitStatement _ _ _ _ | .admitOwnStatement _ _ | .addGrant _ _ | .removeGrant _ _
  | .setRelay _ _ _ => true
  | _ => false

/-- Trust, settings and own sessions stay. -/
def OnlyTables (e e' : AuthorizationEngine) : Prop :=
  ∃ bindings bound sent handedOff, e' =
    { e with bindings := bindings, envelopeBound := bound, sent := sent, handedOff := handedOff }

def OnlyBindings (e e' : AuthorizationEngine) : Prop :=
  ∃ bindings bound, e' = { e with bindings := bindings, envelopeBound := bound }

variable (e : AuthorizationEngine) (session : SessionId) (key : KeyId)
  (partition : HandOffPartition) in
inductive Placed : AuthorizationEngine → Prop
  | added : Placed (e.bindTracked session key partition)
  | evicting (victim : SessionId) (found : e.envelopeBound.victim key = some victim) :
      Placed ((e.evict victim).bindTracked session key partition)

theorem OnlyBindings.tables (only : OnlyBindings e e') : OnlyTables e e' := by
  obtain ⟨_, _, rfl⟩ := only
  exact ⟨_, _, _, _, rfl⟩

theorem Placed.only (placed : Placed e session key partition e') : OnlyBindings e e' := by
  cases placed with
  | added | evicting => exact ⟨_, _, rfl⟩

section

variable (e : AuthorizationEngine) (session : SessionId)

theorem rebind_placed (key : KeyId) (partition : HandOffPartition) :
    Placed e session key partition (e.rebind session key partition) := by
  unfold rebind
  split
  · exact .added
  · split
    · next victim found => exact .evicting victim found
    · exact .added

theorem bindFromEnvelope_placed (key : KeyId) :
    (e.bindFromEnvelope session key).2 = e ∨
      Placed e session key (e.handoffPartition (some key) session) (e.bindFromEnvelope session key).2 := by
  fun_cases bindFromEnvelope
  · exact .inr .added
  · exact .inl rfl
  · next victim found => exact .inr (.evicting victim found)

theorem bindFromEnvelope_only (key : KeyId) : OnlyBindings e (e.bindFromEnvelope session key).2 := by
  rcases e.bindFromEnvelope_placed session key with same | placed
  · exact ⟨_, _, same⟩
  · exact placed.only

variable (e : AuthorizationEngine) (msg : ChannelMessage) (now : Timestamp) in
/-- What the check of a delivery answers and leaves. -/
inductive Delivers : Except AuthorizationRefusal AuthorizedMessage × AuthorizationEngine → Prop
  | refused {finding} : Delivers (.error (unauthorized requirement finding), e)
  | permitted {verifier : SecurityPrincipal} (after : AuthorizationEngine)
      (verified : msg.verifiedBy = some verifier)
      (permits : (e.decideAt (.deliver ⟨verifier.keyId, msg.envelope.fromSession, msg.envelope.toSession,
        msg.envelope.replyTo⟩) now).permits .deliver = true)
      (left : after = e ∨ e.bindings.lookup msg.envelope.fromSession = none ∧
        e.bindFromEnvelope msg.envelope.fromSession verifier.keyId = (true, after)) :
      Delivers (.ok ⟨msg, e.decideAt (.deliver ⟨verifier.keyId, msg.envelope.fromSession,
        msg.envelope.toSession, msg.envelope.replyTo⟩) now⟩, after)
  | full (key after) (unbound : e.bindings.lookup msg.envelope.fromSession = none)
      (taken : e.bindFromEnvelope msg.envelope.fromSession key = (false, after)) :
      Delivers (.error ⟨.failed, .internalError, "SEC-PRS-005", none⟩, after)

theorem authorizeDelivery_delivers (msg : ChannelMessage) (now : Timestamp) :
    Delivers e msg now (e.authorizeDelivery msg now) := by
  fun_cases authorizeDelivery
  · exact .refused
  · next checked refusal found =>
    simp only [checked] at found
    split at found
    · split at found <;> cases found
      exact .refused
    · cases found
      exact .refused
    · cases found
  · exact .refused
  · next verified _ _ _ _ _ permits _ => exact .permitted e verified (by simpa using permits) (.inl rfl)
  · next verified _ _ _ _ _ permits unbound after taken =>
    exact .permitted after verified (by simpa using permits) (.inr ⟨by simpa using unbound, taken⟩)
  · next unbound after taken => exact .full _ after (by simpa using unbound) taken

theorem authorizeDelivery_state (msg : ChannelMessage) (now : Timestamp) :
    (e.authorizeDelivery msg now).2 = e ∨ ∃ key, e.bindings.lookup msg.envelope.fromSession = none ∧
      (e.authorizeDelivery msg now).2 = (e.bindFromEnvelope msg.envelope.fromSession key).2 := by
  have delivers := e.authorizeDelivery_delivers msg now
  generalize e.authorizeDelivery msg now = answer at delivers ⊢
  cases delivers with
  | refused => exact .inl rfl
  | permitted after _ _ left =>
    rcases left with same | ⟨unbound, taken⟩
    · exact .inl same
    · exact .inr ⟨_, unbound, by rw [taken]⟩
  | full key after unbound taken => exact .inr ⟨key, unbound, by rw [taken]⟩

end

variable (e : AuthorizationEngine) (record : HandOffRecord) (outcome : DeliveryState)
  (now : Timestamp) in
/-- What `recordHandoff` leaves: nothing new, the record kept and the pins drawn after it, or its
sender bound again besides. -/
inductive HandoffRecorded : AuthorizationEngine → Prop
  | ignored : HandoffRecorded e
  | kept (ownSender : record.keyId = some e.ownKey → (e.ownSessions.lookup record.fromSession).isSome)
      (taken : outcome = .handedToHarness ∨ outcome = .unknown) (none : e.rebindKey record = none) :
      HandoffRecorded { e with handedOff :=
        (e.handedOff.push (e.handoffPartition record.keyId record.fromSession) record now).2 }.syncPins
  | rebound (ownSender : record.keyId = some e.ownKey → (e.ownSessions.lookup record.fromSession).isSome)
      (taken : outcome = .handedToHarness ∨ outcome = .unknown) (key : KeyId)
      (verified : record.keyId = some key)
      (unbound : e.bindings.lookup record.fromSession = none) (found : e.rebindKey record = some key) :
      HandoffRecorded ({ e with handedOff := (e.handedOff.push
        (e.handoffPartition (some key) record.fromSession) record now).2 }.syncPins.rebind record.fromSession key
        (e.handoffPartition (some key) record.fromSession))

theorem rebindKey_eq_some (found : e.rebindKey record = some k) :
    record.keyId = some k ∧ e.bindings.lookup record.fromSession = none ∧ k ≠ e.ownKey ∧
      (e.trusted.lookup k).isSome := by
  unfold rebindKey at found
  split at found
  · next verified unbound =>
    split at found
    · next allowed =>
      cases found
      exact ⟨verified, unbound, allowed⟩
    · cases found
  · cases found

section

variable (e : AuthorizationEngine) (record : HandOffRecord) (outcome : DeliveryState)
  (now : Timestamp)

theorem recordHandoff_recorded :
    HandoffRecorded e record outcome now (e.recordHandoff record outcome now) := by
  unfold recordHandoff
  split
  · exact .ignored
  next outcomes =>
  split
  · exact .ignored
  next mayKeep =>
  have ownSender : record.keyId = some e.ownKey → (e.ownSessions.lookup record.fromSession).isSome := by
    intro isOwn
    cases owned : e.ownSessions.lookup record.fromSession with
    | some scope => rfl
    | none => exact absurd ⟨isOwn, by simp [owned]⟩ mayKeep
  have taken : outcome = .handedToHarness ∨ outcome = .unknown := by
    by_contra neither
    exact outcomes (not_or.mp neither)
  split
  · next key found =>
    obtain ⟨verified, unbound, -⟩ := rebindKey_eq_some found
    rw [verified]
    exact .rebound ownSender taken key verified unbound found
  · next none => exact .kept ownSender taken none

theorem recordHandoff_tables : OnlyTables e (e.recordHandoff record outcome now) := by
  have recorded := e.recordHandoff_recorded record outcome now
  generalize e.recordHandoff record outcome now = e' at recorded ⊢
  cases recorded with
  | ignored | kept => exact ⟨_, _, _, _, rfl⟩
  | rebound _ _ key _ _ _ =>
    obtain ⟨_, _, same⟩ := (rebind_placed _ _ _ _).only
    exact ⟨_, _, _, _, same⟩

end

variable [Libraries]

def Op.onlyBinds : Op → Bool
  | .bind _ _ | .markConflict _ _ | .forgetBinding _ | .withEnvelopeBindingLimits _ _ | .decide _ _
  | .authorizeDelivery _ _ => true
  | _ => false

theorem after_bindings (e : AuthorizationEngine) (op : Op) (binds : op.onlyBinds = true) :
    OnlyBindings e (e.after op) := by
  cases op with
  | bind session key =>
    simp only [after, AuthorizationEngine.bind]
    repeat' split
    all_goals exact ⟨_, _, rfl⟩
  | markConflict session claimant =>
    simp only [after, AuthorizationEngine.markConflict]
    repeat' split
    all_goals exact ⟨_, _, rfl⟩
  | forgetBinding session =>
    simp only [after, AuthorizationEngine.forgetBinding]
    repeat' split
    all_goals exact ⟨_, _, rfl⟩
  | withEnvelopeBindingLimits | decide => exact ⟨_, _, rfl⟩
  | authorizeDelivery msg now =>
    rcases e.authorizeDelivery_state msg now with same | ⟨key, -, bound⟩
    · exact ⟨_, _, same⟩
    · exact (congrArg (OnlyBindings e) bound).mpr (e.bindFromEnvelope_only _ key)
  | _ => cases binds

theorem after_tables (e : AuthorizationEngine) (op : Op) (trust : op.keepsTrust = true)
    (own : op.keepsOwn = true) : OnlyTables e (e.after op) := by
  cases op with
  | pair | admitStatement | admitOwnStatement | removeKey | addGrant | removeGrant | setRelay => cases trust
  | registerSession | endSession => cases own
  | recordSent | forgetHandoff | prune => exact ⟨_, _, _, _, rfl⟩
  | recordHandoff record outcome now => exact e.recordHandoff_tables record outcome now
  | _ => exact (e.after_bindings _ rfl).tables

end Oac.AuthorizationEngine
