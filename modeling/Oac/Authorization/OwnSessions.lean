import Oac.Authorization.EngineProofs

/-! The engine's own sessions: only a registration adds one, only the end of a session removes
one. -/

namespace Oac.AuthorizationEngine

@[simp] theorem syncPins_own (e : AuthorizationEngine) : e.syncPins.ownSessions = e.ownSessions := rfl

@[simp] theorem prune_own (e : AuthorizationEngine) (now : Timestamp) :
    (e.prune now).ownSessions = e.ownSessions := rfl

@[simp] theorem forgetHandoff_own (e : AuthorizationEngine) (record : HandOffRecord) :
    (e.forgetHandoff record).2.ownSessions = e.ownSessions := rfl

theorem OnlyTables.own (only : OnlyTables e e') : e'.ownSessions = e.ownSessions := by
  obtain ⟨_, _, _, _, rfl⟩ := only
  rfl

theorem SettingsOnly.own (only : SettingsOnly e e') : e'.ownSessions = e.ownSessions := by
  obtain ⟨_, _, _, _, _, rfl⟩ := only
  rfl

@[simp] theorem recordHandoff_own (e : AuthorizationEngine) (record : HandOffRecord) (outcome : DeliveryState)
    (now : Timestamp) : (e.recordHandoff record outcome now).ownSessions = e.ownSessions :=
  (e.recordHandoff_tables record outcome now).own

theorem endSession_own (e : AuthorizationEngine) (s s' : SessionId) :
    (e.endSession s).2.ownSessions.lookup s' = if s' = s then none else e.ownSessions.lookup s' := by
  cases held : e.ownSessions.lookup s with
  | none =>
    simp only [endSession, held]
    split
    · next same => rw [same, held]
    · rfl
  | some scope =>
    simp only [endSession, held]
    exact Table.lookup_erase_if s s' _

theorem foldl_dropBinding_own (sessions : List SessionId) (e : AuthorizationEngine) :
    (sessions.foldl dropBinding e).ownSessions = e.ownSessions := by
  induction sessions generalizing e with
  | nil => rfl
  | cons s rest ih => exact ih _

variable [Libraries]

theorem registerSession_own {e e' : AuthorizationEngine}
    (registered : e.registerSession record own = (true, e')) :
    e'.ownSessions = e.ownSessions.insert record.sessionId ⟨record.workingDirectory⟩ := by
  revert registered
  fun_cases registerSession <;> rintro ⟨⟩
  rfl

theorem after_own (e : AuthorizationEngine) (op : Op) (keeps : op.keepsOwn = true) :
    (e.after op).ownSessions = e.ownSessions := by
  cases op with
  | registerSession | endSession => cases keeps
  | pair | admitStatement | admitOwnStatement | addGrant | removeGrant | setRelay =>
    exact (after_settings e _ rfl).own
  | removeKey key store =>
    simp only [after, AuthorizationEngine.removeKey]
    split
    · rfl
    split
    · rfl
    · split
      · exact foldl_dropBinding_own _ _
      · exact foldl_dropBinding_own _ _
  | _ => exact (after_tables e _ rfl rfl).own

end Oac.AuthorizationEngine
