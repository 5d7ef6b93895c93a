import Oac.Authorization.Decisions

/-! How the entries of the binding table may change. -/

namespace Oac.AuthorizationEngine

variable {e : AuthorizationEngine}

def Op.Registers (op : Op) (s : SessionId) : Prop :=
  ∃ record own, op = .registerSession record own ∧ record.sessionId = s

variable (e : AuthorizationEngine) (op : Op) (s : SessionId) in
/-- What one call may make of the entry of `s`. -/
inductive EntryChange : Option Binding → Option Binding → Prop
  | kept (entry) : EntryChange entry entry
  | bound (key) : EntryChange none (some (.key key))
  | removed (key) : EntryChange (some (.key key)) none
  | marked (key claimant) (called : op = .markConflict s claimant) :
      EntryChange (some (.key key)) (some (.conflict {key, claimant}))
  | claimed (keys claimant) (called : op = .markConflict s claimant) :
      EntryChange (some (.conflict keys)) (some (.conflict (insert claimant keys)))
  | keyRemoved (keys : Finset KeyId) (key store) (named : key ∈ keys) (called : op = .removeKey key store) :
      EntryChange (some (.conflict keys)) none
  | registered (entry) (called : op.Registers s) : EntryChange entry (some (.key e.ownKey))

/-- What one call may make of every entry. -/
def EntriesChange (e : AuthorizationEngine) (op : Op) (e' : AuthorizationEngine) : Prop :=
  ∀ s, EntryChange e op s (e.bindings.lookup s) (e'.bindings.lookup s)

section Entries

variable {op : Op}

theorem EntriesChange.same (unchanged : e'.bindings = e.bindings) : EntriesChange e op e' := by
  intro s
  rw [unchanged]
  exact .kept _

theorem SettingsOnly.bindings (only : SettingsOnly e e') : e'.bindings = e.bindings := by
  obtain ⟨_, _, _, _, _, rfl⟩ := only
  rfl

theorem dropBindings_lookup (sessions : List SessionId) (e : AuthorizationEngine) (s : SessionId) :
    (sessions.foldl dropBinding e).bindings.lookup s = if s ∈ sessions then none else e.bindings.lookup s := by
  induction sessions generalizing e with
  | nil => simp
  | cons first rest ih =>
    rw [List.foldl_cons, ih]
    change (if s ∈ rest then none else AList.lookup s (e.bindings.erase first)) = _
    rw [Table.lookup_erase_if]
    by_cases listed : s ∈ rest
    · simp [listed]
    · by_cases same : s = first
      · simp [same]
      · simp [listed, same]

theorem removeKey_entry (key : KeyId) (store : PairingSave) :
    EntriesChange e (.removeKey key store) (e.removeKey key store).2 := by
  unfold removeKey
  split
  · exact .same rfl
  · cases e.trusted.lookup key with
    | none => exact .same rfl
    | some _ =>
      have dropped : ∀ e' : AuthorizationEngine, e'.bindings = ((((sortedKeys e.bindings.keys).filter fun s =>
          (e.bindings.lookup s).any (·.names key)).foldl dropBinding (e.withoutKey key)).bindings) →
            EntriesChange e (.removeKey key store) e' := by
        intro e' same s
        rw [same, dropBindings_lookup]
        split
        · next listed =>
          have names := (List.mem_filter.mp listed).2
          cases held : e.bindings.lookup s with
          | none => exact .kept none
          | some entry =>
            rw [held] at names
            cases entry with
            | key k => exact .removed k
            | conflict keys => exact .keyRemoved keys key store (by simpa [Binding.names] using names) rfl
        · exact .kept _
      dsimp only
      split
      · exact dropped _ rfl
      · exact dropped _ rfl

theorem EntriesChange.erase (held : e.bindings.lookup session = some (.key key))
    (erased : e'.bindings = e.bindings.erase session) : EntriesChange e op e' := by
  intro s
  rw [erased, Table.lookup_erase_if]
  split
  · next same =>
    rw [same, held]
    exact .removed key
  · exact .kept _

theorem EntriesChange.insert (change : EntriesChange e op e') (unbound : e.bindings.lookup session = none)
    (bound : e''.bindings = e'.bindings.insert session (.key key)) : EntriesChange e op e'' := by
  intro s
  rw [bound, Table.lookup_insert_if]
  split
  · next same =>
    rw [same, unbound]
    exact .bound key
  · exact change s

theorem Sound.placed_entry (sound : Sound e₀) (same : e₀.bindings = e.bindings)
    (unbound : e.bindings.lookup session = none) (placed : Placed e₀ session key partition e') :
    EntriesChange e op e' := by
  cases placed with
  | added => exact .insert (.same same) unbound rfl
  | evicting victim found =>
    obtain ⟨b, tracked, -⟩ := sound.exact.victim found
    have evicted : EntriesChange e op (e₀.evict victim) :=
      .erase (same ▸ sound.trackedBound victim b tracked) (congrArg (AList.erase victim) same)
    exact .insert evicted unbound rfl

theorem Sound.recordHandoff_entry (sound : Sound e) (record : HandOffRecord) (outcome : DeliveryState)
    (now : Timestamp) : EntriesChange e op (e.recordHandoff record outcome now) := by
  have recorded := e.recordHandoff_recorded record outcome now
  generalize e.recordHandoff record outcome now = e' at recorded ⊢
  cases recorded with
  | ignored | kept => exact .same rfl
  | rebound ownSender _ k verified unbound _ =>
    have kept := sound.keepHandoff record now ownSender
    rw [home, verified] at kept
    exact kept.placed_entry rfl unbound (rebind_placed _ _ _ _)

theorem Sound.authorizeDelivery_entry (sound : Sound e) (msg : ChannelMessage) (now : Timestamp) :
    EntriesChange e op (e.authorizeDelivery msg now).2 := by
  rcases e.authorizeDelivery_state msg now with same | ⟨key, unbound, bound⟩
  · exact .same (by rw [same])
  · rw [bound]
    rcases e.bindFromEnvelope_placed msg.envelope.fromSession key with same | placed
    · exact .same (by rw [same])
    · exact sound.placed_entry rfl unbound placed

theorem Sound.endSession_entry (sound : Sound e) (session : SessionId) :
    EntriesChange e op (e.endSession session).2 := by
  unfold AuthorizationEngine.endSession
  cases owned : e.ownSessions.lookup session with
  | none => exact .same rfl
  | some scope => exact .erase (sound.ownBound session scope owned) rfl

theorem bind_entry (session : SessionId) (key : KeyId) : EntriesChange e op (e.bind session key).2 := by
  unfold AuthorizationEngine.bind
  cases bound : e.bindings.lookup session with
  | none => exact .insert (.same rfl) bound rfl
  | some found =>
    cases found with
    | conflict keys => exact .same rfl
    | key k =>
      dsimp only
      split <;> exact .same rfl

theorem markConflict_entry (session : SessionId) (claimant : KeyId) :
    EntriesChange e (.markConflict session claimant) (e.markConflict session claimant).2 := by
  unfold markConflict
  split
  · exact .same rfl
  · cases bound : e.bindings.lookup session with
    | none => exact .same rfl
    | some found =>
      intro s
      rw [Table.lookup_insert_if]
      split
      · next same =>
        subst same
        rw [bound]
        cases found with
        | key k => exact .marked k claimant rfl
        | conflict keys => exact .claimed keys claimant rfl
      · exact .kept _

theorem forgetBinding_entry (session : SessionId) : EntriesChange e op (e.forgetBinding session).2 := by
  fun_cases forgetBinding
  · exact .same rfl
  · next k bound => exact .erase bound rfl
  · exact .same rfl
  · exact .same rfl

variable [Libraries]

theorem registerSession_entry (record : RegistrationRecord) (own : DeviceIdentity) :
    EntriesChange e (.registerSession record own) (e.registerSession record own).2 := by
  unfold registerSession
  split
  · exact .same rfl
  · intro s
    rw [Table.lookup_insert_if]
    split
    · next same => exact .registered _ ⟨record, own, rfl, same.symm⟩
    · exact .kept _

/-- Every call changes an entry in one of the listed ways only. -/
theorem Sound.entry_change (sound : Sound e) (op : Op) : EntriesChange e op (e.after op) := by
  cases op with
  | pair | admitStatement | admitOwnStatement | addGrant | removeGrant | setRelay =>
    exact .same (after_settings e _ rfl).bindings
  | removeKey key store => exact removeKey_entry key store
  | registerSession record own => exact registerSession_entry record own
  | endSession session => exact sound.endSession_entry session
  | bind session key => exact bind_entry session key
  | markConflict session claimant => exact markConflict_entry session claimant
  | forgetBinding session => exact forgetBinding_entry session
  | recordHandoff record outcome now => exact sound.recordHandoff_entry record outcome now
  | authorizeDelivery msg now => exact sound.authorizeDelivery_entry msg now
  | _ => exact .same rfl

theorem Reachable.after (reachable : e.Reachable) (op : Op) : (e.after op).Reachable := by
  obtain ⟨first, started, run⟩ := reachable
  exact ⟨first, started, run.tail ⟨op, trivial, rfl⟩⟩

/-- An entry that is there all along a run and that no call of it registers was bound all along to
the key it ends with. -/
theorem Reachable.bound_along (ops : List Op) (reachable : e.Reachable)
    (held : e.bindings.lookup s = some entry)
    (stays : ∀ seen rest, ops = seen ++ rest → (seen.foldl AuthorizationEngine.after e).bindings.lookup s ≠ none)
    (foreign : ∀ seen op rest, ops = seen ++ op :: rest → op.Registers s →
      ((seen.foldl AuthorizationEngine.after e).after op).bindings.lookup s ≠
        some (.key (seen.foldl AuthorizationEngine.after e).ownKey))
    (last : (ops.foldl AuthorizationEngine.after e).bindings.lookup s = some (.key key)) :
    entry = .key key := by
  induction ops generalizing e entry with
  | nil =>
    rw [List.foldl_nil, held, Option.some.injEq] at last
    exact last
  | cons op rest ih =>
    have there : (e.after op).bindings.lookup s ≠ none := stays [op] rest rfl
    obtain ⟨next, found⟩ := Option.ne_none_iff_exists'.mp there
    obtain rfl : next = .key key :=
      ih (reachable.after op) found (fun seen rest split => stays (op :: seen) rest (by rw [split]; rfl))
        (fun seen op' rest split => foreign (op :: seen) op' rest (by rw [split]; rfl)) last
    have change := reachable.sound.entry_change op s
    rw [held, found] at change
    cases change with
    | kept => rfl
    | registered _ called => exact absurd found (foreign [] op rest rfl called)

end Entries

/-- The binding table in every engine that operations lead to: own sessions are bound to the own
key, tracked sessions to their tracked key and to nothing of this device, a bound entry gets another
key only after it was removed or by registration, which leaves the own key, and an entry under
conflict only takes claimants, goes with a key it names, or is taken over by registration. -/
theorem binding_table_invariant [Libraries] (e : AuthorizationEngine) (reachable : e.Reachable) :
    (∀ s scope, e.ownSessions.lookup s = some scope → e.bindings.lookup s = some (.key e.ownKey)) ∧
      (∀ s b, e.envelopeBound.sessions.lookup s = some b →
        e.bindings.lookup s = some (.key b.key) ∧ e.ownSessions.lookup s = none ∧
          ∀ keys, e.bindings.lookup s ≠ some (.conflict keys)) ∧
      (∀ (ops : List Op) s key other, e.bindings.lookup s = some (.key key) →
        (ops.foldl after e).bindings.lookup s = some (.key other) → key ≠ other →
          (∃ seen rest, ops = seen ++ rest ∧ (seen.foldl after e).bindings.lookup s = none) ∨
            ∃ seen op rest, ops = seen ++ op :: rest ∧ op.Registers s ∧
              ((seen.foldl after e).after op).bindings.lookup s = some (.key (seen.foldl after e).ownKey)) ∧
      (∀ op s keys, e.bindings.lookup s = some (.conflict keys) →
        (e.after op).bindings.lookup s = some (.conflict keys) ∨ (∃ claimant, op = .markConflict s claimant ∧
            (e.after op).bindings.lookup s = some (.conflict (insert claimant keys))) ∨
          (∃ key store, op = .removeKey key store ∧ key ∈ keys ∧ (e.after op).bindings.lookup s = none) ∨
          (op.Registers s ∧ (e.after op).bindings.lookup s = some (.key e.ownKey))) := by
  have sound := reachable.sound
  refine ⟨sound.ownBound, fun s b tracked => ?_, fun ops s key other held last differs => ?_,
    fun op s keys held => ?_⟩
  · obtain ⟨bound, foreign, -⟩ := sound.tracked tracked
    exact ⟨bound, foreign, fun keys conflict => by rw [bound] at conflict; cases conflict⟩
  · by_contra neither
    obtain ⟨stays, foreign⟩ := not_or.mp neither
    have same : Binding.key key = .key other :=
      reachable.bound_along ops held (fun seen rest split gone => stays ⟨seen, rest, split, gone⟩)
        (fun seen op rest split called left => foreign ⟨seen, op, rest, split, called, left⟩) last
    exact differs (Binding.key.inj same)
  · have change := sound.entry_change op s
    rw [held] at change
    generalize (e.after op).bindings.lookup s = after at change ⊢
    cases change with
    | kept => exact .inl rfl
    | claimed _ claimant called => exact .inr (.inl ⟨claimant, called, rfl⟩)
    | keyRemoved _ key store named called => exact .inr (.inr (.inl ⟨key, store, called, named, rfl⟩))
    | registered _ called => exact .inr (.inr (.inr ⟨called, rfl⟩))

attribute [local instance] sampleLibraries

/-- Registration takes a session over that was bound to a peer's key. -/
theorem binding_table_invariant_sample :
    let e := after (sampleOps.foldl after (new sampleOwn)) (.bind (sampleSession 3) samplePeerKey)
    let registers := Op.registerSession (sampleRegistration (sampleSession 3)) sampleOwn
    e.bindings.lookup (sampleSession 3) = some (.key samplePeerKey) ∧ samplePeerKey ≠ e.ownKey ∧
      (e.after registers).bindings.lookup (sampleSession 3) = some (.key e.ownKey) := by
  intro e registers
  have held : e.bindings.lookup (sampleSession 3) = some (.key samplePeerKey) := by decide +kernel
  have own : (e.after registers).ownSessions.lookup (sampleSession 3) = some ⟨"/work"⟩ := by decide +kernel
  have other : samplePeerKey ≠ (e.after registers).ownKey := by decide +kernel
  have reachable : e.Reachable := (reachable_of_ops sampleOwn sampleOps).after _
  refine ⟨held, by decide +kernel, ?_⟩
  clear_value e registers
  have bound := (binding_table_invariant _ (reachable.after registers)).1 _ _ own
  rcases (binding_table_invariant e reachable).2.2.1 [registers] _ _ _ held bound other with
    ⟨seen, rest, split, gone⟩ | ⟨seen, op, rest, split, -, left⟩
  · rcases List.append_eq_singleton_iff.mp split.symm with ⟨rfl, -⟩ | ⟨rfl, -⟩
    · cases held.symm.trans gone
    · cases bound.symm.trans gone
  · rcases List.append_eq_singleton_iff.mp split.symm with ⟨rfl, last⟩ | ⟨-, last⟩ <;> cases last
    exact left

end Oac.AuthorizationEngine
