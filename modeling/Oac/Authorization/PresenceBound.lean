import Oac.Authorization.KeyRemoval
import Oac.Authorization.OwnSessions

/-! Which bindings only a presence record stands behind, and how many the tracking of
envelope-created entries holds. No call adds one of the first except `bind`, and only a hand-off
record whose sender lost its binding takes the second over its capacity. -/

namespace Oac.AuthorizationEngine

open AList
open EnvelopeBindings hiding victim

variable {e e' : AuthorizationEngine} {s : SessionId}

/-- The session is bound to a key, it is no own session and no envelope-created entry is tracked for
it. -/
def boundByPresence (e : AuthorizationEngine) (s : SessionId) : Bool :=
  (match e.bindings.lookup s with
    | some (.key _) => true
    | _ => false) &&
  (e.ownSessions.lookup s).isNone && (e.envelopeBound.sessions.lookup s).isNone

theorem boundByPresence_iff : e.boundByPresence s = true ↔ (∃ key, e.bindings.lookup s = some (.key key)) ∧
    e.ownSessions.lookup s = none ∧ e.envelopeBound.sessions.lookup s = none := by
  unfold boundByPresence
  cases e.bindings.lookup s with
  | none => simp
  | some entry => cases entry <;> simp

theorem boundByPresence_of_same (bindings : e'.bindings.lookup s = e.bindings.lookup s)
    (own : e'.ownSessions.lookup s = e.ownSessions.lookup s)
    (tracked : (e'.envelopeBound.sessions.lookup s).isSome = (e.envelopeBound.sessions.lookup s).isSome)
    (bound : e'.boundByPresence s = true) : e.boundByPresence s = true := by
  rw [boundByPresence_iff, bindings, own] at bound
  rw [bound.2.2] at tracked
  exact boundByPresence_iff.mpr ⟨bound.1, bound.2.1,
    Option.not_isSome_iff_eq_none.mp (by rw [← tracked]; simp)⟩

def byPresence (e : AuthorizationEngine) : List SessionId :=
  e.bindings.keys.filter e.boundByPresence

theorem mem_byPresence : s ∈ e.byPresence ↔ e.boundByPresence s = true := by
  unfold byPresence
  rw [List.mem_filter]
  refine ⟨fun both => both.2, fun bound => ⟨?_, bound⟩⟩
  obtain ⟨⟨key, found⟩, -⟩ := boundByPresence_iff.mp bound
  exact lookup_isSome.mp (by rw [found]; rfl)

theorem byPresence_length {sessions : List SessionId}
    (within : ∀ s, e.boundByPresence s = true → s ∈ sessions) : e.byPresence.length ≤ sessions.length := by
  have nodup : e.byPresence.Nodup := e.bindings.keys_nodup.filter _
  exact (List.subperm_of_subset nodup fun s mem => within s (mem_byPresence.mp mem)).length_le

def underConflict (e : AuthorizationEngine) : List SessionId :=
  e.bindings.keys.filter fun s => match e.bindings.lookup s with
    | some (.conflict _) => true
    | _ => false

/-- Each entry of the binding table is an own session, tracked, under conflict or bound by
presence. -/
theorem bindings_split (e : AuthorizationEngine) : e.bindings.size ≤ e.ownSessions.size +
    e.envelopeBound.sessions.size + e.underConflict.length + e.byPresence.length := by
  have within : e.bindings.keys ⊆
      e.ownSessions.keys ++ e.envelopeBound.sessions.keys ++ e.underConflict ++ e.byPresence := by
    intro s mem
    simp only [List.mem_append]
    by_cases owned : (e.ownSessions.lookup s).isSome
    · exact .inl (.inl (.inl (lookup_isSome.mp owned)))
    by_cases tracked : (e.envelopeBound.sessions.lookup s).isSome
    · exact .inl (.inl (.inr (lookup_isSome.mp tracked)))
    obtain ⟨entry, found⟩ := Option.isSome_iff_exists.mp (lookup_isSome.mpr mem)
    cases entry with
    | conflict keys => exact .inl (.inr (List.mem_filter.mpr ⟨mem, by rw [found]⟩))
    | key key =>
      apply Or.inr
      rw [mem_byPresence, boundByPresence_iff]
      exact ⟨⟨key, found⟩, Option.not_isSome_iff_eq_none.mp owned, Option.not_isSome_iff_eq_none.mp tracked⟩
  have bound := (List.subperm_of_subset e.bindings.keys_nodup within).length_le
  simp only [List.length_append] at bound
  simp only [Table.size_eq_keys_length]
  exact bound

/-- No session became bound by presence alone, and at most `n` tracked entries came to be above the
capacity. -/
structure Settles (n : Nat) (e e' : AuthorizationEngine) : Prop where
  presence : ∀ s, e'.boundByPresence s = true → e.boundByPresence s = true
  capacity : e'.envelopeBound.capacity = e.envelopeBound.capacity
  tracked : e'.envelopeBound.sessions.size ≤ max e.envelopeBound.sessions.size e.envelopeBound.capacity + n

namespace Settles

theorem refl (e : AuthorizationEngine) : Settles 0 e e :=
  ⟨fun _ bound => bound, rfl, Nat.le_max_left _ _⟩

theorem trans (first : Settles m e e') (second : Settles n e' e'') : Settles (m + n) e e'' := by
  have one := first.tracked
  have two := second.tracked
  rw [first.capacity] at two
  exact ⟨fun s bound => first.presence s (second.presence s bound),
    second.capacity.trans first.capacity, by omega⟩

theorem one (s : SessionId) (here : e'.boundByPresence s = true → e.boundByPresence s = true)
    (bindings : ∀ x, x ≠ s → e'.bindings.lookup x = e.bindings.lookup x)
    (own : ∀ x, x ≠ s → e'.ownSessions.lookup x = e.ownSessions.lookup x) (tracked : ∀ x, x ≠ s →
      (e'.envelopeBound.sessions.lookup x).isSome = (e.envelopeBound.sessions.lookup x).isSome)
    (noMore : (e'.envelopeBound.sessions.lookup s).isSome → (e.envelopeBound.sessions.lookup s).isSome)
    (capacity : e'.envelopeBound.capacity = e.envelopeBound.capacity) : Settles 0 e e' := by
  refine ⟨fun x bound => ?_, capacity, ?_⟩
  · by_cases same : x = s
    · subst same
      exact here bound
    · exact boundByPresence_of_same (bindings x same) (own x same) (tracked x same) bound
  · refine Nat.le_trans (Table.size_le_of_keys fun x present => ?_) (Nat.le_max_left _ _)
    by_cases same : x = s
    · subst same
      exact noMore present
    · rwa [← tracked x same]

/-- The session is tracked no longer, and is an own one or bound to no key. -/
theorem untracked (s : SessionId) (books : e'.envelopeBound = e.envelopeBound.untrack s)
    (unbound : (∃ key, e'.bindings.lookup s = some (.key key)) → e'.ownSessions.lookup s ≠ none)
    (bindings : ∀ x, x ≠ s → e'.bindings.lookup x = e.bindings.lookup x)
    (own : ∀ x, x ≠ s → e'.ownSessions.lookup x = e.ownSessions.lookup x) : Settles 0 e e' := by
  refine .one s (fun bound => ?_) bindings own (fun x other => ?_) (fun present => ?_) ?_
  · obtain ⟨found, foreign, -⟩ := boundByPresence_iff.mp bound
    exact absurd foreign (unbound found)
  · rw [books, untrack_sessions, if_neg other]
  · rw [books, untrack_sessions, if_pos rfl] at present
    cases present
  · rw [books]
    exact (untrack_limits _ _).2.2

theorem same (bindings : e'.bindings = e.bindings) (own : e'.ownSessions = e.ownSessions)
    (tracked : ∀ x, (e'.envelopeBound.sessions.lookup x).isSome = (e.envelopeBound.sessions.lookup x).isSome)
    (capacity : e'.envelopeBound.capacity = e.envelopeBound.capacity) : Settles 0 e e' := by
  refine ⟨fun x => boundByPresence_of_same (by rw [bindings]) (by rw [own]) (tracked x), capacity, ?_⟩
  exact Nat.le_trans (Table.size_le_of_keys fun x present => by rwa [← tracked x]) (Nat.le_max_left _ _)

end Settles

section Pieces

theorem syncPins_isTracked (e : AuthorizationEngine) (s : SessionId) :
    (e.syncPins.envelopeBound.sessions.lookup s).isSome = (e.envelopeBound.sessions.lookup s).isSome := by
  have kept : ∀ (log : List (HandOffPartition × SessionId × Bool)) (t : EnvelopeBindings),
      ((log.foldl noteChange t).sessions.lookup s).isSome = (t.sessions.lookup s).isSome := by
    intro log
    induction log with
    | nil => exact fun _ => rfl
    | cons c rest ih =>
      intro t
      rw [List.foldl_cons, ih, noteChange_sessions, Option.isSome_map]
  exact kept _ _

theorem syncPins_capacity (e : AuthorizationEngine) :
    e.syncPins.envelopeBound.capacity = e.envelopeBound.capacity :=
  (noteChanges_limits _ _).2

theorem Settles.books (settles : Settles n e e') (sent : RecordBook SessionId SentRecord)
    (handedOff : RecordBook HandOffPartition HandOffRecord) :
    Settles n e { e' with sent := sent, handedOff := handedOff }.syncPins := by
  have synced : Settles 0 e' { e' with sent := sent, handedOff := handedOff }.syncPins :=
    .same rfl rfl (fun x => syncPins_isTracked { e' with sent := sent, handedOff := handedOff } x)
      (syncPins_capacity { e' with sent := sent, handedOff := handedOff })
  exact settles.trans synced

theorem SettingsOnly.settles (only : SettingsOnly e e') : Settles 0 e e' := by
  obtain ⟨_, _, _, _, _, rfl⟩ := only
  exact .same rfl rfl (fun _ => rfl) rfl

theorem dropBinding_settles (e : AuthorizationEngine) (s : SessionId) : Settles 0 e (e.dropBinding s) := by
  refine .untracked s rfl ?_ (fun x other => lookup_erase_ne other) fun _ _ => rfl
  rintro ⟨key, found⟩
  change lookup s (e.bindings.erase s) = _ at found
  simp at found

theorem foldl_dropBinding_settles (sessions : List SessionId) (e : AuthorizationEngine) :
    Settles 0 e (sessions.foldl dropBinding e) := by
  induction sessions generalizing e with
  | nil => exact .refl e
  | cons s rest ih => exact (e.dropBinding_settles s).trans (ih _)

theorem evict_settles (e : AuthorizationEngine) (s : SessionId) : Settles 0 e (e.evict s) :=
  e.dropBinding_settles s

theorem bindTracked_size (e : AuthorizationEngine) (s : SessionId) (key : KeyId)
    (partition : HandOffPartition) :
    (e.bindTracked s key partition).envelopeBound.sessions.size ≤ e.envelopeBound.sessions.size + 1 :=
  Table.size_le_succ_of_keys fun x present => by
    change ((e.envelopeBound.track s key _).sessions.lookup x).isSome at present
    rw [track_sessions] at present
    split at present
    · next same => exact .inl same
    · exact .inr present

theorem bindTracked_settles : Settles 1 e (e.bindTracked s key partition) := by
  have tracked : ∀ x, (e.bindTracked s key partition).envelopeBound.sessions.lookup x =
      if x = s then some ⟨key, e.envelopeBound.next + 1, e.handedOff.holdsSender partition s⟩
      else e.envelopeBound.sessions.lookup x := fun x => track_sessions x
  refine ⟨fun x bound => ?_, (track_limits _ _ _ _).2.2, ?_⟩
  · obtain ⟨⟨key', found⟩, foreign, untracked⟩ := boundByPresence_iff.mp bound
    rw [tracked] at untracked
    split at untracked
    · cases untracked
    · next other =>
      change lookup x (e.bindings.insert s _) = _ at found
      rw [lookup_insert_ne other] at found
      exact boundByPresence_iff.mpr ⟨⟨key', found⟩, foreign, untracked⟩
  · have more := e.bindTracked_size s key partition
    omega

theorem Settles.within (settles : Settles n e e')
    (room : e'.envelopeBound.sessions.size ≤ max e.envelopeBound.sessions.size e.envelopeBound.capacity) :
    Settles 0 e e' := ⟨settles.presence, settles.capacity, room⟩

theorem bindTracked_in_room (room : e.envelopeBound.hasRoom key' = true) :
    Settles 0 e (e.bindTracked s key partition) := by
  have settles : Settles 1 e (e.bindTracked s key partition) := bindTracked_settles
  have below : e.envelopeBound.sessions.size < e.envelopeBound.capacity := by
    simp only [hasRoom, Bool.and_eq_true, decide_eq_true_eq] at room
    exact room.2
  have more := e.bindTracked_size s key partition
  exact settles.within (by omega)

theorem Sound.bindTracked_in_place (sound : Sound e) (found : e.envelopeBound.victim key' = some victim) :
    Settles 0 e ((e.evict victim).bindTracked s key partition) := by
  obtain ⟨b, tracked, -⟩ := sound.exact.victim found
  have fewer : (e.evict victim).envelopeBound.sessions.size < e.envelopeBound.sessions.size := by
    have looked : ∀ x, (e.evict victim).envelopeBound.sessions.lookup x =
        if x = victim then none else e.envelopeBound.sessions.lookup x :=
      fun x => untrack_sessions x
    refine Table.size_lt_of_keys (fun x present => ?_) (by rw [looked, if_pos rfl])
      (by rw [tracked]; rfl)
    rw [looked] at present
    split at present
    · cases present
    · exact present
  have evicted := e.evict_settles victim
  have bound : Settles 1 (e.evict victim) ((e.evict victim).bindTracked s key partition) := bindTracked_settles
  have more := (e.evict victim).bindTracked_size s key partition
  exact (evicted.trans bound).within (by omega)

end Pieces

section Calls

theorem Sound.bindFromEnvelope_settles (sound : Sound e) (session : SessionId) (key : KeyId) :
    Settles 0 e (e.bindFromEnvelope session key).2 := by
  unfold AuthorizationEngine.bindFromEnvelope
  split
  · next room => exact bindTracked_in_room room
  · cases found : e.envelopeBound.victim key with
    | none => exact .refl e
    | some victim => exact sound.bindTracked_in_place found

theorem Sound.authorizeDelivery_settles (sound : Sound e) (msg : ChannelMessage) (now : Timestamp) :
    Settles 0 e (e.authorizeDelivery msg now).2 := by
  rcases e.authorizeDelivery_state msg now with same | ⟨key, -, bound⟩
  · rw [same]
    exact .refl e
  · rw [bound]
    exact sound.bindFromEnvelope_settles msg.envelope.fromSession key

def rebinds (e : AuthorizationEngine) : Op → Bool
  | .recordHandoff record outcome _ =>
    (outcome == .handedToHarness || outcome == .unknown) && (e.rebindKey record).isSome
  | _ => false

theorem Placed.settles (placed : Placed e session key partition e') : Settles 1 e e' := by
  cases placed with
  | added => exact bindTracked_settles
  | evicting victim found => exact (e.evict_settles victim).trans bindTracked_settles

theorem recordHandoff_settles (record : HandOffRecord) (outcome : DeliveryState) (now : Timestamp) :
    Settles (e.rebinds (.recordHandoff record outcome now)).toNat e (e.recordHandoff record outcome now) := by
  have recorded := e.recordHandoff_recorded record outcome now
  generalize e.recordHandoff record outcome now = e' at recorded ⊢
  have synced := fun partition => (Settles.refl e).books e.sent (e.handedOff.push partition record now).2
  cases recorded with
  | ignored => exact ⟨fun _ bound => bound, rfl, by omega⟩
  | kept _ _ none =>
    have uncounted : e.rebinds (.recordHandoff record outcome now) = false := by simp [rebinds, none]
    rw [uncounted]
    exact synced _
  | rebound _ taken key verified _ found =>
    have counted : e.rebinds (.recordHandoff record outcome now) = true := by
      simpa only [rebinds, found, Option.isSome_some, Bool.and_true, Bool.or_eq_true, beq_iff_eq] using taken
    rw [counted]
    exact (synced _).trans (rebind_placed _ _ _ _).settles

theorem removeKey_settles (key : KeyId) (store : PairingSave) : Settles 0 e (e.removeKey key store).2 := by
  unfold removeKey
  split
  · exact .refl e
  cases e.trusted.lookup key with
  | none => exact .refl e
  | some _ =>
    dsimp only
    generalize (sortedKeys e.bindings.keys).filter _ = named
    have trimmed : Settles 0 e (e.withoutKey key) := .same rfl rfl (fun _ => rfl) rfl
    have dropped := (trimmed.trans (foldl_dropBinding_settles named _)).books
    split
    · exact dropped _ _
    · exact dropped _ _

theorem endSession_settles (session : SessionId) : Settles 0 e (e.endSession session).2 := by
  unfold endSession
  cases e.ownSessions.lookup session with
  | none => exact .refl e
  | some scope =>
    have erased : Settles 0 e { e with
        ownSessions := e.ownSessions.erase session
        bindings := e.bindings.erase session } := by
      refine .one session (fun bound => ?_) (fun x other => lookup_erase_ne other)
        (fun x other => lookup_erase_ne other) (fun _ _ => rfl) id rfl
      obtain ⟨⟨key, found⟩, -⟩ := boundByPresence_iff.mp bound
      simp at found
    exact erased.books _ _

theorem markConflict_settles (session : SessionId) (claimant : KeyId) :
    Settles 0 e (e.markConflict session claimant).2 := by
  unfold markConflict
  split
  · exact .refl e
  cases e.bindings.lookup session with
  | none => exact .refl e
  | some entry =>
    refine .untracked session rfl ?_ (fun x other => lookup_insert_ne other) fun _ _ => rfl
    rintro ⟨key, found⟩
    simp at found

theorem forgetBinding_settles (session : SessionId) : Settles 0 e (e.forgetBinding session).2 := by
  fun_cases forgetBinding
  · exact .refl e
  · exact e.dropBinding_settles session
  · exact .refl e
  · exact .refl e

variable [Libraries]

theorem registerSession_settles (record : RegistrationRecord) (own : DeviceIdentity) :
    Settles 0 e (e.registerSession record own).2 := by
  unfold registerSession
  split
  · exact .refl e
  refine .untracked record.sessionId rfl ?_ (fun x other => lookup_insert_ne other)
    fun x other => lookup_insert_ne other
  intro _ foreign
  simp at foreign

/-- A call made from outside the presence checks, on an engine whose limits are set. -/
def Op.isOutward : Op → Bool
  | .bind _ _ | .markConflict _ _ | .forgetBinding _ | .withEnvelopeBindingLimits _ _ => false
  | _ => true

/-- What every such call does to the bindings that presence stands behind and to the tracked
ones. -/
theorem Sound.after_settles (sound : Sound e) (outward : op.isOutward = true) :
    Settles (e.rebinds op).toNat e (e.after op) := by
  cases op with
  | bind | markConflict | forgetBinding | withEnvelopeBindingLimits => cases outward
  | pair | admitStatement | admitOwnStatement | addGrant | removeGrant | setRelay =>
    exact (after_settings e _ rfl).settles
  | removeKey key store => exact removeKey_settles key store
  | registerSession record own => exact registerSession_settles record own
  | endSession session => exact endSession_settles session
  | recordSent record now => exact .same rfl rfl (fun _ => rfl) rfl
  | recordHandoff record outcome now => exact recordHandoff_settles record outcome now
  | forgetHandoff record => exact (Settles.refl e).books e.sent _
  | prune now => exact (Settles.refl e).books _ _
  | decide request now => exact .refl e
  | authorizeDelivery msg now => exact sound.authorizeDelivery_settles msg now

end Calls

/-- A call on the engine marks nothing unless it is `markConflict`. -/
theorem Sound.after_unmarked [Libraries] (sound : Sound e) (outward : op.isOutward = true) (s : SessionId)
    (keys : Finset KeyId) (marked : (e.after op).bindings.lookup s = some (.conflict keys)) :
    e.bindings.lookup s = some (.conflict keys) := by
  have change := sound.entry_change op s
  rw [marked] at change
  generalize e.bindings.lookup s = before at change ⊢
  cases change with
  | kept => rfl
  | marked _ _ called | claimed _ _ called =>
    subst called
    cases outward

end Oac.AuthorizationEngine
