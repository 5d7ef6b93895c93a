import Oac.Authorization.BindingTable

/-! A binding that hand-off records are read through is pinned, and a pinned one is never
evicted. -/

namespace Oac.AuthorizationEngine

variable {e : AuthorizationEngine} {s : SessionId} {key : KeyId}

/-- The book holds a hand-off record from `s` in the partition of `key`. -/
def Reads (e : AuthorizationEngine) (key : KeyId) (s : SessionId) : Prop :=
  ∃ r ∈ e.handedOff.partition (e.handoffPartition (some key) s), r.fromSession = s

theorem Sound.pinned_iff (sound : Sound e) (found : e.envelopeBound.sessions.lookup s = some b) :
    b.pinned = true ↔ e.Reads b.key s := by
  rw [sound.pinned s b found]
  exact sound.handedIndexed.holdsSender sound.counting _ s

section Evictions

variable {session : SessionId} {partition : HandOffPartition}

theorem Sound.victim_unread (sound : Sound e) (found : e.envelopeBound.victim key = some s) :
    ∃ b, e.envelopeBound.sessions.lookup s = some b ∧ ¬ e.Reads b.key s := by
  obtain ⟨b, tracked, free, -⟩ := sound.exact.victim found
  refine ⟨b, tracked, fun reads => ?_⟩
  rw [(sound.pinned_iff tracked).mpr reads] at free
  cases free

theorem bindTracked_tracks (held : e.envelopeBound.sessions.lookup s = some b) :
    ((e.bindTracked session key partition).envelopeBound.sessions.lookup s).isSome := by
  change ((e.envelopeBound.track session key _).sessions.lookup s).isSome
  rw [EnvelopeBindings.track_sessions]
  split
  · rfl
  · rw [held]
    rfl

theorem evict_tracks (held : e.envelopeBound.sessions.lookup s = some b) (other : s ≠ victim) :
    (e.evict victim).envelopeBound.sessions.lookup s = some b := by
  change (e.envelopeBound.untrack victim).sessions.lookup s = some b
  rw [EnvelopeBindings.untrack_sessions, if_neg other]
  exact held

theorem Sound.evicted_unread (sound : Sound e) (found : e.envelopeBound.victim key = some victim)
    (held : e.envelopeBound.sessions.lookup s = some b)
    (gone : ((e.evict victim).bindTracked session key partition).envelopeBound.sessions.lookup s = none) :
    ¬ e.Reads b.key s := by
  by_cases same : s = victim
  · subst same
    obtain ⟨b', tracked, unread⟩ := sound.victim_unread found
    rw [held, Option.some.injEq] at tracked
    rwa [tracked]
  · have still := @bindTracked_tracks _ s key session partition b (evict_tracks held same)
    rw [gone] at still
    cases still

theorem Sound.placed_evicts (sound : Sound e) (placed : Placed e session key partition e')
    (held : e.envelopeBound.sessions.lookup s = some b) (gone : e'.envelopeBound.sessions.lookup s = none) :
    ¬ e.Reads b.key s := by
  cases placed with
  | added =>
    have still := @bindTracked_tracks _ s key session partition b held
    rw [gone] at still
    cases still
  | evicting victim found => exact sound.evicted_unread found held gone

theorem Sound.bindFromEnvelope_evicts (sound : Sound e) (session : SessionId) (key : KeyId)
    (held : e.envelopeBound.sessions.lookup s = some b)
    (gone : (e.bindFromEnvelope session key).2.envelopeBound.sessions.lookup s = none) :
    ¬ e.Reads b.key s := by
  rcases e.bindFromEnvelope_placed session key with same | placed
  · exact absurd (same ▸ gone) (by simp [held])
  · exact sound.placed_evicts placed held gone

theorem OnlyBindings.reads (only : OnlyBindings e e') (key : KeyId) (s : SessionId) :
    e'.Reads key s ↔ e.Reads key s := by
  obtain ⟨_, _, rfl⟩ := only
  exact Iff.rfl

theorem syncPins_tracks (exact : e.envelopeBound.Exact) {b : EnvelopeBinding}
    (held : e.envelopeBound.sessions.lookup s = some b) :
    ∃ b', e.syncPins.envelopeBound.sessions.lookup s = some b' ∧ b'.key = b.key := by
  obtain ⟨-, looked⟩ := noteChanges e.handedOff.senders.changes exact
  refine ⟨{ b with pinned := notedPin b.key s b.pinned e.handedOff.senders.changes }, ?_, rfl⟩
  change (e.handedOff.senders.changes.foldl noteChange e.envelopeBound).sessions.lookup s = _
  rw [looked, held]
  rfl

theorem Sound.recordHandoff_evicts (sound : Sound e) (record : HandOffRecord)
    (outcome : DeliveryState) (now : Timestamp) (held : e.envelopeBound.sessions.lookup s = some b)
    (gone : (e.recordHandoff record outcome now).envelopeBound.sessions.lookup s = none) :
    ¬ (e.recordHandoff record outcome now).Reads b.key s := by
  have recorded := e.recordHandoff_recorded record outcome now
  generalize e.recordHandoff record outcome now = e' at recorded gone ⊢
  obtain ⟨b', tracked, sameKey⟩ := @syncPins_tracks
    { e with handedOff := (e.handedOff.push (e.home record) record now).2 } s sound.exact b held
  cases recorded with
  | ignored => exact absurd gone (by simp [held])
  | kept _ _ _ => exact absurd (tracked.symm.trans gone) (by simp)
  | rebound ownSender _ k verified _ _ =>
    have kept := sound.keepHandoff record now ownSender
    rw [home, verified] at kept tracked
    have placed := rebind_placed { e with handedOff := (e.handedOff.push
      (e.handoffPartition (some k) record.fromSession) record now).2 }.syncPins record.fromSession k
      (e.handoffPartition (some k) record.fromSession)
    rw [← sameKey, placed.only.reads]
    exact kept.placed_evicts placed tracked gone

end Evictions

section Share

/-- The senders of a key's records are no more than a partition holds records, so no more of its
tracked sessions are pinned. -/
theorem Sound.pinnedOf_le (sound : Sound e) (key : KeyId) :
    e.envelopeBound.pinnedOf key ≤ maxRecordsPerPartition := by
  rw [sound.exact.pinnedCount key]
  refine (Table.sum_indicator_le (p := fun _ (b : EnvelopeBinding) => b.key = key ∧ b.pinned = true)
    (l := (e.handedOff.partition ⟨some key, none⟩).map HandOffRecord.fromSession) ?_).trans ?_
  · rintro s b tracked ⟨rfl, pinned⟩
    obtain ⟨r, mem, sender⟩ := (sound.pinned_iff tracked).mp pinned
    by_cases isOwn : b.key = e.ownKey
    · -- a record of the own key has an own session as its sender, and those are never tracked
      have verified : r.keyId = some e.ownKey := by
        have place := sound.handedHome _ r mem
        rw [← isOwn]
        exact congrArg HandOffPartition.key place
      have owned := sound.ownSenders _ r mem verified
      rw [sender, sound.trackedForeign s b tracked] at owned
      cases owned
    · have place : e.handoffPartition (some b.key) s = ⟨some b.key, none⟩ := by
        simp [handoffPartition, isOwn]
      rw [place] at mem
      exact List.mem_map.mpr ⟨r, mem, sender⟩
  · rw [List.length_map]
    exact sound.handedBounded.records _

theorem Sound.victim_at_share (sound : Sound e) (share : maxRecordsPerPartition < e.envelopeBound.perKey)
    (full : e.envelopeBound.perKey ≤ e.envelopeBound.heldBy key) : (e.envelopeBound.victim key).isSome := by
  refine EnvelopeBindings.victim_isSome full ?_
  have pinned := sound.pinnedOf_le key
  rw [EnvelopeBindings.heldBy_eq] at full
  omega

/-- A key below its share whose entry is refused found the table at its capacity. -/
theorem Sound.full_of_no_room (sound : Sound e) (share : maxRecordsPerPartition < e.envelopeBound.perKey)
    (refused : (e.bindFromEnvelope s key).1 = false) :
    e.envelopeBound.capacity ≤ Table.size e.envelopeBound.sessions := by
  unfold AuthorizationEngine.bindFromEnvelope at refused
  split at refused
  · cases refused
  · next noRoom =>
    cases found : e.envelopeBound.victim key with
    | some victim =>
      rw [found] at refused
      cases refused
    | none =>
      have below : e.envelopeBound.heldBy key < e.envelopeBound.perKey := by
        by_contra atShare
        have some := sound.victim_at_share share (Nat.le_of_not_lt atShare)
        rw [found] at some
        cases some
      simp only [EnvelopeBindings.hasRoom, below, decide_true, Bool.true_and, decide_eq_true_eq] at noRoom
      exact Nat.le_of_not_lt noRoom

/-- The only refusal as an internal error is the one for lack of room. -/
theorem authorizeDelivery_internalError (refused : (e.authorizeDelivery msg now).1 = .error refusal)
    (internal : refusal.error = .internalError) :
    ∃ key, (e.bindFromEnvelope msg.envelope.fromSession key).1 = false := by
  have delivers := e.authorizeDelivery_delivers msg now
  generalize e.authorizeDelivery msg now = answer at delivers refused
  cases delivers with
  | permitted => cases refused
  | refused =>
    cases refused
    cases internal
  | full key after unbound taken => exact ⟨key, by rw [taken]⟩

end Share

/-- Pins, counts and evictions in every engine that operations lead to. A session of a key is pinned
exactly when a record from it is in the key's partition, the counts of each key are exact, an
evicted entry is never one a record is read through, and with the default share a delivery is
refused for lack of room only when the table is at its capacity. -/
theorem pinned_bindings_kept [Libraries] (e : AuthorizationEngine) (reachable : e.Reachable) :
    (∀ s b, e.envelopeBound.sessions.lookup s = some b → (b.pinned = true ↔ e.Reads b.key s)) ∧
      (∀ k, Table.size (e.envelopeBound.freeOf k) = e.envelopeBound.tracked k false ∧
        e.envelopeBound.pinnedOf k = e.envelopeBound.tracked k true) ∧
      (∀ session key s b, e.envelopeBound.sessions.lookup s = some b →
        (e.bindFromEnvelope session key).2.envelopeBound.sessions.lookup s = none → b.pinned = false) ∧
      (∀ record outcome now s b, e.envelopeBound.sessions.lookup s = some b →
        (e.recordHandoff record outcome now).envelopeBound.sessions.lookup s = none →
          ¬ (e.recordHandoff record outcome now).Reads b.key s) ∧
      (e.envelopeBound.perKey = maxEnvelopeBindingsPerKey →
        (∀ k, maxEnvelopeBindingsPerKey ≤ e.envelopeBound.heldBy k → 0 < Table.size (e.envelopeBound.freeOf k) ∧
          (e.envelopeBound.victim k).isSome) ∧ ∀ msg now refusal,
            (e.authorizeDelivery msg now).1 = .error refusal →
          refusal.error = .internalError → e.envelopeBound.capacity ≤ Table.size e.envelopeBound.sessions) := by
  have sound := reachable.sound
  refine ⟨fun s b tracked => sound.pinned_iff tracked,
    fun k => ⟨sound.exact.freeCount k, sound.exact.pinnedCount k⟩,
    fun session key s b tracked gone => ?_, fun record outcome now s b tracked gone =>
      sound.recordHandoff_evicts record outcome now tracked gone, fun default => ⟨fun k full => ?_, ?_⟩⟩
  · have unread := sound.bindFromEnvelope_evicts session key tracked gone
    rwa [← sound.pinned_iff tracked, Bool.not_eq_true] at unread
  · have share : maxRecordsPerPartition < e.envelopeBound.perKey := by
      rw [default]
      decide
    rw [← default] at full
    refine ⟨?_, sound.victim_at_share share full⟩
    have pinned := sound.pinnedOf_le k
    rw [EnvelopeBindings.heldBy_eq] at full
    omega
  · intro msg now refusal refused internal
    have share : maxRecordsPerPartition < e.envelopeBound.perKey := by
      rw [default]
      decide
    obtain ⟨key, noRoom⟩ := authorizeDelivery_internalError refused internal
    exact sound.full_of_no_room share noRoom

section Sample

def samplePeer : PairedPeer where
  record := ⟨samplePeerName, .replicate 1, .epoch, none⟩
  statement := none

def sampleHandOff : HandOffRecord where
  id := sampleMessageId
  fromSession := sampleSession 3
  toSession := sampleSession 1
  createdAt := .epoch
  conversationId := none
  correlationId := none
  keyId := some samplePeerKey

def samplePeerOps : List Op :=
  sampleOps ++ [.pair samplePeer (fun _ => .ok ()) .epoch,
    .recordHandoff sampleHandOff .handedToHarness .epoch]

def samplePeerEngine : AuthorizationEngine :=
  samplePeerOps.foldl (@after sampleLibraries) (new sampleOwn)

theorem pinned_bindings_kept_sample :
    samplePeerEngine.envelopeBound.sessions.lookup (sampleSession 3) =
      some ⟨samplePeerKey, 1, true⟩ ∧ samplePeerEngine.Reads samplePeerKey (sampleSession 3) ∧
      samplePeerEngine.envelopeBound.perKey = maxEnvelopeBindingsPerKey := by
  have tracked : samplePeerEngine.envelopeBound.sessions.lookup (sampleSession 3) =
      some ⟨samplePeerKey, 1, true⟩ := by decide +kernel
  have kept := @pinned_bindings_kept sampleLibraries samplePeerEngine
    (@reachable_of_ops sampleLibraries sampleOwn samplePeerOps)
  exact ⟨tracked, (kept.1 _ _ tracked).mp rfl, by decide +kernel⟩

end Sample

end Oac.AuthorizationEngine
