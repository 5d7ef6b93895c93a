import Oac.Authorization.Restart

/-! The removal of a key: what it takes out of the engine, and what later permissions about the key
can rest on, also when the key is paired again. -/

namespace Oac

open List Bool

def AuthorizationRequest.About (key : KeyId) : AuthorizationRequest → Prop
  | .deliver q => q.verifyingKey = key
  | .discover (.device k) _ => k = key
  | .releasePresence _ k => k = key
  | .acceptPresence k _ => k = key
  | .discover (.session _) _ | .relayPermission _ => False

namespace AuthorizationEngine

variable {e e' : AuthorizationEngine} {key : KeyId}

section Books

theorem SettingsOnly.books (only : SettingsOnly e e') : e'.sent = e.sent ∧ e'.handedOff = e.handedOff := by
  obtain ⟨_, _, _, _, _, rfl⟩ := only
  exact ⟨rfl, rfl⟩

theorem OnlyBindings.books (only : OnlyBindings e e') : e'.sent = e.sent ∧ e'.handedOff = e.handedOff := by
  obtain ⟨_, _, rfl⟩ := only
  exact ⟨rfl, rfl⟩

theorem recordHandoff_sent (record : HandOffRecord) (outcome : DeliveryState) (now : Timestamp) :
    (e.recordHandoff record outcome now).sent = e.sent := by
  have recorded := e.recordHandoff_recorded record outcome now
  generalize e.recordHandoff record outcome now = e' at recorded ⊢
  cases recorded with
  | ignored | kept => rfl
  | rebound _ _ key _ _ _ => exact (rebind_placed _ _ _ _).only.books.1

theorem Sound.recordHandoff_handed (sound : Sound e) (record : HandOffRecord) (outcome : DeliveryState)
    (now : Timestamp) (r : HandOffRecord) (held : (e.recordHandoff record outcome now).facts.handedOff r) :
    e.facts.handedOff r ∨ r = record := by
  obtain ⟨pushed, -⟩ := sound.handedIndexed.push sound.handedBounded
    (e.handoffPartition record.keyId record.fromSession) record now
  have kept : ∀ e' : AuthorizationEngine, e'.handedOff.parts = (e.handedOff.push
      (e.handoffPartition record.keyId record.fromSession) record now).2.parts → e'.facts.handedOff r →
      e.facts.handedOff r ∨ r = record := by
    rintro e' same ⟨p, mem⟩
    unfold RecordBook.partition at mem
    rw [same] at mem
    rcases pushed.mem p r mem with mem | ⟨-, given⟩
    · exact .inl ⟨p, mem⟩
    · exact .inr given
  have recorded := e.recordHandoff_recorded record outcome now
  generalize e.recordHandoff record outcome now = e' at recorded held
  cases recorded with
  | ignored => exact .inl held
  | kept _ _ _ => exact kept _ rfl held
  | rebound _ _ key verified _ _ =>
    refine kept _ ?_ held
    rw [(rebind_placed _ _ _ _).only.books.2, verified]
    rfl

theorem removeKey_grants (key : KeyId) (store : PairingSave) :
    ∀ g ∈ (e.removeKey key store).2.grants, g ∈ e.grants := by
  intro g mem
  by_cases other : key = e.ownKey
  · rw [removeKey, if_pos other] at mem
    exact mem
  · cases found : e.trusted.lookup key with
    | none =>
      rw [removeKey, if_neg other, found] at mem
      exact mem
    | some entry =>
      have trust := removeKey_trust store other (by rw [found]; rfl)
      have grants : (e.removeKey key store).2.grants = e.grants.filter (!·.namesKey key) :=
        congrArg Trust.grants trust
      rw [grants] at mem
      exact mem_of_mem_filter mem

theorem foldl_dropBinding_books (sessions : List SessionId) (e : AuthorizationEngine) :
    (sessions.foldl dropBinding e).sent = e.sent ∧ (sessions.foldl dropBinding e).handedOff = e.handedOff := by
  induction sessions generalizing e with
  | nil => exact ⟨rfl, rfl⟩
  | cons s rest ih => exact ih _

theorem removeKey_sent (key : KeyId) (store : PairingSave) : (e.removeKey key store).2.sent = e.sent := by
  unfold removeKey
  split
  · rfl
  · cases e.trusted.lookup key with
    | none => rfl
    | some entry =>
      dsimp only
      split <;> exact (foldl_dropBinding_books _ _).1

theorem Sound.removeKey_partition (sound : Sound e) (store : PairingSave) (other : key ≠ e.ownKey)
    (trusted : (e.trusted.lookup key).isSome) (p : HandOffPartition) :
    (e.removeKey key store).2.handedOff.partition p = if p.key = some key then []
      else e.handedOff.partition p := by
  obtain ⟨entry, found⟩ := Option.isSome_iff_exists.mp trusted
  obtain ⟨-, contents⟩ := sound.handedIndexed.dropPartitions fun p => p.key == some key
  have dropped : ∀ b : RecordBook HandOffPartition HandOffRecord, b = e.handedOff →
      (b.dropPartitions fun p => p.key == some key).partition p =
        if p.key = some key then [] else e.handedOff.partition p := by
    rintro b rfl
    rw [contents]
    simp
  unfold AuthorizationEngine.removeKey
  rw [if_neg other, found]
  dsimp only
  split <;> exact dropped _ (foldl_dropBinding_books _ _).2

theorem Sound.removeKey_handed (sound : Sound e) (key : KeyId) (store : PairingSave) (r : HandOffRecord)
    (held : (e.removeKey key store).2.facts.handedOff r) : e.facts.handedOff r := by
  by_cases other : key = e.ownKey
  · rw [AuthorizationEngine.removeKey, if_pos other] at held
    exact held
  · cases found : e.trusted.lookup key with
    | none =>
      rw [AuthorizationEngine.removeKey, if_neg other, found] at held
      exact held
    | some entry =>
      obtain ⟨p, mem⟩ := held
      rw [sound.removeKey_partition store other (by rw [found]; rfl)] at mem
      split at mem
      · cases mem
      · exact ⟨p, mem⟩

theorem removeKey_bindings (store : PairingSave) (other : key ≠ e.ownKey)
    (trusted : (e.trusted.lookup key).isSome) (s : SessionId) (entry : Binding)
    (bound : (e.removeKey key store).2.bindings.lookup s = some entry) : entry.names key = false := by
  obtain ⟨_, found⟩ := Option.isSome_iff_exists.mp trusted
  have kept : ∀ e' : AuthorizationEngine, e'.bindings = e.bindings →
      (((sortedKeys e.bindings.keys).filter fun s => (e.bindings.lookup s).any (·.names key)).foldl
        dropBinding e').bindings.lookup s = some entry → entry.names key = false := by
    intro e' same held
    rw [dropBindings_lookup, same] at held
    split at held
    · cases held
    · next unlisted =>
      by_contra names
      refine unlisted (mem_filter.mpr ⟨mem_sortedKeys.mpr (AList.lookup_isSome.mp (by rw [held]; rfl)), ?_⟩)
      rw [held]
      simpa using names
  unfold removeKey at bound
  rw [if_neg other, found] at bound
  dsimp only at bound
  split at bound
  · exact kept (e.withoutKey key) rfl bound
  · exact kept (e.withoutKey key) rfl bound

end Books

section About

/-- The basis answers the request about the device whose key is `key`: a grant that names it, a sent
record to it whose reply is delivered or whose addressee's presence record is accepted, or a
hand-off record of the session that its presence record is about. -/
def Concerns (key : KeyId) (request : AuthorizationRequest) : Basis → Prop
  | .inboundGrant g | .outboundGrant g => g.namesKey key = true
  | .replyRight r => r.toKeyId = key ∧ request = .deliver ⟨key, r.toSession, r.fromSession, some r.id⟩
  | .sent r => r.toKeyId = key ∧ request = .acceptPresence key r.toSession
  | .handOff h => request = .acceptPresence key h.fromSession
  | .relaySetting _ => False

theorem concerns_grantBasis (named : g.namesKey key = true) : Concerns key request (grantBasis g) := by
  cases g with
  | inbound | outbound => exact named

theorem namesKey_of_names {side : PeerSide} (named : side.names key s = true) : side.keyId = key := by
  simp only [PeerSide.names, and_eq_true, beq_iff_eq] at named
  exact named.1

theorem deliver_about {q : DeliverQuestion}
    (about : q.verifyingKey = key) (found : e.deliver q now = some basis) :
    Concerns key (.deliver q) basis := by
  unfold deliver at found
  split at found
  · cases found
  · split at found
    · next g chosen =>
      cases found
      have lets := find?_some chosen
      cases g with
      | outbound side peer => cases lets
      | inbound peer side =>
        simp only [inboundLets, and_eq_true] at lets
        simp only [Concerns, Grant.namesKey, namesKey_of_names lets.1, about, beq_self_eq_true]
    · obtain ⟨replyTo, named, found⟩ := Option.bind_eq_some_iff.mp found
      obtain ⟨r, chosen, rfl⟩ := Option.map_eq_some_iff.mp found
      have right := find?_some chosen
      simp only [hasReplyRight, and_eq_true, beq_iff_eq] at right
      obtain ⟨⟨⟨⟨⟨sameKey, sender⟩, own⟩, id⟩, -⟩, -⟩ := right
      obtain ⟨verifyingKey, fromSession, toSession, reply⟩ := q
      cases about
      cases named
      exact ⟨sameKey, by rw [sender, own, id]⟩

theorem release_about (found : e.release s key = some basis) : Concerns key request basis := by
  unfold release at found
  split at found
  · cases found
  · obtain ⟨g, chosen, rfl⟩ := Option.map_eq_some_iff.mp found
    have releases := find?_some chosen
    refine concerns_grantBasis ?_
    cases g with
    | inbound peer side =>
      simp only [releasesTo, and_eq_true] at releases
      exact releases.1
    | outbound side peer =>
      simp only [releasesTo, and_eq_true] at releases
      exact releases.1

theorem related_about {s : SessionId}
    (found : e.related key s now = some basis) : Concerns key (.acceptPresence key s) basis := by
  unfold related at found
  cases byGrant : e.grants.find? (namesPeer key s) with
  | some g =>
    rw [byGrant] at found
    cases found
    refine concerns_grantBasis ?_
    have names := find?_some byGrant
    cases g with
    | inbound | outbound => simp [Grant.namesKey, namesKey_of_names names]
  | none =>
    rw [byGrant] at found
    cases bySent : e.sent.iter.find? fun r =>
        r.toSession == s && r.toKeyId == key && withinReplyPeriod r.createdAt now with
    | some r =>
      rw [bySent] at found
      cases found
      have names := find?_some bySent
      simp only [and_eq_true, beq_iff_eq] at names
      exact ⟨names.1.2, by rw [names.1.1]⟩
    | none =>
      rw [bySent] at found
      obtain ⟨h, chosen, rfl⟩ := Option.map_eq_some_iff.mp found
      have sender := find?_some chosen
      simp only [and_eq_true, beq_iff_eq] at sender
      simp only [Concerns, sender.1]

theorem evaluate_about (about : request.About key)
    (permitted : e.evaluate request now = .permit basis) : Concerns key request basis := by
  have chosen : ∀ {found : Option Basis}, found.elim Outcome.deny Outcome.permit = .permit basis →
      found = some basis := by
    intro found outcome
    cases found with
    | none => cases outcome
    | some b => exact congrArg some (Outcome.permit.inj outcome)
  cases request with
  | deliver q => exact deliver_about about (chosen permitted)
  | discover requester s =>
    cases requester with
    | session l => exact about.elim
    | device k =>
      cases about
      exact release_about (chosen permitted)
  | releasePresence s k =>
    cases about
    exact release_about (chosen permitted)
  | acceptPresence k s =>
    cases about
    exact related_about (chosen permitted)
  | relayPermission s => exact about.elim

end About

/-- Where a basis about `key` can come from once the key was removed from `e` and the calls `ops`
followed: a grant or a record those calls brought in, a sent record, which a removal keeps, or a
hand-off record that another device verified. -/
def Origin (e : AuthorizationEngine) (ops : List Op) (key : KeyId) : Basis → Prop
  | .inboundGrant g | .outboundGrant g => ∃ store, .addGrant g store ∈ ops
  | .replyRight r | .sent r => e.facts.sent r ∨ ∃ now, .recordSent r now ∈ ops
  | .handOff h => (∃ outcome now, .recordHandoff h outcome now ∈ ops) ∨ h.keyId ≠ some key
  | .relaySetting _ => False

/-- What a permission about `key` can rest on after the removal and the calls `ops`. -/
structure RestsOn (e : AuthorizationEngine) (ops : List Op) (key : KeyId)
    (request : AuthorizationRequest) (basis : Basis) : Prop where
  concerns : Concerns key request basis
  origin : Origin e ops key basis

/-- A release to the device, or a discovery by it, rests on a new grant that names it. -/
theorem RestsOn.granted (rests : RestsOn e ops key request basis)
    (releases : request = .releasePresence s key ∨ request = .discover (.device key) s) :
    ∃ g store, .addGrant g store ∈ ops ∧ g.namesKey key = true := by
  obtain ⟨concerns, origin⟩ := rests
  cases basis with
  | inboundGrant g | outboundGrant g =>
    obtain ⟨store, added⟩ := origin
    exact ⟨g, store, added, concerns⟩
  | replyRight | sent => rcases releases with rfl | rfl <;> cases concerns.2
  | handOff => rcases releases with rfl | rfl <;> cases concerns
  | relaySetting => cases origin

/-- Nothing but sent records names the key. -/
structure Forgotten [Libraries] (e : AuthorizationEngine) (key : KeyId) : Prop where
  trusted : e.trusted.lookup key = none
  paired : e.paired.lookup key = none ∧ ∀ k record, e.paired.lookup k = some record → record.keyId ≠ key
  statements : e.agreements.lookup key = none ∧ ∀ k h, e.agreements.lookup k = some h → h.keyId ≠ key
  grants : ∀ g ∈ e.grants, g.namesKey key = false
  bindings : ∀ s entry, e.bindings.lookup s = some entry → entry.names key = false
  handedOff : ∀ r, e.facts.handedOff r → r.keyId ≠ some key

section Runs

variable [Libraries]

def Op.keepsBooks : Op → Bool
  | .removeKey _ _ | .endSession _ | .recordSent _ _ | .recordHandoff _ _ _ | .forgetHandoff _
  | .prune _ => false
  | _ => true

theorem after_books (e : AuthorizationEngine) (op : Op) (keeps : op.keepsBooks = true) :
    (e.after op).sent = e.sent ∧ (e.after op).handedOff = e.handedOff := by
  cases op with
  | pair | admitStatement | admitOwnStatement | addGrant | removeGrant | setRelay =>
    exact (after_settings e _ rfl).books
  | registerSession record own =>
    simp only [after, AuthorizationEngine.registerSession]
    split <;> exact ⟨rfl, rfl⟩
  | removeKey | endSession | recordSent | recordHandoff | forgetHandoff | prune => cases keeps
  | _ => exact (after_bindings e _ rfl).books

theorem after_grants (e : AuthorizationEngine) (op : Op) (g : Grant)
    (mem : g ∈ (e.after op).grants) : g ∈ e.grants ∨ ∃ store, op = .addGrant g store := by
  by_cases keeps : op.keepsTrust = true
  · have same : (e.after op).grants = e.grants := congrArg Trust.grants (after_trust e op keeps)
    exact .inl (same ▸ mem)
  · have ownStatement : ∀ statement now, (e.admitOwnStatement statement now).2.grants = e.grants := by
      intro statement now
      rcases e.admitOwnStatement_cases statement now with ⟨_, same⟩ | ⟨_, -, -, same | same⟩ <;> rw [same]
      rfl
    cases op with
    | pair peer store now =>
      refine .inl ?_
      simp only [after, AuthorizationEngine.pair] at mem
      split at mem
      · exact mem
      · split at mem <;> exact mem
    | admitStatement statement store now again =>
      have same : (e.admitStatement statement store now again).2.grants = e.grants := by
        rcases e.admitStatement_cases statement store now again with
          ⟨-, ⟨_, same⟩ | same⟩ | ⟨_, -, -, -, ⟨-, same⟩ | ⟨_, _, -, same, -⟩⟩
        · rw [same]
        · rw [same, ownStatement]
        · rw [same]
          rfl
        · rw [same]
      exact .inl (same ▸ mem)
    | admitOwnStatement statement now => exact .inl (ownStatement statement now ▸ mem)
    | removeKey key store => exact .inl (removeKey_grants key store g mem)
    | addGrant grant store =>
      change g ∈ (e.addGrant grant store).2.grants at mem
      rcases e.addGrant_cases grant store with same | ⟨-, added⟩ | ⟨_, same⟩
      · rw [same] at mem
        exact .inl mem
      · rw [added] at mem
        rcases mem_append.mp mem with mem | mem
        · exact .inl mem
        · rw [mem_singleton.mp mem]
          exact .inr ⟨store, rfl⟩
      · rw [same] at mem
        exact .inl mem
    | removeGrant grant store =>
      have same : (e.removeGrant grant store).2.grants = e.grants.filter (· ≠ grant) := by
        rw [removeGrant_engine]
      exact .inl (mem_of_mem_filter (same ▸ mem))
    | setRelay session enabled store =>
      have kept : (e.setRelay session enabled store).2.grants = e.grants := by
        cases enabled with
        | false => rw [setRelay_off_engine]
        | true => rcases e.setRelay_on_cases session store with same | ⟨_, same⟩ <;> rw [same]
      exact .inl (kept ▸ mem)
    | _ => exact absurd rfl keeps

theorem Sound.after_sent (sound : Sound e) (op : Op) (r : SentRecord)
    (held : (e.after op).facts.sent r) : e.facts.sent r ∨ ∃ now, op = .recordSent r now := by
  obtain ⟨p, mem⟩ := held
  by_cases keeps : op.keepsBooks = true
  · rw [(after_books e op keeps).1] at mem
    exact .inl ⟨p, mem⟩
  · cases op with
    | removeKey key store =>
      rw [show (e.after (.removeKey key store)).sent = e.sent from removeKey_sent key store] at mem
      exact .inl ⟨p, mem⟩
    | endSession session =>
      refine .inl ⟨p, ?_⟩
      simp only [AuthorizationEngine.after, AuthorizationEngine.endSession] at mem
      split at mem
      · exact mem
      · exact ((sound.sentIndexed.dropPartitions (· == session)).1.sublist p).subset mem
    | recordSent record now =>
      obtain ⟨pushed, -⟩ := sound.sentIndexed.push sound.sentBounded record.fromSession record now
      rcases pushed.mem p r mem with mem | ⟨-, rfl⟩
      · exact .inl ⟨p, mem⟩
      · exact .inr ⟨now, rfl⟩
    | recordHandoff record outcome now =>
      rw [show (e.after (.recordHandoff record outcome now)).sent = e.sent from recordHandoff_sent _ _ _] at mem
      exact .inl ⟨p, mem⟩
    | forgetHandoff record => exact .inl ⟨p, mem⟩
    | prune now =>
      have kept := (sound.sentIndexed.retain fun r => withinReplyPeriod r.createdAt now).1
      exact .inl ⟨p, (kept.sublist p).subset mem⟩
    | _ => exact absurd rfl keeps

theorem Sound.after_handed (sound : Sound e) (op : Op) (r : HandOffRecord)
    (held : (e.after op).facts.handedOff r) :
    e.facts.handedOff r ∨ ∃ outcome now, op = .recordHandoff r outcome now := by
  by_cases keeps : op.keepsBooks = true
  · obtain ⟨p, mem⟩ := held
    rw [(after_books e op keeps).2] at mem
    exact .inl ⟨p, mem⟩
  · cases op with
    | removeKey key store => exact .inl (sound.removeKey_handed key store r held)
    | endSession session =>
      refine .inl ?_
      obtain ⟨p, mem⟩ := held
      simp only [AuthorizationEngine.after, AuthorizationEngine.endSession] at mem
      split at mem
      · exact ⟨p, mem⟩
      · have received := (sound.handedIndexed.retain fun r => r.toSession ≠ session).1
        have dropped := (received.indexed.dropPartitions
          fun p => p.key == some e.ownKey && p.sender == some session).1
        exact ⟨p, ((received.trans dropped).sublist p).subset mem⟩
    | recordSent record now => exact .inl held
    | recordHandoff record outcome now =>
      rcases sound.recordHandoff_handed record outcome now r held with before | rfl
      · exact .inl before
      · exact .inr ⟨outcome, now, rfl⟩
    | forgetHandoff record =>
      obtain ⟨p, mem⟩ := held
      exact .inl ⟨p, ((sound.handedIndexed.removeFirst (e.home record) fun r =>
        r.id == record.id && r.fromSession == record.fromSession &&
          r.toSession == record.toSession).1.sublist p).subset mem⟩
    | prune now =>
      obtain ⟨p, mem⟩ := held
      exact .inl ⟨p, ((sound.handedIndexed.retain fun r =>
        withinReplyPeriod r.createdAt now).1.sublist p).subset mem⟩
    | _ => exact absurd rfl keeps

/-- Whatever is held after a run was held before it or came in by one of its calls. -/
theorem Reachable.origins (ops : List Op) (reachable : e.Reachable) :
    (∀ g ∈ (ops.foldl AuthorizationEngine.after e).grants, g ∈ e.grants ∨ ∃ store, .addGrant g store ∈ ops) ∧
      (∀ r, (ops.foldl AuthorizationEngine.after e).facts.sent r →
        e.facts.sent r ∨ ∃ now, .recordSent r now ∈ ops) ∧
      ∀ r, (ops.foldl AuthorizationEngine.after e).facts.handedOff r →
        e.facts.handedOff r ∨ ∃ outcome now, .recordHandoff r outcome now ∈ ops := by
  induction ops generalizing e with
  | nil => exact ⟨fun g mem => .inl mem, fun r held => .inl held, fun r held => .inl held⟩
  | cons op rest ih =>
    obtain ⟨grants, sent, handed⟩ := ih (reachable.after op)
    refine ⟨fun g mem => ?_, fun r held => ?_, fun r held => ?_⟩
    · rcases grants g mem with mem | ⟨store, called⟩
      · rcases after_grants e op g mem with before | ⟨store, rfl⟩
        · exact .inl before
        · exact .inr ⟨store, mem_cons_self⟩
      · exact .inr ⟨store, mem_cons_of_mem _ called⟩
    · rcases sent r held with held | ⟨now, called⟩
      · rcases reachable.sound.after_sent op r held with before | ⟨now, rfl⟩
        · exact .inl before
        · exact .inr ⟨now, mem_cons_self⟩
      · exact .inr ⟨now, mem_cons_of_mem _ called⟩
    · rcases handed r held with held | ⟨outcome, now, called⟩
      · rcases reachable.sound.after_handed op r held with before | ⟨outcome, now, rfl⟩
        · exact .inl before
        · exact .inr ⟨outcome, now, mem_cons_self⟩
      · exact .inr ⟨outcome, now, mem_cons_of_mem _ called⟩

theorem Reachable.run (ops : List Op) (reachable : e.Reachable) :
    (ops.foldl AuthorizationEngine.after e).Reachable := by
  induction ops generalizing e with
  | nil => exact reachable
  | cons op rest ih => exact ih (reachable.after op)

/-- A removed key is named by nothing but sent records. -/
theorem Reachable.forgotten (reachable : e.Reachable) (store : PairingSave) (other : key ≠ e.ownKey)
    (trusted : (e.trusted.lookup key).isSome) : Forgotten (e.removeKey key store).2 key := by
  obtain ⟨own, reached⟩ := reachable.of_device
  have removed := removeKey_trust store other trusted
  have consistent := reached.consistent.removeKey key store
  have sound := reachable.sound.removeKey key store
  have gone : (e.removeKey key store).2.trusted.lookup key = none := by
    have same : (e.removeKey key store).2.trusted = e.trusted.erase key := congrArg Trust.trusted removed
    rw [same]
    exact AList.lookup_erase key _
  obtain ⟨-, unpaired, unheld⟩ := consistent.absent gone
  obtain ⟨noRecord, noStatement⟩ := consistent.unnamed gone
  refine ⟨gone, ⟨unpaired, noRecord⟩, ⟨unheld, noStatement⟩, ?_, removeKey_bindings store other trusted, ?_⟩
  · intro g mem
    have same : (e.removeKey key store).2.grants = e.grants.filter (!·.namesKey key) :=
      congrArg Trust.grants removed
    rw [same] at mem
    simpa using (mem_filter.mp mem).2
  · rintro r ⟨p, mem⟩ named
    have sameKey : p.key = some key := by
      rw [← sound.handedHome p r mem]
      exact named
    rw [reachable.sound.removeKey_partition store other trusted, if_pos sameKey] at mem
    cases mem

theorem Reachable.restsOn (reachable : e.Reachable) (other : key ≠ e.ownKey)
    (trusted : (e.trusted.lookup key).isSome) (store : PairingSave) (ops : List Op) (about : request.About key)
    (permitted : (ops.foldl AuthorizationEngine.after (e.removeKey key store).2).evaluate
      request now = .permit basis) :
    RestsOn e ops key request basis := by
  have forgotten := reachable.forgotten store other trusted
  have removed : (e.removeKey key store).2.Reachable := reachable.after (.removeKey key store)
  obtain ⟨grants, sent, handed⟩ := Reachable.origins ops removed
  have held := ((Reachable.run ops removed).sound.evaluate_answers request now).2 basis permitted
  have concerns := evaluate_about about permitted
  have unheld : ∀ g, g.namesKey key = true → g ∉ (e.removeKey key store).2.grants := by
    intro g named before
    rw [forgotten.grants g before] at named
    cases named
  have keptSent : ∀ r, (e.removeKey key store).2.facts.sent r → e.facts.sent r := by
    rintro r ⟨p, mem⟩
    rw [removeKey_sent] at mem
    exact ⟨p, mem⟩
  refine ⟨concerns, ?_⟩
  cases basis with
  | inboundGrant g | outboundGrant g => exact (grants g held).resolve_left (unheld g concerns)
  | replyRight r | sent r => exact (sent r held).imp_left (keptSent r)
  | handOff h => exact (handed h held).symm.imp_right (forgotten.handedOff h)
  | relaySetting s => exact concerns

/-- Once a key was removed nothing but sent records names it. Whatever calls follow, a new pairing
of the key among them, a permission about it rests on a grant or a record that those calls brought
in, on a sent record to the key, or, for a presence record, on a hand-off record that another device
verified. So nothing is released to the device and it discovers nothing until a new grant names
it. -/
theorem key_removal_leaves_sent_records (e : AuthorizationEngine) (reachable : e.Reachable) (key : KeyId)
    (other : key ≠ e.ownKey) (trusted : (e.trusted.lookup key).isSome) (store : PairingSave) :
    Forgotten (e.removeKey key store).2 key ∧ (e.removeKey key store).2.sent = e.sent ∧
      (∀ ops request now basis, request.About key →
        (ops.foldl after (e.removeKey key store).2).evaluate request now = .permit basis →
          RestsOn e ops key request basis) ∧
      ∀ ops : List Op, (∀ g store, .addGrant g store ∈ ops → g.namesKey key = false) → ∀ s now,
        (ops.foldl after (e.removeKey key store).2).evaluate (.releasePresence s key) now = .deny ∧
          (ops.foldl after (e.removeKey key store).2).evaluate (.discover (.device key) s) now = .deny := by
  refine ⟨reachable.forgotten store other trusted, removeKey_sent key store, fun ops _ _ _ about =>
    reachable.restsOn other trusted store ops about, fun ops unnamed s now => ?_⟩
  have denied : ∀ request : AuthorizationRequest, request.About key →
      request = .releasePresence s key ∨ request = .discover (.device key) s →
      (ops.foldl after (e.removeKey key store).2).evaluate request now = .deny := by
    intro request about releases
    cases outcome : (ops.foldl after (e.removeKey key store).2).evaluate request now with
    | deny => rfl
    | permit basis =>
      obtain ⟨g, store', added, named⟩ :=
        (reachable.restsOn other trusted store ops about outcome).granted releases
      rw [unnamed g store' added] at named
      cases named
  exact ⟨denied _ rfl (.inl rfl), denied _ rfl (.inr rfl)⟩

end Runs

section Sample

def sampleSent : SentRecord where
  id := sampleMessageId
  fromSession := sampleSession 1
  toSession := sampleSession 3
  toKeyId := samplePeerKey
  createdAt := .epoch
  nonce := none
  ttlMs := none

def sampleSentOps : List Op := samplePeerOps ++ [.recordSent sampleSent .epoch]

attribute [local instance] sampleLibraries

def sampleSentEngine : AuthorizationEngine := sampleSentOps.foldl after (new sampleOwn)

/-- The sample removes the key, pairs it again and is asked about a release to it. -/
theorem key_removal_leaves_sent_records_sample :
    ∃ e, Reachable e ∧ samplePeerKey ≠ e.ownKey ∧ (e.trusted.lookup samplePeerKey).isSome ∧
      Forgotten (e.removeKey samplePeerKey fun _ => .ok ()).2 samplePeerKey ∧
      ((e.removeKey samplePeerKey fun _ => .ok ()).2.after (.pair samplePeer (fun _ => .ok ()) .epoch)).evaluate
        (.releasePresence (sampleSession 1) samplePeerKey) .epoch = .deny := by
  have reachable : Reachable sampleSentEngine := reachable_of_ops sampleOwn sampleSentOps
  obtain ⟨other, trusted⟩ : samplePeerKey ≠ sampleSentEngine.ownKey ∧
    (sampleSentEngine.trusted.lookup samplePeerKey).isSome = true := by decide +kernel
  obtain ⟨forgotten, -, -, denied⟩ :=
    key_removal_leaves_sent_records sampleSentEngine reachable samplePeerKey other
    trusted fun _ => .ok ()
  refine ⟨sampleSentEngine, reachable, other, trusted, forgotten, ?_⟩
  exact (denied [.pair samplePeer (fun _ => .ok ()) .epoch] (by simp) (sampleSession 1) .epoch).1

/-- A message sent to the peer before its key was removed keeps naming the key: the reply is
delivered and a presence record of the peer is related, after the removal and after a second
pairing. -/
theorem removed_key_keeps_reply_right :
    ∃ e, Reachable e ∧ samplePeerKey ≠ e.ownKey ∧ (e.trusted.lookup samplePeerKey).isSome ∧
      sampleSent ∈ (e.removeKey samplePeerKey fun _ => .ok ()).2.sent.partition (sampleSession 1) ∧
      sampleSent.toKeyId = samplePeerKey ∧ (e.removeKey samplePeerKey fun _ => .ok ()).2.evaluate (.deliver
        ⟨samplePeerKey, sampleSession 3, sampleSession 1, some sampleSent.id⟩) .epoch =
          .permit (.replyRight sampleSent) ∧ (e.removeKey samplePeerKey fun _ => .ok ()).2.evaluate
        (.acceptPresence samplePeerKey (sampleSession 3)) .epoch = .permit (.sent sampleSent) ∧
      ((e.removeKey samplePeerKey fun _ => .ok ()).2.pair samplePeer (fun _ => .ok ()) .epoch).2.evaluate
        (.deliver ⟨samplePeerKey, sampleSession 3, sampleSession 1, some sampleSent.id⟩) .epoch =
          .permit (.replyRight sampleSent) := by
  exact ⟨sampleSentEngine, reachable_of_ops sampleOwn sampleSentOps, by decide +kernel⟩

end Sample

end AuthorizationEngine

end Oac
