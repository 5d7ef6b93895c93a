import Oac.Authorization.Trust
import Oac.Authorization.Pins

/-! Failed saves and restarts: a trust change that is refused or cannot be saved leaves trust as it
was, a removal that cannot be saved is still made, and an engine restored from what another one
saved has the same trust. -/

namespace Oac

open Results List

theorem find_valuesInOrder [DecidableEq K] [Ord K] {key : V → K}
    (keyed : ∀ k v, t.lookup k = some v → key v = k)
    (k : K) : (valuesInOrder t).find? (fun v => decide (key v = k)) = t.lookup k := by
  cases held : t.lookup k with
  | none =>
    refine find?_eq_none.mpr fun v mem carries => ?_
    obtain ⟨k', found⟩ := mem_valuesInOrder.mp mem
    have same : k' = k := (keyed k' v found).symm.trans (of_decide_eq_true carries)
    rw [same, held] at found
    cases found
  | some v =>
    have listed : v ∈ valuesInOrder t := mem_valuesInOrder.mpr ⟨k, held⟩
    have some_ : ((valuesInOrder t).find? fun v => decide (key v = k)).isSome :=
      find?_isSome.mpr ⟨v, listed, decide_eq_true (keyed k v held)⟩
    obtain ⟨other, found⟩ := Option.isSome_iff_exists.mp some_
    obtain ⟨k', there⟩ := mem_valuesInOrder.mp (mem_of_find?_eq_some found)
    have carries : key other = k := by simpa using find?_some found
    have same : k' = k := (keyed k' other there).symm.trans carries
    rw [same, held] at there
    rw [found, ← there]

/-- The next of values with distinct keys, put under its key into a table that has the values before
it. -/
theorem lookup_next [DecidableEq K] {t : Table K V} (distinct : ((done ++ v :: rest).map key).Nodup)
    (held : ∀ k, t.lookup k = done.find? fun v => decide (key v = k)) : t.lookup (key v) = none ∧
      ∀ k, (t.insert (key v) v).lookup k = (done ++ [v]).find? fun v => decide (key v = k) := by
  have fresh : t.lookup (key v) = none := by
    rw [held]
    rw [map_append, nodup_append] at distinct
    refine find?_eq_none.mpr fun w mem => ?_
    simpa using distinct.2.2 _ (mem_map_of_mem mem) (key v) (by simp)
  refine ⟨fresh, fun k => ?_⟩
  rw [Table.lookup_insert_if, find?_append, ← held]
  split
  · next same => rw [same, fresh]; simp
  · next differs => simp [Ne.symm differs]

namespace AuthorizationEngine

variable {e e' : AuthorizationEngine}

theorem removeKey_succeeds
    (failed : e.removeKey key store = (.error (.notSaved error), e')) :
    ∃ removal, e.removeKey key (fun _ => .ok ()) = (.ok removal, e') := by
  have same := e.removeKey_engine key store fun _ => .ok ()
  rw [failed] at same
  unfold removeKey at failed same ⊢
  split at failed
  · cases failed
  · next other =>
    rw [if_neg other] at same ⊢
    cases found : e.trusted.lookup key with
    | none =>
      rw [found] at failed
      cases failed
    | some entry =>
      rw [found] at same
      exact ⟨_, Prod.ext rfl same.symm⟩

/-- A refused delivery changes nothing: an entry goes only to make room for one that comes. -/
theorem authorizeDelivery_refused
    (refused : e.authorizeDelivery msg now = (.error refusal, e')) : e' = e := by
  have delivers := e.authorizeDelivery_delivers msg now
  rw [refused] at delivers
  cases delivers with
  | refused => rfl
  | full key after unbound taken =>
    revert taken
    fun_cases bindFromEnvelope <;> rintro ⟨⟩
    rfl

theorem restore_grants (grants : List Grant) (e : AuthorizationEngine)
    (distinct : (e.grants ++ grants).Nodup) :
    grants.foldl restoreGrant e = { e with grants := e.grants ++ grants } := by
  induction grants generalizing e with
  | nil => simp
  | cons grant rest ih =>
    have fresh : grant ∉ e.grants := by
      intro mem
      exact (nodup_append.mp distinct).2.2 grant mem grant (by simp) rfl
    rw [foldl_cons, restoreGrant, if_neg fresh, ih _ (by simpa using distinct)]
    simp

theorem mem_restore_relay (sessions relay : List SessionId) (s : SessionId) :
    s ∈ sessions.foldl (fun relay s => relay.insert s) relay ↔ s ∈ sessions ∨ s ∈ relay := by
  induction sessions generalizing relay with
  | nil => simp
  | cons first rest ih =>
    rw [foldl_cons, ih, mem_insert_iff, mem_cons]
    tauto

/-- What the statements restored so far leave. -/
structure RestoredStatements (first : AuthorizationEngine) (statements : List HeldStatement)
    (e : AuthorizationEngine) : Prop where
  held : ∀ k, e.agreements.lookup k = statements.find? fun h => decide (h.keyId = k)
  rest : e = { first with agreements := e.agreements }

theorem restoreStatements_ok (first : AuthorizationEngine) (statements : List HeldStatement)
    (empty : first.agreements = ∅) (distinct : (statements.map HeldStatement.keyId).Nodup)
    (floors : ∀ h ∈ statements, first.MeetsFloors h) :
    ∃ e, statements.foldlM restoreStatement first = .ok e ∧ RestoredStatements first statements e := by
  refine foldlM_succeeds (P := RestoredStatements first) ?_ ⟨fun k => by rw [empty]; rfl, rfl⟩
  intro done h rest e whole kept
  obtain ⟨none_, held⟩ := lookup_next (whole ▸ distinct) kept.held
  obtain ⟨record, paired, checked⟩ := floors h (by rw [whole]; simp)
  have samePaired : e.paired = first.paired := by rw [kept.rest]
  refine ⟨e.admitting h, ?_, held, ?_⟩
  · unfold restoreStatement
    have known : e.paired.lookup h.keyId = some record := by rw [samePaired, paired]
    simp only [known, none_, Option.isNone_some, Option.isSome_none, Bool.or_self,
      Bool.false_eq_true, if_false, Option.bind_some, checked]
    rfl
  · rw [kept.rest]
    rfl

section Snapshots

variable [Libraries] {own : DeviceIdentity} {e : AuthorizationEngine}

def StartedAs (own : DeviceIdentity) (e : AuthorizationEngine) : Prop :=
  e = new own ∨ ∃ loaded, restore own loaded = .ok e

def ReachableAs (own : DeviceIdentity) (e : AuthorizationEngine) : Prop :=
  ∃ first, StartedAs own first ∧ Transition.Reaches step Transition.anyMove first e

theorem Reachable.of_device (reachable : Reachable e) : ∃ own, ReachableAs own e := by
  obtain ⟨first, ⟨own, started⟩, run⟩ := reachable
  exact ⟨own, first, started, run⟩

theorem restore_consistent (restored : restore own loaded = .ok e) : Consistent own e := by
  have pairs : ∀ (s : AuthorizationEngine) record t, restorePaired s record = .ok t →
      Consistent own s → Consistent own t := by
    intro s record t done consistent
    revert done
    fun_cases restorePaired <;> rintro ⟨⟩
    · next added =>
      unfold TrustedKeySet.addPairedKey at added
      dsimp only at added
      split at added
      · cases added
      · next untrusted =>
        cases added
        exact consistent.pairedWith record none untrusted (by rintro h ⟨⟩)
  have grants : ∀ (grants : List Grant) (s : AuthorizationEngine), Consistent own s →
      Consistent own (grants.foldl restoreGrant s) := by
    intro grants
    induction grants with
    | nil => exact fun s consistent => consistent
    | cons grant rest ih =>
      intro s consistent
      refine ih _ ?_
      unfold restoreGrant
      split
      · exact consistent
      · next fresh =>
        exact ⟨consistent.ownKey, consistent.ownTrusted, consistent.paired, consistent.onlyPaired,
          consistent.held, consistent.grants.append (nodup_singleton grant) (by simpa using fresh),
          consistent.relay⟩
  have relays : ∀ (sessions relay : List SessionId), relay.Nodup →
      (sessions.foldl (fun relay s => relay.insert s) relay).Nodup := by
    intro sessions
    induction sessions with
    | nil => exact fun relay nodup => nodup
    | cons s rest ih => exact fun relay nodup => ih _ nodup.insert
  have statements : ∀ (s : AuthorizationEngine) held t, restoreStatement s held = .ok t →
      Consistent own s → Consistent own t := by
    intro s held t done consistent
    unfold restoreStatement at done
    dsimp only at done
    split at done
    · cases done
    · next known =>
      split at done
      · cases done
      · next checked =>
        cases done
        refine consistent.admitting held fun _ => ?_
        cases paired : s.paired.lookup held.keyId with
        | none => simp [paired] at known
        | some record =>
          rw [paired] at checked
          exact ⟨record, paired, checked⟩
  obtain ⟨snapshot, -, restored⟩ := bind_eq_ok.mp restored
  obtain ⟨middle, paired, restored⟩ := bind_eq_ok.mp restored
  have first : Consistent own middle :=
    foldlM_keeps (R := fun s t => Consistent own s → Consistent own t) (fun _ => id)
      (fun a b c => b (a c)) pairs _ paired (new_consistent own)
  have granted := grants snapshot.grants middle first
  refine foldlM_keeps (R := fun s t => Consistent own s → Consistent own t) (fun _ => id)
    (fun a b c => b (a c)) statements _ restored ?_
  exact ⟨granted.ownKey, granted.ownTrusted, granted.paired, granted.onlyPaired,
    granted.held, granted.grants, relays _ _ nodup_nil⟩

/-- In every engine of a device the trust tables agree. -/
theorem ReachableAs.consistent (reachable : ReachableAs own e) : Consistent own e := by
  obtain ⟨first, started, run⟩ := reachable
  refine Transition.Reaches.invariant (fun op s t _ stepped held => ?_) run ?_
  · cases stepped
    exact held.after op
  · rcases started with rfl | ⟨loaded, restored⟩
    · exact new_consistent own
    · exact restore_consistent restored

/-- A trust change that is refused or not saved leaves trust as it was, a removal that is not saved
is made all the same, and a refused delivery leaves the engine alone. -/
theorem trust_changes_all_or_nothing (e : AuthorizationEngine) (reachable : e.Reachable)
    (store : PairingSave) :
    (∀ peer now error e', e.pair peer store now = (.error error, e') → e' = e) ∧
      (∀ grant error e', e.addGrant grant store = (.error error, e') → e' = e) ∧
      (∀ s error e', e.setRelay s true store = (.error error, e') → e' = e) ∧
      (∀ statement now again refusal e', e.admitStatement statement store now again = (.error refusal, e') →
        SameTrust e e') ∧ (∀ key error e', e.removeKey key store = (.error (.notSaved error), e') →
        ∃ removal, e.removeKey key (fun _ => .ok ()) = (.ok removal, e')) ∧
      (∀ grant error e', e.removeGrant grant store = (.error error, e') →
        e.removeGrant grant (fun _ => .ok ()) = (.ok true, e')) ∧
      (∀ s error e', e.setRelay s false store = (.error error, e') →
        e.setRelay s false (fun _ => .ok ()) = (.ok (), e')) ∧
      ∀ msg now refusal e', e.authorizeDelivery msg now = (.error refusal, e') → e' = e := by
  obtain ⟨own, reached⟩ := reachable.of_device
  have consistent := reached.consistent
  refine ⟨?_, ?_, ?_, ?_, ?_, ?_, ?_, ?_⟩
  · intro peer now error e' failed
    rcases consistent.pair_cases peer store now with ⟨-, _, same⟩ | ⟨-, ⟨-, paired⟩ | ⟨_, -, same⟩⟩
    · rw [same] at failed
      exact (Prod.mk.inj failed).2.symm
    · rw [paired] at failed
      cases failed
    · rw [same] at failed
      exact (Prod.mk.inj failed).2.symm
  · intro grant error e' failed
    rcases e.addGrant_cases grant store with same | ⟨-, added⟩ | ⟨_, same⟩
    · rw [same] at failed
      cases failed
    · rw [added] at failed
      cases failed
    · rw [same] at failed
      exact (Prod.mk.inj failed).2.symm
  · intro s error e' failed
    rcases e.setRelay_on_cases s store with on | ⟨_, same⟩
    · rw [on] at failed
      cases failed
    · rw [same] at failed
      exact (Prod.mk.inj failed).2.symm
  · intro statement now again refusal e' failed
    rcases e.admitStatement_cases statement store now again with
      ⟨-, ⟨_, same⟩ | same⟩ | ⟨held, -, -, -, ⟨-, taken⟩ | ⟨_, statements, -, undone, lookups⟩⟩
    · rw [same] at failed
      rw [← (Prod.mk.inj failed).2]
      exact .refl e
    · rw [same] at failed
      rcases e.admitOwnStatement_cases statement again with ⟨_, refused⟩ | ⟨held, -, -, kept | taken⟩
      · rw [refused] at failed
        rw [← (Prod.mk.inj failed).2]
        exact .refl e
      · rw [kept] at failed
        cases failed
      · rw [taken] at failed
        cases failed
    · rw [taken] at failed
      cases failed
    · rw [undone] at failed
      rw [← (Prod.mk.inj failed).2]
      exact ⟨fun _ => rfl, fun _ => rfl, rfl, rfl, lookups⟩
  · intro key error e' failed
    exact removeKey_succeeds failed
  · intro grant error e' failed
    have same : e' = { e with grants := e.grants.filter (· ≠ grant) } := by
      rw [← e.removeGrant_engine grant store, failed]
    rw [same]
    unfold removeGrant at failed ⊢
    dsimp only at failed ⊢
    split at failed
    · cases failed
    · next fewer => rw [if_neg fewer]
  · intro s error e' failed
    have same : e' = { e with relay := e.relay.filter (· ≠ s) } := by
      rw [← e.setRelay_off_engine s store, failed]
    rw [same]
    rfl
  · intro msg now refusal e' refused
    exact authorizeDelivery_refused refused

section Restart

/-- What the keys restored so far leave: their records, their entries and the entry of the
device. -/
structure RestoredKeys (own : DeviceIdentity) (records : List PairingRecord)
    (e : AuthorizationEngine) : Prop where
  paired : ∀ k, e.paired.lookup k = records.find? fun r => decide (r.keyId = k)
  trusted : ∀ k, e.trusted.lookup k = if k = own.keyId then some own.entry else (e.paired.lookup k).map entryOf
  settings : e.grants = [] ∧ e.agreements = ∅

theorem restoreKeys_ok (own : DeviceIdentity) (distinct : (records.map PairingRecord.keyId).Nodup)
    (foreign : ∀ r ∈ records, r.keyId ≠ own.keyId) :
    ∃ e, records.foldlM restorePaired (new own) = .ok e ∧ RestoredKeys own records e := by
  refine foldlM_succeeds (P := RestoredKeys own) ?_ ⟨fun k => rfl, fun k => ?_, rfl, rfl⟩
  · intro done record rest e whole held
    obtain ⟨unpaired, paired⟩ := lookup_next (whole ▸ distinct) held.paired
    have other : record.keyId ≠ own.keyId := foreign record (by rw [whole]; simp)
    have untrusted : e.trusted.lookup record.keyId = none := by
      rw [held.trusted, if_neg other, unpaired]
      rfl
    refine ⟨{ e with
      trusted := e.trusted.insert record.keyId (entryOf record)
      paired := e.paired.insert record.keyId record }, ?_, paired, fun k => ?_, held.settings⟩
    · have added : e.trusted.addPairedKey record.principal record.publicKey =
          .ok (e.trusted.insert record.keyId (entryOf record)) := by
        have absent : e.trusted.lookup (TrustedKey.new record.principal record.publicKey).keyId =
          none := untrusted
        simp only [TrustedKeySet.addPairedKey, absent]
        rfl
      unfold restorePaired
      rw [added]
    · rw [Table.lookup_insert_if, Table.lookup_insert_if, held.trusted]
      by_cases same : k = record.keyId
      · simp [same, other]
      · simp [same]
  · change AList.lookup k (AList.insert own.keyId own.entry (∅ : TrustedKeySet)) = _
    rw [Table.lookup_insert_if]
    rfl

/-- The keys of a snapshot restore with the records and entries they had. -/
theorem Consistent.restore_keys (consistent : Consistent own e) :
    ∃ keyed, (valuesInOrder e.paired).foldlM restorePaired (new own) = .ok keyed ∧
      (∀ k, keyed.paired.lookup k = e.paired.lookup k) ∧ (∀ k, keyed.trusted.lookup k = e.trusted.lookup k) ∧
      keyed.grants = [] ∧ keyed.agreements = ∅ := by
  have keys : ∀ k r, e.paired.lookup k = some r → r.keyId = k :=
    fun k r found => (consistent.paired k r found).1
  obtain ⟨keyed, folded, restored⟩ := restoreKeys_ok own (valuesInOrder_nodup keys) (by
    intro r mem
    obtain ⟨k, found⟩ := mem_valuesInOrder.mp mem
    obtain ⟨named, foreign, -⟩ := consistent.paired k r found
    exact named ▸ foreign)
  have samePaired : ∀ k, keyed.paired.lookup k = e.paired.lookup k := fun k =>
    (restored.paired k).trans (find_valuesInOrder keys k)
  refine ⟨keyed, folded, samePaired, fun k => ?_, restored.settings⟩
  rw [restored.trusted, samePaired]
  split
  · next isOwn => rw [isOwn, consistent.ownTrusted]
  · next foreign =>
    cases paired : e.paired.lookup k with
    | some r => exact (consistent.paired k r paired).2.2.symm
    | none =>
      cases trusted : e.trusted.lookup k with
      | none => rfl
      | some entry =>
        have known := consistent.onlyPaired k entry trusted foreign
        rw [paired] at known
        cases known

/-- The statements of a snapshot, all but the device's own, restore over the same records. -/
theorem Consistent.restore_statements (consistent : Consistent own e) (first : AuthorizationEngine)
    (samePaired : ∀ k, first.paired.lookup k = e.paired.lookup k) (empty : first.agreements = ∅) :
    ∃ last, ((valuesInOrder e.agreements).filter (·.keyId ≠ e.ownKey)).foldlM
      restoreStatement first = .ok last ∧ last = { first with agreements := last.agreements } ∧
      ∀ k, last.agreements.lookup k = if k = own.keyId then none else e.agreements.lookup k := by
  have keys : ∀ k h, e.agreements.lookup k = some h → h.keyId = k :=
    fun k h found => (consistent.held k h found).1
  obtain ⟨last, folded, final⟩ := restoreStatements_ok first
    ((valuesInOrder e.agreements).filter (·.keyId ≠ e.ownKey)) empty
    ((valuesInOrder_nodup keys).sublist (filter_sublist.map _)) (by
      intro h mem
      obtain ⟨listed, foreign⟩ := mem_filter.mp mem
      obtain ⟨k, found⟩ := mem_valuesInOrder.mp listed
      obtain ⟨named, floors⟩ := consistent.held k h found
      rw [consistent.ownKey] at foreign
      obtain ⟨record, paired, checked⟩ := floors (named ▸ of_decide_eq_true foreign)
      exact ⟨record, (samePaired _).trans paired, checked⟩)
  refine ⟨last, folded, final.rest, fun k => ?_⟩
  rw [final.held, find?_filter, consistent.ownKey]
  split
  · next isOwn =>
    refine find?_eq_none.mpr fun h _ found => ?_
    simp [isOwn] at found
  · next foreign =>
    rw [← find_valuesInOrder keys k]
    congr 1
    funext h
    by_cases named : h.keyId = k
    · simp [named, foreign]
    · simp [named]

/-- The snapshot of an engine whose trust tables agree restores, to the same trust but for the
device's own statement. -/
theorem Consistent.restored (consistent : Consistent own e) :
    ∃ e', restore own (.ok e.snapshot) = .ok e' ∧
      (∀ k, e'.trusted.lookup k = e.trusted.lookup k) ∧ (∀ k, e'.paired.lookup k = e.paired.lookup k) ∧
      e'.grants = e.grants ∧ (∀ s, s ∈ e'.relay ↔ s ∈ e.relay) ∧
      ∀ k, e'.agreements.lookup k = if k = own.keyId then none else e.agreements.lookup k := by
  obtain ⟨keyed, keysFolded, samePaired, sameTrusted, noGrants, noStatements⟩ := consistent.restore_keys
  let relay := (sortedKeys e.relay).foldl (fun relay s => relay.insert s) ([] : List SessionId)
  obtain ⟨last, statementsFolded, rest, held⟩ :=
    consistent.restore_statements { keyed with grants := e.grants, relay := relay } samePaired noStatements
  refine ⟨last, ?_, ?_, ?_, ?_, ?_, held⟩
  · have granted := restore_grants e.grants keyed (by rw [noGrants]; exact consistent.grants)
    rw [noGrants] at granted
    refine bind_eq_ok.mpr ⟨e.snapshot, rfl, bind_eq_ok.mpr ⟨keyed, keysFolded, ?_⟩⟩
    change ((valuesInOrder e.agreements).filter (·.keyId ≠ e.ownKey)).foldlM restoreStatement
      { e.grants.foldl restoreGrant keyed with relay := relay } = .ok last
    rw [granted]
    exact statementsFolded
  · rw [rest]
    exact sameTrusted
  · rw [rest]
    exact samePaired
  · rw [rest]
  · intro s
    rw [rest]
    rw [mem_restore_relay, mem_sortedKeys]
    simp

/-- The store holds the snapshot that the last save wrote. An engine restored from the snapshot of
any engine of the device has the same trust; the device's own statement alone is not kept. -/
theorem restart_preserves_trust (own : DeviceIdentity) (e : AuthorizationEngine)
    (reachable : ReachableAs own e) :
    (∃ e', restore own (.ok e.snapshot) = .ok e' ∧
      (∀ k, e'.trusted.lookup k = e.trusted.lookup k) ∧ (∀ k, e'.paired.lookup k = e.paired.lookup k) ∧
      e'.grants = e.grants ∧ (∀ s, s ∈ e'.relay ↔ s ∈ e.relay) ∧
      ∀ k, e'.agreements.lookup k = if k = own.keyId then none else e.agreements.lookup k) ∧
    ∀ k h, k ≠ own.keyId → e.agreements.lookup k = some h → e.MeetsFloors h := by
  have consistent := reachable.consistent
  exact ⟨consistent.restored, fun k h foreign found => (consistent.held k h found).2 foreign⟩

end Restart

end Snapshots

theorem reachableAs_of_ops [Libraries] (own : DeviceIdentity) (ops : List Op) :
    ReachableAs own (ops.foldl after (new own)) := by
  refine ⟨new own, .inl rfl, ?_⟩
  generalize new own = e
  induction ops generalizing e with
  | nil => exact .refl
  | cons op rest ih => exact .head ⟨op, trivial, rfl⟩ (ih _)

attribute [local instance] sampleLibraries

theorem trust_changes_all_or_nothing_sample :
    ∃ e, Reachable e ∧
      ∃ e', pair e samplePeer (fun _ => .error (.failed "disk full")) .epoch =
        (.error (.notSaved (.failed "disk full")), e') ∧ e' = e := by
  have reachable : Reachable sampleEngine := reachable_of_ops sampleOwn sampleOps
  have first : (pair sampleEngine samplePeer (fun _ => .error (.failed "disk full")) .epoch).1 =
      .error (.notSaved (.failed "disk full")) := by decide +kernel
  have failed := Prod.mk.eta.symm.trans (congrArg (fun result => (result, Prod.snd _)) first)
  exact ⟨sampleEngine, reachable, _, failed,
    (@trust_changes_all_or_nothing _ sampleEngine reachable _).1 _ _ _ _ failed⟩

theorem restart_preserves_trust_sample :
    ∃ e, ReachableAs sampleOwn e ∧ (e.paired.lookup samplePeerKey).isSome ∧
      ∃ e', restore sampleOwn (.ok e.snapshot) = .ok e' ∧
        e'.paired.lookup samplePeerKey = e.paired.lookup samplePeerKey := by
  have reachable : ReachableAs sampleOwn samplePeerEngine :=
    reachableAs_of_ops sampleOwn samplePeerOps
  obtain ⟨e', restored, -, paired, -⟩ :=
    (@restart_preserves_trust _ sampleOwn samplePeerEngine reachable).1
  have known : (samplePeerEngine.paired.lookup samplePeerKey).isSome = true := by decide +kernel
  exact ⟨samplePeerEngine, reachable, known, e', restored, paired samplePeerKey⟩

end AuthorizationEngine

end Oac
