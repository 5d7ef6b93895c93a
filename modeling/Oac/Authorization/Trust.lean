import Oac.Authorization.EngineProofs

/-! Trust: the trusted keys, the pairing records, the grants, the relay settings and the held
statements. What ties these tables together is kept by every operation, so a change that fails to
be saved is taken back exactly. -/

namespace Oac

open Table AList List AuthorizationEngine

section Ordered

variable {K V : Type} [Ord K]

theorem mem_sortedKeys {keys : List K} : k ∈ sortedKeys keys ↔ k ∈ keys :=
  (perm_insertionSort _ keys).mem_iff

variable [DecidableEq K]

theorem valuesInOrder_keys {key : V → K} (keyed : ∀ k v, t.lookup k = some v → key v = k) :
    (valuesInOrder t).map key = sortedKeys t.keys := by
  have all : ∀ keys : List K, (∀ k ∈ keys, k ∈ t.keys) → (keys.filterMap (t.lookup ·)).map key = keys := by
    intro keys within
    induction keys with
    | nil => rfl
    | cons k rest ih =>
      obtain ⟨v, found⟩ := Option.isSome_iff_exists.mp (lookup_isSome.mpr (within k mem_cons_self))
      rw [filterMap_cons_some (f := fun k => t.lookup k) found, map_cons, keyed k v found,
        ih fun k' mem => within k' (mem_cons_of_mem _ mem)]
  exact all _ fun k => mem_sortedKeys.mp

theorem valuesInOrder_nodup {key : V → K} (keyed : ∀ k v, t.lookup k = some v → key v = k) :
    ((valuesInOrder t).map key).Nodup := by
  rw [valuesInOrder_keys keyed]
  exact (perm_insertionSort _ _).nodup_iff.mpr t.keys_nodup

theorem mem_valuesInOrder {t : Table K V} : v ∈ valuesInOrder t ↔ ∃ k, t.lookup k = some v := by
  unfold valuesInOrder
  rw [mem_filterMap]
  constructor
  · rintro ⟨k, -, found⟩
    exact ⟨k, found⟩
  · rintro ⟨k, found⟩
    exact ⟨k, mem_sortedKeys.mpr (lookup_isSome.mp (by rw [found]; rfl)), found⟩

end Ordered

/-- What a pairing store keeps of an engine, and the key of the device. -/
structure Trust where
  ownKey : KeyId
  trusted : TrustedKeySet
  paired : Table KeyId PairingRecord
  grants : List Grant
  relay : List SessionId
  agreements : Table KeyId HeldStatement

namespace AuthorizationEngine

variable {e e' : AuthorizationEngine} {key : KeyId}

def trust (e : AuthorizationEngine) : Trust :=
  ⟨e.ownKey, e.trusted, e.paired, e.grants, e.relay, e.agreements⟩

/-- The trust tables hold the same. -/
structure SameTrust (e e' : AuthorizationEngine) : Prop where
  trusted : ∀ k, e'.trusted.lookup k = e.trusted.lookup k
  paired : ∀ k, e'.paired.lookup k = e.paired.lookup k
  grants : e'.grants = e.grants
  relay : e'.relay = e.relay
  agreements : ∀ k, e'.agreements.lookup k = e.agreements.lookup k

theorem SameTrust.refl (e : AuthorizationEngine) : SameTrust e e :=
  ⟨fun _ => rfl, fun _ => rfl, rfl, rfl, fun _ => rfl⟩

section Removal

theorem foldl_dropBinding_trust (sessions : List SessionId) (e : AuthorizationEngine) :
    (sessions.foldl dropBinding e).trust = e.trust := by
  induction sessions generalizing e with
  | nil => rfl
  | cons s rest ih => exact ih _

theorem removeKey_trust (store : PairingSave) (other : key ≠ e.ownKey)
    (trusted : (e.trusted.lookup key).isSome) :
    (e.removeKey key store).2.trust =
      ⟨e.ownKey, e.trusted.erase key, e.paired.erase key, e.grants.filter (!·.namesKey key),
        e.relay, e.agreements.erase key⟩ := by
  obtain ⟨entry, found⟩ := Option.isSome_iff_exists.mp trusted
  unfold removeKey
  rw [if_neg other, found]
  dsimp only
  split
  · exact foldl_dropBinding_trust _ _
  · exact foldl_dropBinding_trust _ _

theorem removeKey_engine (e : AuthorizationEngine) (key : KeyId) (store store' : PairingSave) :
    (e.removeKey key store).2 = (e.removeKey key store').2 := by
  unfold removeKey
  split
  · rfl
  · cases e.trusted.lookup key with
    | none => rfl
    | some entry =>
      dsimp only
      split
      · split <;> rfl
      · split <;> rfl

theorem removeGrant_engine (e : AuthorizationEngine) (grant : Grant) (store : PairingSave) :
    (e.removeGrant grant store).2 = { e with grants := e.grants.filter (· ≠ grant) } := by
  fun_cases removeGrant <;> rfl

theorem setRelay_off_engine (e : AuthorizationEngine) (session : SessionId) (store : PairingSave) :
    (e.setRelay session false store).2 = { e with relay := e.relay.filter (· ≠ session) } := by
  unfold setRelay
  rw [if_neg Bool.false_ne_true]
  dsimp only
  split <;> rfl

end Removal

section Settings

theorem addGrant_cases (e : AuthorizationEngine) (grant : Grant) (store : PairingSave) :
    e.addGrant grant store = (.ok false, e) ∨
      (grant ∉ e.grants ∧ e.addGrant grant store = (.ok true, { e with grants := e.grants ++ [grant] })) ∨
      ∃ error, e.addGrant grant store = (.error error, e) := by
  unfold addGrant
  split
  · exact .inl rfl
  · next fresh =>
    dsimp only
    split
    · exact .inr (.inl ⟨fresh, rfl⟩)
    · next error _ =>
      refine .inr (.inr ⟨error, ?_⟩)
      simp only [dropLast_concat]

theorem setRelay_on_cases (e : AuthorizationEngine) (session : SessionId) (store : PairingSave) :
    e.setRelay session true store = (.ok (), { e with relay := e.relay.insert session }) ∨
      ∃ error, e.setRelay session true store = (.error error, e) := by
  unfold setRelay
  rw [if_pos rfl]
  dsimp only
  split
  · exact .inl rfl
  · next error _ =>
    refine .inr ⟨error, ?_⟩
    by_cases listed : session ∈ e.relay
    · simp [listed]
    · have others : (e.relay.insert session).filter (fun s => decide (s ≠ session)) = e.relay := by
        rw [insert_of_not_mem listed, filter_cons_of_neg (by simp)]
        refine filter_eq_self.mpr fun s mem => ?_
        have differs : s ≠ session := fun same => listed (same ▸ mem)
        simpa using differs
      simp only [listed, not_false_eq_true, decide_true, if_true, others]

end Settings

theorem checkConfirmed_ofHeld (h : HeldStatement) :
    checkConfirmed h (some (ConfirmedValues.ofHeld h)) = .ok () := by
  simp [checkConfirmed, ConfirmedValues.ofHeld]

def holding (statements : Table KeyId HeldStatement) (key : KeyId) :
    Option HeldStatement → Table KeyId HeldStatement
  | some h => statements.insert key h
  | none => statements

theorem erase_holding (held : Option HeldStatement) (absent : statements.lookup key = none) :
    (holding statements key held).erase key = statements := by
  cases held with
  | some h => exact erase_insert_of_lookup_none h absent
  | none => exact erase_of_lookup_none absent

theorem lookup_holding (held : Option HeldStatement) (absent : statements.lookup key = none) (k : KeyId) :
    (holding statements key held).lookup k = if k = key then held else statements.lookup k := by
  cases held with
  | some h => exact lookup_insert_if key k h statements
  | none =>
    change statements.lookup k = _
    split
    · next same => rw [same, absent]
    · rfl

def recordOf (peer : PairedPeer) (held : Option HeldStatement) : PairingRecord :=
  { peer.record with confirmed := held.map ConfirmedValues.ofHeld }

def admitting (e : AuthorizationEngine) (held : HeldStatement) : AuthorizationEngine :=
  { e with agreements := e.agreements.insert held.keyId held }

variable [Libraries]

def entryOf (record : PairingRecord) : TrustedKey :=
  TrustedKey.new record.principal record.publicKey

/-- A held statement of a peer meets the floors that its pairing confirmed. -/
def MeetsFloors (e : AuthorizationEngine) (h : HeldStatement) : Prop :=
  ∃ record, e.paired.lookup h.keyId = some record ∧ checkConfirmed h record.confirmed = .ok ()

/-- The trust tables agree with each other and with the identity of the device. -/
structure Consistent (own : DeviceIdentity) (e : AuthorizationEngine) : Prop where
  ownKey : e.ownKey = own.keyId
  ownTrusted : e.trusted.lookup own.keyId = some own.entry
  paired : ∀ k record, e.paired.lookup k = some record →
    record.keyId = k ∧ k ≠ own.keyId ∧ e.trusted.lookup k = some (entryOf record)
  onlyPaired : ∀ k entry, e.trusted.lookup k = some entry → k ≠ own.keyId → (e.paired.lookup k).isSome
  held : ∀ k h, e.agreements.lookup k = some h → h.keyId = k ∧ (k ≠ own.keyId → e.MeetsFloors h)
  grants : e.grants.Nodup
  relay : e.relay.Nodup

variable {own : DeviceIdentity}

theorem Consistent.of_same (consistent : Consistent own e) (sameKey : e'.ownKey = e.ownKey)
    (same : SameTrust e e') : Consistent own e' := by
  refine ⟨sameKey.trans consistent.ownKey, (same.trusted _).trans consistent.ownTrusted, ?_, ?_, ?_,
    same.grants ▸ consistent.grants, same.relay ▸ consistent.relay⟩
  · intro k record paired
    rw [same.trusted]
    exact consistent.paired k record (same.paired k ▸ paired)
  · intro k entry trusted
    rw [same.paired]
    exact consistent.onlyPaired k entry (same.trusted k ▸ trusted)
  · intro k h found
    unfold MeetsFloors
    rw [same.paired]
    exact consistent.held k h (same.agreements k ▸ found)

theorem Consistent.of_trust (consistent : Consistent own e) (same : e'.trust = e.trust) :
    Consistent own e' := by
  injection same with ownKey trusted paired grants relay agreements
  exact consistent.of_same ownKey ⟨fun _ => by rw [trusted], fun _ => by rw [paired], grants, relay,
    fun _ => by rw [agreements]⟩

theorem new_consistent (own : DeviceIdentity) : Consistent own (new own) where
  ownKey := rfl
  ownTrusted := lookup_insert ∅
  paired k record found := by simp [new] at found
  onlyPaired k entry found other := by
    have single : (new own).trusted.lookup k = none := by
      change lookup k (insert own.keyId own.entry (∅ : TrustedKeySet)) = none
      rw [lookup_insert_if, if_neg other]
      rfl
    rw [single] at found
    cases found
  held k h found := by simp [new] at found
  grants := nodup_nil
  relay := nodup_nil

theorem Consistent.absent (consistent : Consistent own e) (untrusted : e.trusted.lookup key = none) :
    key ≠ own.keyId ∧ e.paired.lookup key = none ∧ e.agreements.lookup key = none := by
  have other : key ≠ own.keyId := by
    rintro rfl
    rw [consistent.ownTrusted] at untrusted
    cases untrusted
  have unpaired : e.paired.lookup key = none := by
    cases found : e.paired.lookup key with
    | none => rfl
    | some record =>
      rw [(consistent.paired key record found).2.2] at untrusted
      cases untrusted
  refine ⟨other, unpaired, ?_⟩
  cases found : e.agreements.lookup key with
  | none => rfl
  | some h =>
    obtain ⟨named, floors⟩ := consistent.held key h found
    obtain ⟨record, paired, -⟩ := floors other
    rw [named, unpaired] at paired
    cases paired

theorem Consistent.unnamed (consistent : Consistent own e) (untrusted : e.trusted.lookup key = none) :
    (∀ k record, e.paired.lookup k = some record → record.keyId ≠ key) ∧
      ∀ k h, e.agreements.lookup k = some h → h.keyId ≠ key := by
  obtain ⟨-, unpaired, unheld⟩ := consistent.absent untrusted
  constructor
  · intro k record found named
    rw [← named, (consistent.paired k record found).1, found] at unpaired
    cases unpaired
  · intro k h found named
    rw [← named, (consistent.held k h found).1, found] at unheld
    cases unheld

section Pairing

theorem Consistent.pairedWith (consistent : Consistent own e) (record : PairingRecord)
    (held : Option HeldStatement) (untrusted : e.trusted.lookup record.keyId = none)
    (floors : ∀ h, held = some h → h.keyId = record.keyId ∧ checkConfirmed h record.confirmed = .ok ()) :
    Consistent own { e with
      trusted := e.trusted.insert record.keyId (entryOf record)
      paired := e.paired.insert record.keyId record
      agreements := holding e.agreements record.keyId held } := by
  obtain ⟨other, -, noStatement⟩ := consistent.absent untrusted
  refine ⟨consistent.ownKey, ?_, ?_, ?_, ?_, consistent.grants, consistent.relay⟩
  · rw [lookup_insert_if, if_neg (Ne.symm other)]
    exact consistent.ownTrusted
  · intro k found paired
    rw [lookup_insert_if] at paired ⊢
    split at paired
    · next same =>
      cases paired
      exact ⟨same.symm, same ▸ other, if_pos same⟩
    · next differs =>
      obtain ⟨named, foreign, trusted⟩ := consistent.paired k found paired
      exact ⟨named, foreign, (if_neg differs).trans trusted⟩
  · intro k entry trusted foreign
    rw [lookup_insert_if] at trusted ⊢
    split
    · rfl
    · next differs =>
      rw [if_neg differs] at trusted
      exact consistent.onlyPaired k entry trusted foreign
  · -- the new key has the statement it came with, every other key what it had
    intro k h found
    have kept : k ≠ record.keyId → e.agreements.lookup k = some h →
        h.keyId = k ∧ (k ≠ own.keyId → ∃ r, lookup h.keyId (e.paired.insert record.keyId record) = some r ∧
          checkConfirmed h r.confirmed = .ok ()) := by
      intro differs was
      obtain ⟨named, meets⟩ := consistent.held k h was
      refine ⟨named, fun foreign => ?_⟩
      obtain ⟨r, paired, checked⟩ := meets foreign
      rw [named] at paired ⊢
      exact ⟨r, (lookup_insert_ne differs).trans paired, checked⟩
    rw [lookup_holding held noStatement] at found
    split at found
    · next same =>
      obtain ⟨named, checked⟩ := floors h found
      refine ⟨named.trans same.symm, fun _ => ⟨record, ?_, checked⟩⟩
      rw [named]
      exact lookup_insert _
    · next differs => exact kept differs found

def statementOf (e : AuthorizationEngine) (peer : PairedPeer) (now : Timestamp) : Option HeldStatement :=
  pairedStatement (e.trusted.insert peer.record.keyId (entryOf peer.record))
    peer.record.keyId peer.statement now

def pairing (e : AuthorizationEngine) (peer : PairedPeer) (now : Timestamp) : AuthorizationEngine :=
  { e with
    trusted := e.trusted.insert peer.record.keyId (entryOf peer.record)
    paired := e.paired.insert peer.record.keyId (recordOf peer (e.statementOf peer now))
    agreements := holding e.agreements peer.record.keyId (e.statementOf peer now) }

/-- A peer is paired with the statement it gave, when that passes its check and the peer's key
signed it. -/
theorem pairedStatement_eq_some {trusted : TrustedKeySet} :
    pairedStatement trusted key statement now = some h ↔
      ∃ st, statement = some st ∧ checkStatement st trusted (fun _ => none) now = .ok h ∧ h.keyId = key := by
  unfold pairedStatement
  rw [Option.bind_eq_some_iff]
  refine exists_congr fun st => and_congr_right fun _ => ?_
  cases checkStatement st trusted (fun _ => none) now with
  | error refusal => simp
  | ok held =>
    dsimp only
    split
    · next named =>
      simp only [Option.some.injEq, Except.ok.injEq]
      exact ⟨fun same => ⟨same, same ▸ named⟩, And.left⟩
    · next other =>
      simp only [reduceCtorEq, Except.ok.injEq, false_iff, not_and]
      rintro rfl named
      exact other named

theorem Consistent.pairing (consistent : Consistent own e) (peer : PairedPeer) (now : Timestamp)
    (untrusted : e.trusted.lookup peer.record.keyId = none) : Consistent own (e.pairing peer now) := by
  refine consistent.pairedWith (recordOf peer (e.statementOf peer now)) (e.statementOf peer now) untrusted ?_
  intro h found
  obtain ⟨_, -, -, named⟩ := pairedStatement_eq_some.mp found
  refine ⟨named, ?_⟩
  rw [found]
  exact checkConfirmed_ofHeld h

theorem pair_eq (e : AuthorizationEngine) (peer : PairedPeer) (store : PairingSave) (now : Timestamp) :
    e.pair peer store now = match e.trusted.lookup peer.record.keyId with
    | some existing => (.error (.alreadyTrusted existing.principal), e)
    | none => match store (e.pairing peer now).snapshot with
      | .ok () => (.ok (), e.pairing peer now)
      | .error error => (.error (.notSaved error), { e.pairing peer now with
          trusted := (e.pairing peer now).trusted.erase peer.record.keyId
          paired := (e.pairing peer now).paired.erase peer.record.keyId
          agreements := (e.pairing peer now).agreements.erase peer.record.keyId }) := by
  have same : e.trusted.lookup (TrustedKey.new peer.record.principal peer.record.publicKey).keyId =
      e.trusted.lookup peer.record.keyId := rfl
  unfold pair TrustedKeySet.addPairedKey
  dsimp only
  rw [same]
  cases e.trusted.lookup peer.record.keyId with
  | some existing => rfl
  | none =>
    have statement : pairedStatement
        (e.trusted.insert (TrustedKey.new peer.record.principal peer.record.publicKey).keyId
          (TrustedKey.new peer.record.principal peer.record.publicKey))
        peer.record.keyId peer.statement now = e.statementOf peer now := rfl
    unfold pairing
    dsimp only
    rw [statement]
    cases e.statementOf peer now <;> rfl

/-- A key is refused because it is trusted, or paired and saved, or not saved with the engine as it
was: taking the key out of the three tables gives back what they held, for they held nothing of
it. -/
theorem Consistent.pair_cases (consistent : Consistent own e) (peer : PairedPeer)
    (store : PairingSave) (now : Timestamp) : ((e.trusted.lookup peer.record.keyId).isSome = true ∧
        ∃ principal, e.pair peer store now = (.error (.alreadyTrusted principal), e)) ∨
      (e.trusted.lookup peer.record.keyId = none ∧
        ((store (e.pairing peer now).snapshot = .ok () ∧ e.pair peer store now = (.ok (), e.pairing peer now)) ∨
          ∃ error, store (e.pairing peer now).snapshot = .error error ∧
            e.pair peer store now = (.error (.notSaved error), e))) := by
  rw [pair_eq]
  cases untrusted : e.trusted.lookup peer.record.keyId with
  | some existing => exact .inl ⟨rfl, _, rfl⟩
  | none =>
    refine .inr ⟨rfl, ?_⟩
    obtain ⟨-, unpaired, noStatement⟩ := consistent.absent untrusted
    have statements : (e.pairing peer now).agreements.erase peer.record.keyId = e.agreements :=
      erase_holding _ noStatement
    have keys : (e.pairing peer now).trusted.erase peer.record.keyId = e.trusted :=
      erase_insert_of_lookup_none _ untrusted
    have records : (e.pairing peer now).paired.erase peer.record.keyId = e.paired :=
      erase_insert_of_lookup_none _ unpaired
    cases answer : store (e.pairing peer now).snapshot with
    | ok _ => exact .inl ⟨rfl, rfl⟩
    | error error =>
      refine .inr ⟨error, rfl, ?_⟩
      simp only [statements, keys, records]
      rfl

end Pairing

section Statements

theorem Consistent.admitting (consistent : Consistent own e) (held : HeldStatement)
    (floors : held.keyId ≠ own.keyId → e.MeetsFloors held) : Consistent own (e.admitting held) := by
  refine ⟨consistent.ownKey, consistent.ownTrusted, consistent.paired, consistent.onlyPaired, ?_,
    consistent.grants, consistent.relay⟩
  intro k h found
  change lookup k (e.agreements.insert held.keyId held) = some h at found
  rw [lookup_insert_if] at found
  split at found
  · next same =>
    cases found
    exact ⟨same.symm, fun foreign => floors (same ▸ foreign)⟩
  · exact consistent.held k h found

theorem admitOwnStatement_cases (e : AuthorizationEngine) (statement : AgreementStatement) (now : Timestamp) :
    (∃ refusal, e.admitOwnStatement statement now = (.error refusal, e)) ∨
      ∃ held, checkStatement statement e.trusted (fun _ => none) now = .ok held ∧
        held.keyId = e.ownKey ∧ (e.admitOwnStatement statement now = (.ok held, e) ∨
          e.admitOwnStatement statement now = (.ok held, e.admitting held)) := by
  unfold admitOwnStatement
  split
  · exact .inl ⟨_, rfl⟩
  · next held checked =>
    split
    · exact .inl ⟨_, rfl⟩
    · next own =>
      have named : held.keyId = e.ownKey := not_not.mp own
      have taken : { e with agreements := e.agreements.insert e.ownKey held } = e.admitting held := by
        unfold admitting
        rw [named]
      rw [taken]
      split
      · split
        · next same => exact .inr ⟨held, checked, named, .inl (by rw [same])⟩
        · split
          · exact .inl ⟨_, rfl⟩
          · exact .inr ⟨held, checked, named, .inr rfl⟩
      · exact .inr ⟨held, checked, named, .inr rfl⟩

/-- The statement of a peer, when it passes the checks and the floors of the key's pairing. -/
def admissible (e : AuthorizationEngine) (statement : AgreementStatement) (now : Timestamp) :
    Option HeldStatement :=
  match checkStatement statement e.trusted e.agreements.lookup now with
  | .error _ => none
  | .ok held =>
    if held.keyId = e.ownKey then none
    else match checkConfirmed held ((e.paired.lookup held.keyId).bind PairingRecord.confirmed) with
      | .error _ => none
      | .ok () => some held

omit [Libraries] in
theorem meetsFloors_of_checked
    (floors : checkConfirmed held ((e.paired.lookup held.keyId).bind PairingRecord.confirmed) = .ok ()) :
    e.MeetsFloors held := by
  cases paired : e.paired.lookup held.keyId with
  | none =>
    rw [paired] at floors
    cases floors
  | some record =>
    rw [paired] at floors
    exact ⟨record, paired, floors⟩

theorem admissible_eq_some (admissible : e.admissible statement now = some held) :
    checkStatement statement e.trusted e.agreements.lookup now = .ok held ∧ held.keyId ≠ e.ownKey ∧
      e.MeetsFloors held := by
  revert admissible
  fun_cases admissible <;> rintro ⟨⟩
  · next checked foreign floors => exact ⟨checked, foreign, meetsFloors_of_checked floors⟩

theorem admitStatement_cases (e : AuthorizationEngine) (statement : AgreementStatement)
    (store : PairingSave) (now again : Timestamp) :
    (e.admissible statement now = none ∧
        ((∃ refusal, e.admitStatement statement store now again = (.error refusal, e)) ∨
          e.admitStatement statement store now again = e.admitOwnStatement statement again)) ∨
      ∃ held, e.admissible statement now = some held ∧ held.keyId ≠ e.ownKey ∧ e.MeetsFloors held ∧
        ((store (e.admitting held).snapshot = .ok () ∧
            e.admitStatement statement store now again = (.ok held, e.admitting held)) ∨
          ∃ error statements, store (e.admitting held).snapshot = .error error ∧
            e.admitStatement statement store now again =
              (.error (.notSaved error), { e with agreements := statements }) ∧
            ∀ k, statements.lookup k = e.agreements.lookup k) := by
  unfold admitStatement admissible
  cases checkStatement statement e.trusted e.agreements.lookup now with
  | error refusal => exact .inl ⟨rfl, .inl ⟨refusal, rfl⟩⟩
  | ok held =>
    dsimp only
    by_cases other : held.keyId = e.ownKey
    · rw [if_pos other, if_pos other]
      exact .inl ⟨rfl, .inr rfl⟩
    rw [if_neg other, if_neg other]
    cases floors : checkConfirmed held ((e.paired.lookup held.keyId).bind PairingRecord.confirmed) with
    | error refusal => exact .inl ⟨rfl, .inl ⟨refusal, rfl⟩⟩
    | ok _ =>
      refine .inr ⟨held, rfl, other, meetsFloors_of_checked floors, ?_⟩
      cases answer : store (e.admitting held).snapshot with
      | ok _ =>
        refine .inl ⟨rfl, ?_⟩
        unfold admitting at answer
        rw [answer]
        rfl
      | error error =>
        unfold admitting at answer
        rw [answer]
        refine .inr ⟨error, _, rfl, rfl, fun k => ?_⟩
        -- the statement held before, or none, is back in its place
        cases before : e.agreements.lookup held.keyId with
        | some p =>
          rw [lookup_insert_if, lookup_insert_if]
          split
          · next same => rw [same, before]
          · rfl
        | none =>
          rw [lookup_erase_if, lookup_insert_if]
          split
          · next same => rw [same, before]
          · rfl

end Statements

section Runs

theorem after_trust (e : AuthorizationEngine) (op : Op) (keeps : op.keepsTrust = true) :
    (e.after op).trust = e.trust := by
  have tables : OnlyTables e (e.after op) → (e.after op).trust = e.trust := by
    rintro ⟨_, _, _, _, same⟩
    rw [same]
    rfl
  cases op with
  | pair | admitStatement | admitOwnStatement | removeKey | addGrant | removeGrant | setRelay => cases keeps
  | registerSession record own =>
    simp only [after, registerSession]
    split <;> rfl
  | endSession session =>
    simp only [after, endSession]
    split <;> rfl
  | _ => exact tables (after_tables e _ rfl rfl)

section

variable (consistent : Consistent own e)

include consistent

theorem Consistent.addGrant (grant : Grant) (store : PairingSave) :
    Consistent own (e.addGrant grant store).2 := by
  rcases e.addGrant_cases grant store with same | ⟨fresh, added⟩ | ⟨error, same⟩
  · rw [same]
    exact consistent
  · rw [added]
    refine ⟨consistent.ownKey, consistent.ownTrusted, consistent.paired,
      consistent.onlyPaired, consistent.held, ?_, consistent.relay⟩
    exact consistent.grants.append (nodup_singleton grant) (by simpa using fresh)
  · rw [same]
    exact consistent

theorem Consistent.setRelay (session : SessionId) (enabled : Bool)
    (store : PairingSave) : Consistent own (e.setRelay session enabled store).2 := by
  have relayed : ∀ relay : List SessionId, relay.Nodup → Consistent own { e with relay := relay } :=
    fun relay nodup => ⟨consistent.ownKey, consistent.ownTrusted, consistent.paired,
      consistent.onlyPaired, consistent.held, consistent.grants, nodup⟩
  cases enabled with
  | false =>
    rw [setRelay_off_engine]
    exact relayed _ (consistent.relay.filter _)
  | true =>
    rcases e.setRelay_on_cases session store with on | ⟨error, same⟩
    · rw [on]
      exact relayed _ consistent.relay.insert
    · rw [same]
      exact consistent

theorem Consistent.removeGrant (grant : Grant) (store : PairingSave) :
    Consistent own (e.removeGrant grant store).2 := by
  rw [removeGrant_engine]
  exact ⟨consistent.ownKey, consistent.ownTrusted, consistent.paired,
    consistent.onlyPaired, consistent.held, consistent.grants.filter _, consistent.relay⟩

theorem Consistent.removeKey (key : KeyId) (store : PairingSave) :
    Consistent own (e.removeKey key store).2 := by
  by_cases other : key = e.ownKey
  · unfold AuthorizationEngine.removeKey
    rw [if_pos other]
    exact consistent
  · cases found : e.trusted.lookup key with
    | none =>
      unfold AuthorizationEngine.removeKey
      rw [if_neg other, found]
      exact consistent
    | some entry =>
      have foreign : own.keyId ≠ key := fun same => other (same.symm.trans consistent.ownKey.symm)
      have cleared : Consistent own (e.withoutKey key) := by
        refine ⟨consistent.ownKey, ?_, ?_, ?_, ?_, consistent.grants.filter _, consistent.relay⟩
        · rw [lookup_erase_if, if_neg foreign]
          exact consistent.ownTrusted
        · intro k record paired
          rw [lookup_erase_if] at paired ⊢
          split at paired
          · cases paired
          · next differs =>
            rw [if_neg differs]
            exact consistent.paired k record paired
        · intro k entry trusted
          rw [lookup_erase_if] at trusted ⊢
          split at trusted
          · cases trusted
          · next differs =>
            rw [if_neg differs]
            exact consistent.onlyPaired k entry trusted
        · intro k h held
          unfold MeetsFloors
          rw [lookup_erase_if] at held ⊢
          split at held
          · cases held
          · next differs =>
            obtain ⟨named, floors⟩ := consistent.held k h held
            rw [named, if_neg differs, ← named]
            exact ⟨rfl, fun foreign => floors (named ▸ foreign)⟩
      exact cleared.of_trust (removeKey_trust store other (by rw [found]; rfl))

/-- Every call keeps the trust tables in agreement. -/
theorem Consistent.after (op : Op) : Consistent own (e.after op) := by
  have admitted : ∀ held : HeldStatement, held.keyId = e.ownKey → Consistent own (e.admitting held) :=
    fun held named => consistent.admitting held fun foreign => absurd (named.trans consistent.ownKey) foreign
  have ownStatement : ∀ statement now, Consistent own (e.admitOwnStatement statement now).2 := by
    intro statement now
    rcases e.admitOwnStatement_cases statement now with ⟨_, same⟩ | ⟨held, -, named, same | taken⟩
    · rw [same]
      exact consistent
    · rw [same]
      exact consistent
    · rw [taken]
      exact admitted held named
  cases op with
  | pair peer store now =>
    change Consistent own (e.pair peer store now).2
    rcases consistent.pair_cases peer store now with ⟨-, _, same⟩ | ⟨untrusted, ⟨-, paired⟩ | ⟨_, -, same⟩⟩
    · rw [same]
      exact consistent
    · rw [paired]
      exact consistent.pairing peer now untrusted
    · rw [same]
      exact consistent
  | admitStatement statement store now again =>
    change Consistent own (e.admitStatement statement store now again).2
    rcases e.admitStatement_cases statement store now again with
      ⟨-, ⟨_, same⟩ | same⟩ | ⟨held, -, -, floors, ⟨-, taken⟩ | ⟨_, statements, -, undone, lookups⟩⟩
    · rw [same]
      exact consistent
    · rw [same]
      exact ownStatement statement again
    · rw [taken]
      exact consistent.admitting held fun _ => floors
    · rw [undone]
      exact consistent.of_same rfl ⟨fun _ => rfl, fun _ => rfl, rfl, rfl, lookups⟩
  | admitOwnStatement statement now => exact ownStatement statement now
  | removeKey key store => exact consistent.removeKey key store
  | addGrant grant store => exact consistent.addGrant grant store
  | removeGrant grant store => exact consistent.removeGrant grant store
  | setRelay session enabled store => exact consistent.setRelay session enabled store
  | _ => exact consistent.of_trust (after_trust e _ rfl)

end

end Runs

end AuthorizationEngine

end Oac
