import Oac.Authorization.Snapshots
import Oac.Presence

/-! The calls of the pipelines that change trust (`Pipelines` in `core/src/pipeline.rs`): pairing,
unpairing, admitting statements and retrying a save that failed. Each runs under the core's one
lock. The store takes a snapshot as one write or keeps what it has; a removal that it did not take
stands in memory, so the core marks its trust unsaved until a later save brings the store level
again. The announcements and withdrawals the calls send are not part of this model. -/

namespace Oac

open Transition List Option

/-- A save that failed and is retried. -/
structure TrustSaveRetry where
  /-- How many saves have failed since the store was last known whole. -/
  failures : Nat
  due : Instant
  deriving DecidableEq

def trustSaveRetryFirst : Nat := fromMillis 1000

def trustSaveRetryCap : Nat := fromMillis 60000

inductive TrustChangeError where
  | closed
  | pair (error : PairError)
  | remove (error : RemoveKeyError)
  | store (error : PairingStoreError)
  deriving DecidableEq

/-- What unpairing did; the key is removed in both cases. -/
inductive Unpaired where
  | durable (removal : KeyRemoval)
  | notDurable (error : PairingStoreError)
  deriving DecidableEq

/-- What the trust calls read and write of the core. -/
structure TrustCore where
  identity : DeviceIdentity
  engine : AuthorizationEngine
  /-- The statement of the agreement keys the pipelines were given. -/
  agreement : Option AgreementStatement
  /-- Shutdown has begun. -/
  closed : Bool
  trustRetry : Option TrustSaveRetry

namespace TrustCore

def trustSaveFailed (c : TrustCore) (now : Instant) : TrustCore :=
  let failures := c.trustRetry.elim 1 fun r => min (r.failures + 1) (2 ^ 32 - 1)
  let wait := min (trustSaveRetryFirst * 2 ^ min (failures - 1) 16) trustSaveRetryCap
  { c with trustRetry := some ⟨failures, now + wait⟩ }

/-- What `CoreStatus` says of the trusted keys. -/
def trustUnsaved (c : TrustCore) : Bool := c.trustRetry.isSome

def nextTrustRetryAt (c : TrustCore) : Option Instant := c.trustRetry.map (·.due)

section Calls

variable [Libraries]

def setAgreementKeys (c : TrustCore) (statement : AgreementStatement) (now : Timestamp) :
    Except StatementRefusal Unit × TrustCore :=
  match c.engine.admitOwnStatement statement now with
  | (.error refusal, engine) => (.error refusal, { c with engine := engine })
  | (.ok _, engine) => (.ok (), { c with engine := engine, agreement := some statement })

/-- A peer's statement was saved with the whole snapshot; the device's own is not saved here. -/
def admitStatement (c : TrustCore) (statement : AgreementStatement) (store : PairingSave)
    (now again : Timestamp) : Except StatementRefusal HeldStatement × TrustCore :=
  match c.engine.admitStatement statement store now again with
  | (.error refusal, engine) => (.error refusal, { c with engine := engine })
  | (.ok held, engine) =>
    (.ok held, { c with
      engine := engine
      trustRetry := if held.keyId ≠ c.identity.keyId then none else c.trustRetry })

def pair (c : TrustCore) (peer : PairedPeer) (store : PairingSave) (now : Timestamp) :
    Except TrustChangeError Unit × TrustCore :=
  if c.closed then (.error .closed, c)
  else match c.engine.pair peer store now with
    | (.error error, engine) => (.error (.pair error), { c with engine := engine })
    | (.ok (), engine) => (.ok (), { c with engine := engine, trustRetry := none })

def unpair (c : TrustCore) (key : KeyId) (store : PairingSave) (now : Instant) :
    Except TrustChangeError Unpaired × TrustCore :=
  if c.closed then (.error .closed, c)
  else if key = c.identity.keyId then (.error (.remove .ownKey), c)
  else if (c.engine.trusted.lookup key).isNone then (.error (.remove .notTrusted), c)
  else match c.engine.removeKey key store with
    | (.ok removal, engine) => (.ok (.durable removal), { c with engine := engine, trustRetry := none })
    | (.error (.notSaved error), engine) =>
      (.ok (.notDurable error), { c with engine := engine }.trustSaveFailed now)
    | (.error error, engine) => (.error (.remove error), { c with engine := engine })

def retrySave (c : TrustCore) (store : PairingSave) (now : Instant) :
    Except TrustChangeError Unit × TrustCore :=
  if c.closed then (.error .closed, c)
  else if c.trustRetry.isNone then (.ok (), c)
  else match store c.engine.snapshot with
    | .ok () => (.ok (), { c with trustRetry := none })
    | .error error => (.error (.store error), c.trustSaveFailed now)

end Calls

end TrustCore

/-- A call that changes trust, or another one into the engine, or the start of the shutdown. -/
inductive TrustCall where
  | setAgreementKeys (statement : AgreementStatement) (now : Timestamp)
  | admitStatement (statement : AgreementStatement) (now again : Timestamp)
  | pair (peer : PairedPeer) (now : Timestamp)
  | unpair (key : KeyId) (now : Instant)
  | retrySave (now : Instant)
  | other (op : AuthorizationEngine.Op)
  | shutdown

/-- The other calls into the engine that are considered are those that leave trust alone. -/
def TrustCall.allowed : TrustCall → Bool
  | .other op => op.keepsTrust
  | _ => true

namespace AuthorizationEngine

def removing (e : AuthorizationEngine) (key : KeyId) : AuthorizationEngine :=
  (e.removeKey key fun _ => .ok ()).2

theorem removeKey_eq (e : AuthorizationEngine) (store : PairingSave) (foreign : key ≠ e.ownKey)
    (found : e.trusted.lookup key = some entry) :
    ∃ removal, e.removeKey key store = match store (e.removing key).snapshot with
      | .error error => (.error (.notSaved error), e.removing key)
      | .ok () => (.ok removal, e.removing key) := by
  unfold removing removeKey
  simp only [if_neg foreign, found]
  exact ⟨_, rfl⟩

theorem removeKey_cases (e : AuthorizationEngine) (store : PairingSave) (foreign : key ≠ e.ownKey)
    (trusted : (e.trusted.lookup key).isSome) :
    (store (e.removing key).snapshot = .ok () ∧ ∃ removal, e.removeKey key store =
      (.ok removal, e.removing key)) ∨ ∃ error, store (e.removing key).snapshot = .error error ∧
        e.removeKey key store = (.error (.notSaved error), e.removing key) := by
  obtain ⟨entry, found⟩ := isSome_iff_exists.mp trusted
  obtain ⟨removal, made⟩ := e.removeKey_eq store foreign found
  rw [made]
  cases answer : store (e.removing key).snapshot with
  | ok _ => exact .inl ⟨rfl, removal, rfl⟩
  | error error => exact .inr ⟨error, rfl, rfl⟩

end AuthorizationEngine

namespace TrustCore

variable [Libraries]

def after (c : TrustCore) (store : PairingSave) : TrustCall → TrustCore
  | .setAgreementKeys statement now => (c.setAgreementKeys statement now).2
  | .admitStatement statement now again => (c.admitStatement statement store now again).2
  | .pair peer now => (c.pair peer store now).2
  | .unpair key now => (c.unpair key store now).2
  | .retrySave now => (c.retrySave store now).2
  | .other op => { c with engine := c.engine.after op }
  | .shutdown => { c with closed := true }

/-- The snapshot a call gives the store, if it comes to that. -/
def submits (c : TrustCore) : TrustCall → Option PairingSnapshot
  | .admitStatement statement now _ =>
    (c.engine.admissible statement now).map fun held => (c.engine.admitting held).snapshot
  | .pair peer now =>
    if c.closed || (c.engine.trusted.lookup peer.record.keyId).isSome then none
    else some (c.engine.pairing peer now).snapshot
  | .unpair key _ =>
    if c.closed || decide (key = c.identity.keyId) || (c.engine.trusted.lookup key).isNone then none
    else some (c.engine.removing key).snapshot
  | .retrySave _ => if c.closed || c.trustRetry.isNone then none else some c.engine.snapshot
  | .setAgreementKeys _ _ | .other _ | .shutdown => none

/-- The store is given nothing, or does not take it. -/
def NotTaken (c : TrustCore) (store : PairingSave) (call : TrustCall) : Prop :=
  ∀ s, c.submits call = some s → ∃ error, store s = .error error

section Outcomes

variable {c : TrustCore} (store : PairingSave)

open AuthorizationEngine

theorem NotTaken.of_none (notAsked : c.submits call = none) : c.NotTaken store call := by
  intro s asked
  cases notAsked.symm.trans asked

theorem NotTaken.of_error (asked : c.submits call = some s) (failed : store s = .error error) :
    c.NotTaken store call := by
  intro s' given
  rw [← some.inj (asked.symm.trans given)]
  exact ⟨error, failed⟩

theorem pair_outcome (consistent : Consistent c.identity c.engine) (peer : PairedPeer) (now : Timestamp) :
    (c.NotTaken store (.pair peer now) ∧ ∃ error, c.pair peer store now = (.error error, c)) ∨
      (c.submits (.pair peer now) = some (c.engine.pairing peer now).snapshot ∧
        store (c.engine.pairing peer now).snapshot = .ok () ∧
        c.pair peer store now = (.ok (),
          { c with engine := c.engine.pairing peer now, trustRetry := none })) := by
  unfold TrustCore.pair
  by_cases closed : c.closed = true
  · exact .inl ⟨.of_none store (by simp [submits, closed]), .closed, if_pos closed⟩
  rw [if_neg closed]
  rcases consistent.pair_cases peer store now with
    ⟨known, principal, refused⟩ | ⟨untrusted, ⟨taken, paired⟩ | ⟨error, failed, refused⟩⟩
  · exact .inl ⟨.of_none store (by simp [submits, known]), _, by rw [refused]⟩
  · exact .inr ⟨by simp [submits, closed, untrusted], taken, by rw [paired]⟩
  · exact .inl ⟨.of_error store (by simp [submits, closed, untrusted]) failed, _, by rw [refused]⟩

theorem unpair_outcome (consistent : Consistent c.identity c.engine) (key : KeyId) (now : Instant) :
    (c.submits (.unpair key now) = none ∧ ∃ error, c.unpair key store now = (.error error, c)) ∨
      (key ≠ c.engine.ownKey ∧ (c.engine.trusted.lookup key).isSome ∧
        c.submits (.unpair key now) = some (c.engine.removing key).snapshot ∧
        ((store (c.engine.removing key).snapshot = .ok () ∧ ∃ removal, c.unpair key store now =
            (.ok (.durable removal), { c with engine := c.engine.removing key, trustRetry := none })) ∨
          ∃ error, store (c.engine.removing key).snapshot = .error error ∧ c.unpair key store now =
            (.ok (.notDurable error), { c with engine := c.engine.removing key }.trustSaveFailed now))) := by
  unfold TrustCore.unpair
  by_cases closed : c.closed = true
  · exact .inl ⟨by simp [submits, closed], .closed, if_pos closed⟩
  rw [if_neg closed]
  by_cases isOwn : key = c.identity.keyId
  · exact .inl ⟨by simp [submits, isOwn], .remove .ownKey, if_pos isOwn⟩
  rw [if_neg isOwn]
  by_cases untrusted : (c.engine.trusted.lookup key).isNone = true
  · exact .inl ⟨by simp [submits, untrusted], .remove .notTrusted, if_pos untrusted⟩
  rw [if_neg untrusted]
  have foreign : key ≠ c.engine.ownKey := fun same => isOwn (same.trans consistent.ownKey)
  have known : (c.engine.trusted.lookup key).isSome = true := isSome_iff_ne_none.mpr (by simpa using untrusted)
  refine .inr ⟨foreign, known, by simp [submits, closed, isOwn, untrusted], ?_⟩
  rcases c.engine.removeKey_cases store foreign known with ⟨taken, removal, removed⟩ | ⟨error, failed, removed⟩
  · exact .inl ⟨taken, removal, by rw [removed]⟩
  · exact .inr ⟨error, failed, by rw [removed]⟩

theorem admitStatement_outcome (consistent : Consistent c.identity c.engine)
    (statement : AgreementStatement) (now again : Timestamp) :
    ∃ answer engine retry, c.admitStatement statement store now again =
        (answer, { c with engine := engine, trustRetry := retry }) ∧
      engine.trusted = c.engine.trusted ∧ engine.grants = c.engine.grants ∧
      ((c.NotTaken store (.admitStatement statement now again) ∧
          engine.snapshot = c.engine.snapshot ∧ retry = c.trustRetry) ∨
        (c.submits (.admitStatement statement now again) = some engine.snapshot ∧
          store engine.snapshot = .ok () ∧ retry = none)) := by
  unfold TrustCore.admitStatement
  rcases c.engine.admitStatement_cases statement store now again with
    ⟨inadmissible, ⟨refusal, same⟩ | same⟩ | ⟨held, admissible, other, -, ⟨taken, done⟩ |
      ⟨error, statements, failed, undone, lookups⟩⟩
  · exact ⟨.error refusal, c.engine, c.trustRetry, by rw [same], rfl, rfl,
      .inl ⟨.of_none store (by simp [submits, inadmissible]), rfl, rfl⟩⟩
  · have notAsked : c.NotTaken store (.admitStatement statement now again) :=
      .of_none store (by simp [submits, inadmissible])
    rw [same]
    rcases c.engine.admitOwnStatement_cases statement
      again with ⟨refusal, refused⟩ | ⟨held, -, named, kept | taken⟩
    · exact ⟨.error refusal, c.engine, c.trustRetry, by rw [refused], rfl, rfl, .inl ⟨notAsked, rfl, rfl⟩⟩
    · have own : ¬ held.keyId ≠ c.identity.keyId := not_not.mpr (named.trans consistent.ownKey)
      exact ⟨.ok held, c.engine, c.trustRetry, by rw [kept]; simp only [if_neg own], rfl, rfl,
        .inl ⟨notAsked, rfl, rfl⟩⟩
    · have own : ¬ held.keyId ≠ c.identity.keyId := not_not.mpr (named.trans consistent.ownKey)
      exact ⟨.ok held, c.engine.admitting held, c.trustRetry, by rw [taken]; simp only [if_neg own], rfl, rfl,
        .inl ⟨notAsked, consistent.snapshot_admitting_own named, rfl⟩⟩
  · have foreign : held.keyId ≠ c.identity.keyId := fun same => other (same.trans consistent.ownKey.symm)
    refine ⟨.ok held, c.engine.admitting held,
      none, by rw [done]; simp only [if_pos foreign], rfl, rfl, .inr ⟨?_, taken, rfl⟩⟩
    simp [submits, admissible]
  · refine ⟨.error (.notSaved error), { c.engine with agreements := statements }, c.trustRetry, by rw [undone],
      rfl, rfl, .inl ⟨.of_error store (by simp [submits, admissible]) failed, ?_, rfl⟩⟩
    exact consistent.snapshot_of_same rfl ⟨fun _ => rfl, fun _ => rfl, rfl, rfl, lookups⟩

/-- Of a call that the store does not hear of, or that it does not take, nothing saved changes and
the mark stays, or the mark is set; any other call leaves in the store what the engine has. -/
inductive Effect (c c' : TrustCore) (store : PairingSave) (call : TrustCall) : Prop
  | kept (notTaken : c.NotTaken store call) (same : c'.engine.snapshot = c.engine.snapshot)
      (flag : c'.trustRetry = c.trustRetry)
  | saved (asked : c.submits call = some c'.engine.snapshot)
      (taken : store c'.engine.snapshot = .ok ()) (flag : c'.trustRetry = none)
  | unsaved (notTaken : c.NotTaken store call) (flag : c'.trustRetry.isSome)

theorem setAgreementKeys_engine (c : TrustCore) (statement : AgreementStatement) (now : Timestamp) :
    (c.setAgreementKeys statement now).2.engine = (c.engine.admitOwnStatement statement now).2 ∧
      (c.setAgreementKeys statement now).2.trustRetry = c.trustRetry := by
  unfold setAgreementKeys
  split
  · next same => rw [same]; exact ⟨rfl, rfl⟩
  · next same => rw [same]; exact ⟨rfl, rfl⟩

theorem after_effect (consistent : Consistent c.identity c.engine) (allowed : call.allowed = true) :
    Effect c (c.after store call) store call := by
  cases call with
  | setAgreementKeys statement now =>
    obtain ⟨engine, flag⟩ := c.setAgreementKeys_engine statement now
    refine .kept (.of_none store rfl) ?_ flag
    change (c.setAgreementKeys statement now).2.engine.snapshot = _
    rw [engine]
    rcases c.engine.admitOwnStatement_cases statement now with ⟨_, same⟩ | ⟨held, -, named, same | taken⟩
    · rw [same]
    · rw [same]
    · rw [taken]
      exact consistent.snapshot_admitting_own named
  | admitStatement statement now again =>
    obtain ⟨answer, engine, retry, done, -, -, effect⟩ :=
      admitStatement_outcome store consistent statement now again
    rw [after, done]
    rcases effect with ⟨notTaken, same, flag⟩ | ⟨asked, taken, flag⟩
    · exact .kept notTaken same flag
    · exact .saved asked taken flag
  | pair peer now =>
    rcases pair_outcome store consistent peer now with ⟨notTaken, error, refused⟩ | ⟨asked, taken, paired⟩
    · rw [after, refused]
      exact .kept notTaken rfl rfl
    · rw [after, paired]
      exact .saved asked taken rfl
  | unpair key now =>
    rcases unpair_outcome store consistent key now with
      ⟨notAsked, error, refused⟩ | ⟨-, -, asked, ⟨taken, removal, removed⟩ | ⟨error, failed, removed⟩⟩
    · rw [after, refused]
      exact .kept (.of_none store notAsked) rfl rfl
    · rw [after, removed]
      exact .saved asked taken rfl
    · rw [after, removed]
      exact .unsaved (.of_error store asked failed) rfl
  | retrySave now =>
    change Effect c (c.retrySave store now).2 store (.retrySave now)
    unfold retrySave
    by_cases closed : c.closed = true
    · rw [if_pos closed]
      exact .kept (.of_none store (by simp [submits, closed])) rfl rfl
    rw [if_neg closed]
    by_cases level : c.trustRetry.isNone = true
    · rw [if_pos level]
      exact .kept (.of_none store (by simp [submits, level])) rfl rfl
    rw [if_neg level]
    have asked : c.submits (.retrySave now) = some c.engine.snapshot := by simp [submits, closed, level]
    cases answer : store c.engine.snapshot with
    | ok _ => exact .saved asked answer rfl
    | error error => exact .unsaved (.of_error store asked answer) rfl
  | other op =>
    refine .kept (.of_none store rfl) ?_ rfl
    exact snapshot_of_trust (after_trust c.engine op allowed)
  | shutdown => exact .kept (.of_none store rfl) rfl rfl

theorem after_engine (c : TrustCore) (call : TrustCall) : (c.after store call).identity = c.identity ∧
      ((c.after store call).engine = c.engine ∨ ∃ op, (c.after store call).engine = c.engine.after op) := by
  cases call with
  | setAgreementKeys statement now =>
    refine ⟨?_, .inr ⟨.admitOwnStatement statement now, (c.setAgreementKeys_engine statement now).1⟩⟩
    simp only [after, setAgreementKeys]
    split <;> rfl
  | admitStatement statement now again =>
    simp only [after]
    fun_cases admitStatement
    all_goals
      next done =>
      exact ⟨rfl, .inr ⟨.admitStatement statement store now again, (congrArg Prod.snd done).symm⟩⟩
  | pair peer now =>
    simp only [after]
    fun_cases pair
    · exact ⟨rfl, .inl rfl⟩
    all_goals next done => exact ⟨rfl, .inr ⟨.pair peer store now, (congrArg Prod.snd done).symm⟩⟩
  | unpair key now =>
    simp only [after]
    fun_cases unpair
    all_goals try exact ⟨rfl, .inl rfl⟩
    all_goals next done => exact ⟨rfl, .inr ⟨.removeKey key store, (congrArg Prod.snd done).symm⟩⟩
  | retrySave now =>
    simp only [after]
    fun_cases retrySave <;> exact ⟨rfl, .inl rfl⟩
  | other op => exact ⟨rfl, .inr ⟨op, rfl⟩⟩
  | shutdown => exact ⟨rfl, .inl rfl⟩

theorem after_consistent (consistent : Consistent c.identity c.engine) (call : TrustCall) :
    Consistent (c.after store call).identity (c.after store call).engine := by
  obtain ⟨identity, same | ⟨op, called⟩⟩ := after_engine store c call
  · rw [identity, same]
    exact consistent
  · rw [identity, called]
    exact consistent.after op

end Outcomes

end TrustCore

/-- The snapshot names the key: in a record, in a grant or in a statement. -/
def PairingSnapshot.names [Libraries] (s : PairingSnapshot) (key : KeyId) : Bool :=
  s.paired.any (fun r => r.keyId == key) || s.grants.any (·.namesKey key) ||
    s.agreementStatements.any fun h => h.keyId == key

/-- The core with its store, and the keys that were unpaired and not paired again. -/
structure TrustRun where
  core : TrustCore
  stored : PairingSnapshot
  removed : List KeyId

namespace TrustRun

section Runs

variable [Libraries]

def written (r : TrustRun) (store : PairingSave) (call : TrustCall) : PairingSnapshot :=
  match r.core.submits call with
  | none => r.stored
  | some s =>
    match store s with
    | .ok () => s
    | .error _ => r.stored

def removedAfter (r : TrustRun) (store : PairingSave) : TrustCall → List KeyId
  | .unpair key now => if (r.core.unpair key store now).1.isOk then r.removed.insert key else r.removed
  | .pair peer now =>
    if (r.core.pair peer store now).1.isOk then r.removed.filter (· ≠ peer.record.keyId) else r.removed
  | _ => r.removed

def step (label : TrustCall × PairingSave) (r : TrustRun) : Option TrustRun :=
  if label.1.allowed then
    some ⟨r.core.after label.2 label.1, r.written label.2 label.1, r.removedAfter label.2 label.1⟩
  else none

/-- The store holds what the engine of the device has, and nothing is marked. -/
structure Starts (own : DeviceIdentity) (r : TrustRun) : Prop where
  identity : r.core.identity = own
  engine : AuthorizationEngine.ReachableAs own r.core.engine
  level : r.stored = r.core.engine.snapshot
  unmarked : r.core.trustRetry = none
  nothing : r.removed = []

theorem starts_of_restore (reachable : AuthorizationEngine.ReachableAs own e) :
    ∃ e', AuthorizationEngine.restore own (.ok e.snapshot) = .ok e' ∧
      Starts own ⟨⟨own, e', none, false, none⟩, e.snapshot, []⟩ := by
  obtain ⟨e', restored, reached, same⟩ := reachable.restore_snapshot
  exact ⟨e', restored, rfl, reached, same.symm, rfl, rfl⟩

/-- Nothing of the key is trusted, and no grant names it. -/
def Cleared (e : AuthorizationEngine) (key : KeyId) : Prop :=
  e.trusted.lookup key = none ∧ ∀ g ∈ e.grants, g.namesKey key = false

theorem Cleared.unnamed (cleared : Cleared e key)
    (consistent : AuthorizationEngine.Consistent own e) : e.snapshot.names key = false := by
  obtain ⟨records, statements⟩ := consistent.unnamed cleared.1
  unfold PairingSnapshot.names
  rw [Bool.or_eq_false_iff, Bool.or_eq_false_iff]
  refine ⟨⟨?_, ?_⟩, ?_⟩
  · refine any_eq_false.mpr fun r mem => ?_
    obtain ⟨k, found⟩ := mem_valuesInOrder.mp mem
    simpa using records k r found
  · exact any_eq_false.mpr fun g mem => by simp [cleared.2 g mem]
  · refine any_eq_false.mpr fun h mem => ?_
    obtain ⟨k, found⟩ := mem_valuesInOrder.mp (mem_of_mem_filter mem)
    simpa using statements k h found

/-- What holds between calls. -/
structure Level (r : TrustRun) : Prop where
  consistent : AuthorizationEngine.Consistent r.core.identity r.core.engine
  level : r.core.trustRetry = none → r.stored = r.core.engine.snapshot
  cleared : ∀ key ∈ r.removed, Cleared r.core.engine key

theorem written_of_notTaken {r : TrustRun}
    (notTaken : r.core.NotTaken store call) : r.written store call = r.stored := by
  unfold written
  cases asked : r.core.submits call with
  | none => rfl
  | some s =>
    obtain ⟨error, failed⟩ := notTaken s asked
    simp only [failed]

theorem written_of_taken {r : TrustRun} (asked : r.core.submits call = some s)
    (taken : store s = .ok ()) : r.written store call = s := by
  unfold written
  simp only [asked, taken]

theorem cleared_after (kept : Level r) (store : PairingSave) (allowed : call.allowed = true) :
    ∀ key ∈ r.removedAfter store call, Cleared (r.core.after store call).engine key := by
  have unchanged : ∀ {e' : AuthorizationEngine}, e'.trusted = r.core.engine.trusted →
      e'.grants = r.core.engine.grants → ∀ key ∈ r.removed, Cleared e' key := by
    intro e' trusted grants key mem
    unfold Cleared
    rw [trusted, grants]
    exact kept.cleared key mem
  cases call with
  | setAgreementKeys statement now =>
    have engine : (r.core.after store (.setAgreementKeys statement now)).engine =
        (r.core.engine.admitOwnStatement statement now).2 := (r.core.setAgreementKeys_engine statement now).1
    rw [engine]
    rcases r.core.engine.admitOwnStatement_cases statement now with ⟨_, same⟩ | ⟨held, -, _, same | taken⟩
    · exact unchanged (by rw [same]) (by rw [same])
    · exact unchanged (by rw [same]) (by rw [same])
    · exact unchanged (by rw [taken]; rfl) (by rw [taken]; rfl)
  | admitStatement statement now again =>
    obtain ⟨answer, engine, retry, done, trusted, grants, -⟩ :=
      TrustCore.admitStatement_outcome store kept.consistent statement now again
    rw [TrustCore.after, done]
    exact unchanged trusted grants
  | pair peer now =>
    rcases TrustCore.pair_outcome store kept.consistent peer now with ⟨-, error, refused⟩ | ⟨-, -, paired⟩
    · simp only [removedAfter, TrustCore.after, refused]
      exact unchanged rfl rfl
    · -- a key that is still out is not the one that came
      simp only [removedAfter, TrustCore.after, paired]
      intro key mem
      obtain ⟨mem, other⟩ := mem_filter.mp mem
      obtain ⟨untrusted, grants⟩ := kept.cleared key mem
      exact ⟨(AList.lookup_insert_ne (of_decide_eq_true other)).trans untrusted, grants⟩
  | unpair key now =>
    rcases TrustCore.unpair_outcome store kept.consistent key now with
      ⟨-, error, refused⟩ | ⟨foreign, known, -, outcome⟩
    · simp only [removedAfter, TrustCore.after, refused]
      exact unchanged rfl rfl
    have removed : ∀ k ∈ r.removed.insert key, Cleared (r.core.engine.removing key) k := by
      have trust := AuthorizationEngine.removeKey_trust (fun _ => .ok ()) foreign known
      injection trust with _ trusted _ grants
      intro k mem
      unfold Cleared AuthorizationEngine.removing
      rw [trusted, grants, Table.lookup_erase_if]
      split
      · next same =>
        refine ⟨rfl, fun g listed => ?_⟩
        rw [same]
        simpa using (mem_filter.mp listed).2
      · next other =>
        obtain ⟨untrusted, unnamed⟩ := kept.cleared k ((mem_insert_iff.mp mem).resolve_left other)
        exact ⟨untrusted, fun g listed => unnamed g (mem_of_mem_filter listed)⟩
    rcases outcome with ⟨-, removal, done⟩ | ⟨error, -, done⟩
    · simp only [removedAfter, TrustCore.after, done]
      exact removed
    · simp only [removedAfter, TrustCore.after, done]
      exact removed
  | retrySave now =>
    have engine : (r.core.after store (.retrySave now)).engine = r.core.engine := by
      rw [TrustCore.after]
      fun_cases TrustCore.retrySave <;> rfl
    rw [engine]
    exact kept.cleared
  | other op =>
    have same := AuthorizationEngine.after_trust r.core.engine op allowed
    injection same with _ trusted _ grants
    exact unchanged trusted grants
  | shutdown => exact unchanged rfl rfl

theorem Level.step {r r' : TrustRun} (kept : Level r)
    (stepped : step label r = some r') : Level r' := by
  obtain ⟨call, store⟩ := label
  revert stepped
  fun_cases TrustRun.step <;> rintro ⟨⟩
  · next allowed =>
    refine ⟨TrustCore.after_consistent store kept.consistent call, fun unmarked => ?_,
      cleared_after kept store allowed⟩
    cases TrustCore.after_effect store kept.consistent allowed with
    | kept notTaken same flag =>
      rw [written_of_notTaken notTaken, same]
      exact kept.level (flag.symm.trans unmarked)
    | saved asked taken flag => exact written_of_taken asked taken
    | unsaved notTaken flag =>
      have marked : r.core.after store call |>.trustRetry.isSome := flag
      rw [unmarked] at marked
      cases marked

theorem Starts.level_run (starts : Starts own start) (run : Reaches step anyMove start r) :
    Level r := by
  refine Reaches.invariant (fun label s t _ stepped kept => Level.step kept stepped) run ?_
  refine ⟨starts.identity ▸ starts.engine.consistent, fun _ => starts.level, fun key mem => ?_⟩
  rw [starts.nothing] at mem
  cases mem

/-- Between calls, a core that is not marked unsaved has in the store what its engine has. A removal
that is not in the store is marked: the status says so, and the next retry that the store takes
writes it. -/
theorem unsaved_trust_flagged (own : DeviceIdentity) (start r : TrustRun)
    (starts : Starts own start) (run : Reaches step anyMove start r) :
    (r.core.trustRetry = none → r.stored = r.core.engine.snapshot) ∧
      (∀ key ∈ r.removed, r.stored.names key = true → r.core.trustRetry.isSome) ∧
      (r.core.trustRetry.isSome → r.core.trustUnsaved = true ∧ r.core.nextTrustRetryAt.isSome ∧
        ∀ store now, r.core.closed = false → store r.core.engine.snapshot = .ok () →
          (r.core.retrySave store now).1 = .ok () ∧
            ∃ r', step (.retrySave now, store) r = some r' ∧ r'.core.trustRetry = none ∧
              r'.stored = r.core.engine.snapshot ∧ ∀ key ∈ r.removed, r'.stored.names key = false) := by
  have kept := starts.level_run run
  have unnamed : ∀ key ∈ r.removed, r.core.engine.snapshot.names key = false :=
    fun key mem => (kept.cleared key mem).unnamed kept.consistent
  refine ⟨kept.level, fun key mem named => ?_, fun marked => ?_⟩
  · cases flag : r.core.trustRetry with
    | some retry => rfl
    | none =>
      rw [kept.level flag, unnamed key mem] at named
      cases named
  · refine ⟨marked, by simpa [TrustCore.nextTrustRetryAt] using marked, fun store now running taken => ?_⟩
    have pending : ¬ r.core.trustRetry.isNone = true := by
      rw [isNone_iff_eq_none]
      exact isSome_iff_ne_none.mp marked
    have open_ : ¬ r.core.closed = true := by simp [running]
    have retried : r.core.retrySave store now = (.ok (), { r.core with trustRetry := none }) := by
      unfold TrustCore.retrySave
      rw [if_neg open_, if_neg pending, taken]
    have asked : r.core.submits (.retrySave now) = some r.core.engine.snapshot := by
      simp [TrustCore.submits, running, pending]
    refine ⟨by rw [retried], _, rfl, ?_, written_of_taken asked taken, ?_⟩
    · simp only [TrustCore.after, retried]
    · intro key mem
      rw [written_of_taken asked taken]
      exact unnamed key mem

open AuthorizationEngine

/-- The store holds the snapshot of an engine of the device, perhaps of an earlier one. -/
def Restorable (own : DeviceIdentity) (r : TrustRun) : Prop :=
  r.core.identity = own ∧ ReachableAs own r.core.engine ∧ ∃ e, ReachableAs own e ∧ r.stored = e.snapshot

theorem Restorable.step {r r' : TrustRun} (kept : Restorable own r)
    (stepped : step label r = some r') : Restorable own r' := by
  obtain ⟨call, store⟩ := label
  obtain ⟨rfl, reached, e, saved, stored⟩ := kept
  obtain ⟨allowed, made⟩ := ite_none_right_eq_some.mp stepped
  cases made
  obtain ⟨identity, engine⟩ := TrustCore.after_engine store r.core call
  have next : ReachableAs r.core.identity (r.core.after store call).engine := by
    rcases engine with same | ⟨op, called⟩
    · exact same ▸ reached
    · obtain ⟨first, started, run⟩ := reached
      exact ⟨first, started, run.tail ⟨op, trivial, congrArg some called.symm⟩⟩
  refine ⟨identity, next, ?_⟩
  cases TrustCore.after_effect store reached.consistent allowed with
  | kept notTaken | unsaved notTaken => exact ⟨e, saved, (written_of_notTaken notTaken).trans stored⟩
  | saved asked taken => exact ⟨_, next, written_of_taken asked taken⟩

/-- Whenever the process ends between two calls, the next start takes what the store holds. -/
theorem store_always_restarts (own : DeviceIdentity) (start r : TrustRun)
    (starts : Starts own start) (run : Reaches step anyMove start r) :
    ∃ e, restore own (.ok r.stored) = .ok e ∧ Starts own ⟨⟨own, e, none, false, none⟩, r.stored, []⟩ := by
  have first : Restorable own start := ⟨starts.identity, starts.engine, _, starts.engine, starts.level⟩
  obtain ⟨-, -, e, reached, stored⟩ :=
    run.invariant (fun _ _ _ _ stepped kept => Restorable.step kept stepped) first
  exact stored ▸ starts_of_restore reached

end Runs

open AuthorizationEngine

def sampleStart : TrustRun :=
  ⟨⟨sampleOwn, .new sampleOwn, none, false, none⟩, (AuthorizationEngine.new sampleOwn).snapshot, []⟩

def sampleCalls : List (TrustCall × PairingSave) :=
  [(.pair samplePeer .epoch, fun _ => .ok ()),
    (.unpair samplePeerKey 5, fun _ => .error (.failed "disk full"))]

attribute [local instance] sampleLibraries

theorem unsaved_trust_flagged_sample :
    ∃ r, Reaches step anyMove sampleStart r ∧
      samplePeerKey ∈ r.removed ∧ PairingSnapshot.names r.stored samplePeerKey = true ∧
      r.core.trustUnsaved = true ∧ r.core.trustRetry = some ⟨1, 1000000005⟩ := by
  have performed : (perform step sampleCalls sampleStart).map
      (fun r => (decide (samplePeerKey ∈ r.removed),
        PairingSnapshot.names r.stored samplePeerKey, r.core.trustRetry)) =
      some (true, true, some ⟨1, 1000000005⟩) := by decide +kernel
  obtain ⟨r, performed, seen⟩ := map_eq_some_iff.mp performed
  obtain ⟨removed, seen⟩ := Prod.mk.inj seen
  obtain ⟨named, marked⟩ := Prod.mk.inj seen
  have run := reaches_of_perform sampleCalls performed
  have starts : Starts sampleOwn sampleStart :=
    @Starts.mk _ _ _ rfl (reachableAs_of_ops sampleOwn []) rfl rfl rfl
  obtain ⟨-, flagged, reported⟩ := @unsaved_trust_flagged _ sampleOwn sampleStart r starts run
  have flag := flagged samplePeerKey (of_decide_eq_true removed) named
  exact ⟨r, run, of_decide_eq_true removed, named, (reported flag).1, marked⟩

theorem store_always_restarts_sample : ∃ r e, Reaches step anyMove sampleStart r ∧
    restore sampleOwn (.ok r.stored) = .ok e := by
  have starts : Starts sampleOwn sampleStart :=
    @Starts.mk _ _ _ rfl (reachableAs_of_ops sampleOwn []) rfl rfl rfl
  have run : Reaches step anyMove sampleStart _ :=
    .single ⟨(.pair samplePeer .epoch, fun _ => .ok ()), trivial, rfl⟩
  obtain ⟨e, restored, -⟩ := @store_always_restarts _ _ _ _ starts run
  exact ⟨_, e, run, restored⟩

end TrustRun

end Oac
