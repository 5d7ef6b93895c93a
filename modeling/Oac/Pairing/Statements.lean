import Oac.Foundation.Durable
import Oac.Pairing.Substitution
import Oac.Pipeline.TrustSaves
import Oac.SigningProofs

/-! The agreement statements that a device holds for the keys it paired
(`core/src/authorization.rs`), over pairings, admissions, removals and restarts with a store whose
saves may fail, before or after they are written. While a key stays paired its statement moves only
forward. -/

namespace Oac

open Transition Table Option
open AList hiding keys

/-- The statement held later is the same one, or one with a higher `seq`. -/
def StatementOnward (held later : Option HeldStatement) : Prop :=
  ∀ h, held = some h → ∃ h', later = some h' ∧ (h' = h ∨ h.seq < h'.seq)

theorem StatementOnward.refl (held : Option HeldStatement) : StatementOnward held held :=
  fun h found => ⟨h, found, .inl rfl⟩

theorem StatementOnward.trans (first : StatementOnward a b)
    (second : StatementOnward b c) : StatementOnward a c := by
  intro h found
  obtain ⟨h', found', step⟩ := first h found
  obtain ⟨h'', found'', step'⟩ := second h' found'
  refine ⟨h'', found'', ?_⟩
  rcases step with rfl | less
  · exact step'
  · rcases step' with rfl | less'
    · exact .inr less
    · exact .inr (less.trans less')

namespace AuthorizationEngine

/-- The calls that change what is held for a key. -/
inductive StatementCall where
  | pair (peer : PairedPeer) (now : Timestamp)
  | admitStatement (statement : AgreementStatement) (now again : Timestamp)
  | remove (key : KeyId)

variable [Libraries] {own : DeviceIdentity} {e e' : AuthorizationEngine}

def StatementCall.after (e : AuthorizationEngine) (store : PairingSave) :
    StatementCall → AuthorizationEngine
  | pair peer now => (e.pair peer store now).2
  | admitStatement statement now again => (e.admitStatement statement store now again).2
  | remove key => (e.removeKey key store).2

/-- The engine whose snapshot a call gives the store to save, if the call comes to that. -/
def StatementCall.submits (e : AuthorizationEngine) : StatementCall → Option AuthorizationEngine
  | pair peer now =>
    if (e.trusted.lookup peer.record.keyId).isSome then none else some (e.pairing peer now)
  | admitStatement statement now _ => (e.admissible statement now).map e.admitting
  | remove key =>
    if key = e.ownKey ∨ (e.trusted.lookup key).isNone then none else some (e.removing key)

/-- One step of a device: a call, whose failed save was written when `lost`, or a restart. -/
inductive StatementStep where
  | call (call : StatementCall) (store : PairingSave) (lost : Bool)
  | restart

abbrev StatementState := Durable.State AuthorizationEngine PairingSnapshot

def StatementStep.step (own : DeviceIdentity) :
    StatementStep → StatementState → Option StatementState
  | call c store lost, s =>
    some ⟨c.after s.memory store,
      match c.submits s.memory with
      | none => s.stored
      | some p => if (store p.snapshot).isOk || lost then p.snapshot else s.stored⟩
  | restart, s => (restore own (.ok s.stored)).toOption.map fun e => ⟨e, s.stored⟩

/-- A held statement is signed by the key it is held for. -/
def SignedBy (h : HeldStatement) (entry : TrustedKey) : Prop :=
  entry.keyId = h.keyId ∧ ∃ statement keys, SignedUnder .agreement keys statement.wire entry ∧
    AgreementStatement.claimedValues statement = some (.ofHeld h)

/-- The trust tables agree, and every statement held is signed by its key. -/
structure Holds (own : DeviceIdentity) (e : AuthorizationEngine) : Prop where
  consistent : Consistent own e
  signed : ∀ k h, e.agreements.lookup k = some h → ∃ entry, e.trusted.lookup k = some entry ∧
    SignedBy h entry

/-- For every key that `e` has paired, `d` has the same pairing and the same statement or a newer
one. -/
def Behind (e d : AuthorizationEngine) : Prop :=
  ∀ k record, e.paired.lookup k = some record → d.paired.lookup k = some record ∧
    StatementOnward (e.agreements.lookup k) (d.agreements.lookup k)

/-- What `e'` holds for the keys it has paired is what `e` holds for them. -/
def Within (e' e : AuthorizationEngine) : Prop :=
  ∀ k record, e'.paired.lookup k = some record → e.paired.lookup k = some record ∧
    e'.agreements.lookup k = e.agreements.lookup k

/-- For a key paired before and after, the pairing is the same and the statement the same or
newer. -/
def Forward (e e' : AuthorizationEngine) : Prop :=
  ∀ k, (e.paired.lookup k).isSome → (e'.paired.lookup k).isSome →
    e'.paired.lookup k = e.paired.lookup k ∧
    StatementOnward (e.agreements.lookup k) (e'.agreements.lookup k)

section Orders

omit [Libraries]

variable {d : AuthorizationEngine}

theorem Behind.refl (e : AuthorizationEngine) : Behind e e := fun _ _ paired => ⟨paired, .refl _⟩

theorem Within.behind (within : Within e' e) : Behind e' e := by
  intro k record paired
  obtain ⟨paired, same⟩ := within k record paired
  exact ⟨paired, same ▸ .refl _⟩

theorem Within.behind_of (within : Within e' e) (behind : Behind e d) : Behind e' d := by
  intro k record paired
  obtain ⟨paired, same⟩ := within k record paired
  exact same ▸ behind k record paired

theorem Behind.within (behind : Behind e d) (within : Within d e') : Behind e e' := by
  intro k record paired
  obtain ⟨paired, onward⟩ := behind k record paired
  obtain ⟨paired, same⟩ := within k record paired
  exact ⟨paired, same ▸ onward⟩

theorem Behind.forward (behind : Behind e e') : Forward e e' := by
  intro k isPaired _
  obtain ⟨record, paired⟩ := isSome_iff_exists.mp isPaired
  obtain ⟨later, onward⟩ := behind k record paired
  exact ⟨later.trans paired.symm, onward⟩

theorem Within.forward (within : Within e' e) : Forward e e' := by
  intro k _ isPaired
  obtain ⟨record, paired⟩ := isSome_iff_exists.mp isPaired
  obtain ⟨before, same⟩ := within k record paired
  exact ⟨paired.trans before.symm, same ▸ .refl _⟩

end Orders

/-- The changes that are undone when they are not saved. -/
inductive Proposes (e : AuthorizationEngine) : AuthorizationEngine → Prop
  | pairing {peer : PairedPeer} {now : Timestamp}
      (untrusted : e.trusted.lookup peer.record.keyId = none) : Proposes e (e.pairing peer now)
  | admitting {statement : AgreementStatement} {now : Timestamp} {held : HeldStatement}
      (admissible : e.admissible statement now = some held) : Proposes e (e.admitting held)

/-- The changes that stand without being saved: the tables keep what they hold, the device's own
statement is taken in, or a key is removed. -/
inductive Stands (e : AuthorizationEngine) : AuthorizationEngine → Prop
  | same {e' : AuthorizationEngine} (ownKey : e'.ownKey = e.ownKey) (same : SameTrust e e') :
      Stands e e'
  | own {statement : AgreementStatement} {now : Timestamp} {held : HeldStatement}
      (checked : checkStatement statement e.trusted (fun _ => none) now = .ok held)
      (named : held.keyId = e.ownKey) :
      Stands e (e.admitting held)
  | removing {key : KeyId} (foreign : key ≠ e.ownKey) (trusted : (e.trusted.lookup key).isSome) :
      Stands e (e.removing key)

theorem Stands.refl (e : AuthorizationEngine) : Stands e e := .same rfl (.refl e)

def statementSystem (own : DeviceIdentity) :
    Durable.System AuthorizationEngine PairingSnapshot where
  proposes := Proposes
  stands := Stands
  image := snapshot
  reload stored := (restore own (.ok stored)).toOption

section Sound

theorem Consistent.keyed (consistent : Consistent own e)
    (found : e.trusted.lookup k = some entry) : entry.keyId = k := by
  by_cases isOwn : k = own.keyId
  · rw [isOwn, consistent.ownTrusted] at found
    cases found
    exact isOwn.symm
  · obtain ⟨record, paired⟩ := isSome_iff_exists.mp (consistent.onlyPaired k entry found isOwn)
    obtain ⟨named, -, trusted⟩ := consistent.paired k record paired
    cases found.symm.trans trusted
    exact named

variable {held : KeyId → Option HeldStatement}

theorem Consistent.signedBy (consistent : Consistent own e)
   
    (checked : checkStatement statement e.trusted held now = .ok h) :
    ∃ entry, e.trusted.lookup h.keyId = some entry ∧ SignedBy h entry := by
  obtain ⟨-, ⟨entry, verified, named⟩, claimed, -⟩ := checkStatement_eq_ok.mp checked
  have signed := verifySigned_eq_ok verified
  obtain ⟨_, key, -, -, -, found⟩ := signed.named
  refine ⟨entry, ?_, named, statement, e.trusted, signed, claimed⟩
  rw [← named, consistent.keyed found]
  exact found

theorem Holds.new (own : DeviceIdentity) : Holds own (new own) :=
  ⟨new_consistent own, fun k h found => by simp [AuthorizationEngine.new] at found⟩

theorem Holds.admitting (holds : Holds own e)
    (checked : checkStatement statement e.trusted held now = .ok h)
    (floors : h.keyId ≠ own.keyId → e.MeetsFloors h) : Holds own (e.admitting h) := by
  refine ⟨holds.consistent.admitting h floors, fun k x found => ?_⟩
  change lookup k (e.agreements.insert h.keyId h) = some x at found
  rw [lookup_insert_if] at found
  split at found
  · next same =>
    cases found
    exact same ▸ holds.consistent.signedBy checked
  · exact holds.signed k x found

theorem Holds.pairing (holds : Holds own e) (peer : PairedPeer) (now : Timestamp)
    (untrusted : e.trusted.lookup peer.record.keyId = none) : Holds own (e.pairing peer now) := by
  have consistent := holds.consistent.pairing peer now untrusted
  obtain ⟨-, -, unheld⟩ := holds.consistent.absent untrusted
  refine ⟨consistent, fun k h found => ?_⟩
  change (holding e.agreements peer.record.keyId (e.statementOf peer now)).lookup k =
    some h at found
  rw [lookup_holding _ unheld] at found
  split at found
  · next same =>
    -- the statement passed its check in the key set with the new key
    obtain ⟨st, -, checked, named⟩ := pairedStatement_eq_some.mp found
    obtain ⟨entry, trusted, signed⟩ := consistent.signedBy checked
    exact ⟨entry, by rwa [same, ← named], signed⟩
  · next differs =>
    obtain ⟨entry, trusted, signed⟩ := holds.signed k h found
    exact ⟨entry, (lookup_insert_ne differs).trans trusted, signed⟩

theorem Holds.proposed (holds : Holds own e) (proposes : Proposes e e') :
    Holds own e' ∧ Behind e e' := by
  cases proposes with
  | @pairing peer now untrusted =>
    refine ⟨holds.pairing peer now untrusted, fun k record paired => ?_⟩
    obtain ⟨-, unpaired, unheld⟩ := holds.consistent.absent untrusted
    have differs : k ≠ peer.record.keyId := by
      rintro rfl
      cases unpaired.symm.trans paired
    refine ⟨(lookup_insert_ne differs).trans paired, ?_⟩
    change StatementOnward _
      ((holding e.agreements peer.record.keyId (e.statementOf peer now)).lookup k)
    rw [lookup_holding _ unheld, if_neg differs]
    exact .refl _
  | @admitting statement now held admissible =>
    obtain ⟨checked, -, meets⟩ := admissible_eq_some admissible
    refine ⟨holds.admitting checked fun _ => meets,
      fun k record paired => ⟨paired, fun h found => ?_⟩⟩
    obtain ⟨-, -, -, -, newer⟩ := checkStatement_eq_ok.mp checked
    change ∃ h', lookup k (e.agreements.insert held.keyId held) = some h' ∧
      (h' = h ∨ h.seq < h'.seq)
    rw [lookup_insert_if]
    split
    · next same => exact ⟨held, rfl, .inr (newer h (same ▸ found))⟩
    · exact ⟨h, found, .inl rfl⟩

theorem Holds.stood (holds : Holds own e) (stands : Stands e e') : Holds own e' ∧ Within e' e := by
  cases stands with
  | same ownKey same =>
    refine ⟨⟨holds.consistent.of_same ownKey same, fun k h found => ?_⟩, fun k record paired => ?_⟩
    · rw [same.trusted]
      exact holds.signed k h (same.agreements k ▸ found)
    · exact ⟨same.paired k ▸ paired, same.agreements k⟩
  | own checked named =>
    have isOwn := named.trans holds.consistent.ownKey
    refine ⟨holds.admitting checked fun foreign => absurd isOwn foreign,
      fun k record paired => ⟨paired, ?_⟩⟩
    obtain ⟨-, foreign, -⟩ := holds.consistent.paired k record paired
    exact lookup_insert_ne (by rwa [isOwn])
  | @removing key foreign trusted =>
    have removed := removeKey_trust (fun _ => .ok ()) foreign trusted
    injection removed with _ sameTrusted samePaired _ _ sameHeld
    refine ⟨⟨holds.consistent.removeKey key _, fun k h found => ?_⟩, fun k record paired => ?_⟩
    · rw [show (e.removing key).agreements = _ from sameHeld, lookup_erase_if] at found
      rw [show (e.removing key).trusted = _ from sameTrusted, lookup_erase_if]
      split at found
      · cases found
      next differs =>
      rw [if_neg differs]
      exact holds.signed k h found
    · rw [show (e.removing key).paired = _ from samePaired, lookup_erase_if] at paired
      rw [show (e.removing key).agreements = _ from sameHeld, lookup_erase_if]
      split at paired
      · cases paired
      next differs => exact ⟨paired, if_neg differs⟩

theorem Holds.reloaded (holds : Holds own e) (restored : restore own (.ok e.snapshot) = .ok e') :
    Holds own e' ∧ Within e e' ∧ Within e' e := by
  obtain ⟨_, again, trusted, paired, -, -, agreements⟩ := holds.consistent.restored
  cases restored.symm.trans again
  have foreign : ∀ {k record}, e.paired.lookup k = some record →
      e'.agreements.lookup k = e.agreements.lookup k := by
    intro k record found
    rw [agreements, if_neg (holds.consistent.paired k record found).2.1]
  refine ⟨⟨restore_consistent restored, fun k h found => ?_⟩, fun k record found => ?_,
    fun k record found => ?_⟩
  · rw [agreements] at found
    split at found
    · cases found
    rw [trusted]
    exact holds.signed k h found
  · exact ⟨(paired k).trans found, (foreign found).symm⟩
  · have before := (paired k).symm.trans found
    exact ⟨before, foreign before⟩

theorem statements_orderly (own : DeviceIdentity) :
    Durable.Orderly (statementSystem own) (Holds own) Behind where
  refl := Behind.refl
  proposed holds proposes := holds.proposed proposes
  stood holds stands :=
    let ⟨sound, within⟩ := holds.stood stands
    ⟨sound, fun _ behind => within.behind_of behind⟩
  reloaded holds restored :=
    let ⟨sound, whole, within⟩ := holds.reloaded (Results.ok_of_toOption restored)
    ⟨sound, fun _ behind => behind.within whole, within.behind⟩

end Sound

section Runs

omit [Libraries] in
theorem removeKey_untouched (store : PairingSave)
    (untouched : key = e.ownKey ∨ (e.trusted.lookup key).isNone) :
    (e.removeKey key store).2 = e := by
  unfold removeKey
  rcases untouched with isOwn | untrusted
  · rw [if_pos isOwn]
  · rw [isNone_iff_eq_none.mp untrusted]
    split <;> rfl

/-- A step is a move of the store and memory. -/
theorem StatementStep.moves (holds : Holds own s.memory) (label : StatementStep)
    (stepped : label.step own s = some t) : Durable.Move (statementSystem own) s t := by
  cases label with
  | restart =>
    obtain ⟨m, reloaded, rfl⟩ := map_eq_some_iff.mp stepped
    exact .restarted reloaded
  | call c store lost =>
    cases stepped
    cases c with
    | pair peer now =>
      simp only [StatementCall.after, StatementCall.submits]
      rcases holds.consistent.pair_cases peer store now with
        ⟨trusted, _, made⟩ | ⟨untrusted, ⟨saved, made⟩ | ⟨error, failed, made⟩⟩
      · rw [made, if_pos trusted]
        exact .stood (.refl _)
      · rw [made, untrusted]
        refine Durable.Move.attempt lost (.pairing untrusted) (fun _ => rfl) fun error failed => ?_
        cases saved.symm.trans failed
      · rw [made, untrusted]
        refine Durable.Move.attempt lost (.pairing untrusted) (fun saved => ?_) fun _ _ => .refl _
        cases saved.symm.trans failed
    | admitStatement statement now again =>
      simp only [StatementCall.after, StatementCall.submits]
      rcases s.memory.admitStatement_cases statement store now again with
        ⟨refused, ⟨_, made⟩ | made⟩ |
          ⟨held, admissible, -, -, ⟨saved, made⟩ | ⟨error, statements, failed, made, same⟩⟩
      · rw [made, refused]
        exact .stood (.refl _)
      · rw [made, refused]
        rcases s.memory.admitOwnStatement_cases statement again with
          ⟨_, made⟩ | ⟨held, checked, named, made | made⟩
        · rw [made]
          exact .stood (.refl _)
        · rw [made]
          exact .stood (.refl _)
        · rw [made]
          exact .stood (.own checked named)
      · rw [made, admissible]
        refine Durable.Move.attempt lost (.admitting admissible) (fun _ => rfl)
          fun error failed => ?_
        cases saved.symm.trans failed
      · rw [made, admissible]
        refine Durable.Move.attempt lost (.admitting admissible) (fun saved => ?_) fun _ _ =>
          .same rfl ⟨fun _ => rfl, fun _ => rfl, rfl, rfl, same⟩
        cases saved.symm.trans failed
    | remove key =>
      simp only [StatementCall.after, StatementCall.submits]
      by_cases untouched : key = s.memory.ownKey ∨ (s.memory.trusted.lookup key).isNone
      · rw [if_pos untouched, removeKey_untouched store untouched]
        exact .stood (.refl _)
      · obtain ⟨foreign, trusted⟩ := not_or.mp untouched
        rw [if_neg untouched, s.memory.removeKey_engine key store fun _ => .ok ()]
        exact Durable.Move.standing _
          (.removing foreign (isSome_iff_ne_none.mpr fun absent => trusted (by rw [absent]; rfl)))

abbrev StatementRun (own : DeviceIdentity) (s : StatementState) : Prop :=
  Reaches (StatementStep.step own) anyMove ⟨new own, (new own).snapshot⟩ s

def StaysPaired (own : DeviceIdentity) (key : KeyId) (s t : StatementState) : Prop :=
  Moves (StatementStep.step own) anyMove s t ∧ (s.memory.paired.lookup key).isSome ∧
    (t.memory.paired.lookup key).isSome

abbrev StatementLevel (own : DeviceIdentity) : StatementState → Prop :=
  Durable.Level (statementSystem own) (Holds own) Behind

theorem StatementLevel.step (level : StatementLevel own s)
    (moves : Moves (StatementStep.step own) anyMove s t) :
    StatementLevel own t ∧ Forward s.memory t.memory := by
  obtain ⟨label, -, stepped⟩ := moves
  have move := StatementStep.moves level.1 label stepped
  exact ⟨level.move (statements_orderly own) move,
    level.forward (statements_orderly own) Behind.forward
    (fun holds stands => (holds.stood stands).2.forward) move⟩

theorem StatementRun.level (run : StatementRun own s) : StatementLevel own s :=
  run.invariant (fun label _ _ _ stepped level =>
    (StatementLevel.step level ⟨label, trivial, stepped⟩).1)
    ⟨Holds.new own, _, Holds.new own, rfl, Behind.refl _⟩

/-- While a key stays paired, its pairing stays the same and its statement moves on. -/
theorem StatementLevel.onward (level : StatementLevel own s)
    (run : Relation.ReflTransGen (StaysPaired own key) s t) :
    t.memory.paired.lookup key = s.memory.paired.lookup key ∧
      StatementOnward (s.memory.agreements.lookup key) (t.memory.agreements.lookup key) := by
  suffices reached : StatementLevel own t ∧
    t.memory.paired.lookup key = s.memory.paired.lookup key ∧
      StatementOnward (s.memory.agreements.lookup key)
        (t.memory.agreements.lookup key) from reached.2
  induction run with
  | refl => exact ⟨level, rfl, .refl _⟩
  | tail _ stays ih =>
    obtain ⟨level, same, onward⟩ := ih
    obtain ⟨level, forward⟩ := StatementLevel.step level stays.1
    obtain ⟨kept, moved⟩ := forward key stays.2.1 stays.2.2
    exact ⟨level, kept.trans same, onward.trans moved⟩

end Runs

end AuthorizationEngine

section Sessions

open AuthorizationEngine

variable [Libraries] [PairingDigests] {own : DeviceIdentity}

/-- The sessions of the device's pairings, with the time at which the peer's statement was
judged. -/
inductive PairingSession.JudgedBy (own : DeviceIdentity) (judgedAt : Timestamp)
    (session : PairingSession) : Prop
  | initiator (received : (PairingInitiator.startInner own statement nonce start).1.receive
      response judgedAt = .ok (session, reveal))
  | responder (answered : PairingResponder.respondInner own statement offer nonce start =
      .ok (responder, response)) (received : responder.receive reveal judgedAt = .ok session)

theorem PairingSession.JudgedBy.spec {session : PairingSession}
    (judged : session.JudgedBy own judgedAt) :
    session.state = .opened pairingMaxAttempts ∧ ∃ statement,
      session.peerValue = judgeWith (.ofDevice own) session.peerPrincipal
        session.peerPublicKey statement judgedAt ∧
      session.peerStatement = statement.filter fun _ => session.peerValue.accepted.isSome := by
  cases judged with
  | initiator received =>
    obtain ⟨-, -, -, rfl⟩ := PairingInitiator.receive_eq_ok.mp received
    exact ⟨rfl, _, rfl, rfl⟩
  | responder answered received =>
    obtain ⟨-, rfl, -⟩ := PairingResponder.respondInner_eq_ok.mp answered
    obtain ⟨-, -, rfl⟩ := PairingResponder.receive_eq_ok.mp received
    exact ⟨rfl, _, rfl, rfl⟩

omit [PairingDigests] in
theorem given_later (judged : judgeWith (.ofDevice own) principal key statement judgedAt = .given v)
    (later : judgedAt.unixNanos ≤ now.unixNanos)
    (added : keys.lookup key.keyId = some (.new principal key)) :
    ∃ h, pairedStatement keys key.keyId statement now = some h ∧ ConfirmedValues.ofHeld h = v := by
  obtain ⟨s, trusted, h, rfl, paired, checked, named, rfl⟩ := judgeWith_given judged
  refine ⟨h, pairedStatement_eq_some.mpr ⟨s, rfl, ?_, named⟩, rfl⟩
  obtain ⟨shaped, ⟨entry, verified, signer⟩, claimed, early, newer⟩ :=
    checkStatement_eq_ok.mp checked
  refine checkStatement_eq_ok.mpr
    ⟨shaped, ⟨entry, verifySigned_of_lookup verified fun k found => ?_, signer⟩, claimed,
    by omega, newer⟩
  unfold TrustedKeySet.addPairedKey at paired
  dsimp only at paired
  split at paired
  · cases paired
  next absent =>
  cases paired
  rw [lookup_insert_if] at found
  split at found
  · next same =>
    cases found
    exact same ▸ added
  · next differs =>
    -- the own key is another one than the peer's, which signed
    have isOwn := (new_consistent own).keyed found
    exact absurd (isOwn.symm.trans (signer.trans named)) differs

namespace AuthorizationEngine

theorem Consistent.pair_accepted (consistent : Consistent own e) {judgedAt now : Timestamp}
    (judged : session.JudgedBy own judgedAt) (accepted : session.peerValue = .given v)
    (confirmed : (PairingSession.confirm call (Logs.after PairingSession.confirm calls session)).2 =
      .ok peer)
    (later : judgedAt.unixNanos ≤ now.unixNanos) (paired : (e.pair peer store now).1 = .ok ()) :
    ∃ record h, (e.pair peer store now).2.paired.lookup peer.record.keyId = some record ∧
      record.confirmed = some v ∧
      (e.pair peer store now).2.agreements.lookup peer.record.keyId = some h ∧
        ConfirmedValues.ofHeld h = v := by
  obtain ⟨opened, statement, value, carried⟩ := judged.spec
  obtain ⟨-, -, rfl⟩ := PairingSession.peer_origin opened confirmed
  rw [accepted] at value carried
  rcases consistent.pair_cases ⟨⟨session.peerPrincipal, session.peerPublicKey, call.now, none⟩,
    session.peerStatement⟩ store now with ⟨-, _, made⟩ | ⟨untrusted, ⟨-, made⟩ | ⟨_, -, made⟩⟩
  · rw [made] at paired
    cases paired
  · obtain ⟨h, found, same⟩ := given_later value.symm later
      (lookup_insert e.trusted)
    have given : e.statementOf ⟨⟨session.peerPrincipal, session.peerPublicKey, call.now, none⟩,
        session.peerStatement⟩ now = some h := by
      rw [carried]
      refine Eq.trans ?_ found
      cases statement <;> rfl
    rw [made]
    refine ⟨_, h, lookup_insert _, ?_, ?_, same⟩
    · rw [given, ← same]
      rfl
    · change (holding _ _ _).lookup _ = _
      rw [given]
      exact lookup_insert _
  · rw [made] at paired
    cases paired

/-- Agreement statements move only forward, whatever is paired, admitted and removed, whichever
saves fail and whenever the device restarts. -/
theorem statements_move_forward (own : DeviceIdentity) (s : StatementState)
    (run : StatementRun own s) : (∀ key t, Relation.ReflTransGen (StaysPaired own key) s t →
      StatementOnward (s.memory.agreements.lookup key) (t.memory.agreements.lookup key)) ∧
    (∀ key h, s.memory.agreements.lookup key = some h →
      h.keyId = key ∧ (∃ entry, s.memory.trusted.lookup key = some entry ∧ SignedBy h entry) ∧
      isAcceptableAgreementKey h.agreementKey.octets = true ∧
      (key ≠ own.keyId → ∃ record v, s.memory.paired.lookup key = some record ∧
        record.confirmed = some v ∧
        v.seq ≤ h.seq ∧ (h.seq = v.seq → h.agreementKey = v.agreementKey) ∧
        v.issuedAt.unixNanos ≤ h.issuedAt.unixNanos)) ∧
    (∀ key record, s.memory.paired.lookup key = some record → record.confirmed = none →
      s.memory.agreements.lookup key = none) ∧
    (∀ (session : PairingSession) (judgedAt : Timestamp), session.JudgedBy own judgedAt →
      ∀ v, session.peerValue = .given v →
        ∀ (calls : List ConfirmCall) (call : ConfirmCall) (peer : PairedPeer),
      (PairingSession.confirm call (Logs.after PairingSession.confirm calls session)).2 = .ok peer →
      ∀ (store : PairingSave) (now : Timestamp), judgedAt.unixNanos ≤ now.unixNanos →
      (s.memory.pair peer store now).1 = .ok () →
      ∃ record h, (s.memory.pair peer store now).2.paired.lookup peer.record.keyId = some record ∧
        record.confirmed = some v ∧
        (s.memory.pair peer store now).2.agreements.lookup peer.record.keyId = some h ∧
          ConfirmedValues.ofHeld h = v) := by
  have level := StatementRun.level run
  obtain ⟨consistent, signed⟩ := level.1
  refine ⟨fun key t stays => (StatementLevel.onward level stays).2, ?_, ?_, ?_⟩
  · intro key h found
    obtain ⟨named, meets⟩ := consistent.held key h found
    refine ⟨named, signed key h found, h.agreementKey.acceptable, fun foreign => ?_⟩
    obtain ⟨record, paired, checked⟩ := meets foreign
    obtain ⟨v, confirmed, floors⟩ := checkConfirmed_eq_ok.mp checked
    exact ⟨record, v, named ▸ paired, confirmed, floors⟩
  · intro key record paired nothing
    obtain ⟨-, foreign, -⟩ := consistent.paired key record paired
    cases found : s.memory.agreements.lookup key with
    | none => rfl
    | some h =>
      obtain ⟨named, meets⟩ := consistent.held key h found
      obtain ⟨record', paired', checked⟩ := meets foreign
      cases (named ▸ paired').symm.trans paired
      obtain ⟨v, confirmed, -⟩ := checkConfirmed_eq_ok.mp checked
      cases nothing.symm.trans confirmed
  · intro session judgedAt judged v accepted calls call peer confirmed store now later paired
    exact consistent.pair_accepted judged accepted confirmed later paired

end AuthorizationEngine

end Sessions

namespace AuthorizationEngine

def samplePairedPeer : PairedPeer :=
  ⟨⟨sampleResponding.entry.principal, sampleResponding.entry.publicKey, .epoch, none⟩, sampleGiven⟩

attribute [local instance] sampleLibraries plainDigests

/-- A key is paired, a newer statement of it is written though its save fails, and the device
restarts. -/
def sampleStatementSteps : List StatementStep :=
  .call (.pair samplePairedPeer .epoch) (fun _ => .ok ()) false ::
    (AgreementStatement.issue sampleResponding sampleAgreementKey 1 .epoch).toList.map
      (fun newer => .call (.admitStatement newer .epoch .epoch)
        (fun _ => .error (.failed "full")) true) ++ [.restart]

theorem statements_move_forward_sample :
    let own := sampleInitiating.toDeviceIdentity
    ∃ s h,
      perform (StatementStep.step own) sampleStatementSteps ⟨new own, (new own).snapshot⟩ = some s ∧
      s.memory.agreements.lookup (PairingRecord.keyId samplePairedPeer.record) =
        some h ∧ h.seq = 1 ∧
      ∃ entry, SignedBy h entry := by
  intro own
  have ran :
    ((perform (StatementStep.step own) sampleStatementSteps ⟨new own, (new own).snapshot⟩).bind fun s =>
      (s.memory.agreements.lookup samplePairedPeer.record.keyId).map
        HeldStatement.seq) = some 1 := by
    decide +kernel
  obtain ⟨s, performed, read⟩ := bind_eq_some_iff.mp ran
  obtain ⟨h, found, seq⟩ := map_eq_some_iff.mp read
  obtain ⟨-, held, -⟩ := statements_move_forward own s (reaches_of_perform _ performed)
  obtain ⟨-, ⟨entry, -, signed⟩, -⟩ := held _ h found
  exact ⟨s, h, performed, found, seq, entry, signed⟩

end AuthorizationEngine

end Oac
