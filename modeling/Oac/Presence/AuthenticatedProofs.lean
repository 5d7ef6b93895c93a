import Oac.Authorization.KeyRemoval
import Oac.Presence.Authenticated
import Oac.SigningProofs

/-! What a consumer can do with an authenticated presence record, and who can lock a session id. -/

namespace Oac

open Results PresenceRecord JsonObject

section Records

theorem PresenceRecord.announcementKind_eq_ok {kind : PresenceKind}
    (read : announcementKind o session = .ok kind) :
    ∃ lifetime descriptor, kind = .announcement lifetime descriptor := by
  unfold announcementKind at read
  split at read
  · obtain ⟨lifetime, -, read⟩ := bind_eq_ok.mp read
    obtain ⟨descriptor, -, read⟩ := bind_eq_ok.mp read
    split at read
    · cases read
    · cases read
      exact ⟨lifetime, descriptor, rfl⟩
  · cases read

theorem PresenceRecord.fromJson_eq_ok {inner : JsonObject} (read : fromJson (.object inner) = .ok record) :
    claimedSession inner = some record.sessionId ∧
      ((get inner "present").bind Json.asBool) = some record.present ∧
      (((get inner "issued_at").bind Json.asStr).bind Timestamp.parse) = some record.issuedAt := by
  obtain ⟨o, isObject, read⟩ := bind_eq_ok.mp read
  obtain ⟨sameObject, -⟩ := Option.filter_eq_some_iff.mp (okOr_eq_ok.mp isObject)
  cases sameObject
  split at read
  · cases read
  obtain ⟨session, sessionRead, read⟩ := bind_eq_ok.mp read
  obtain ⟨seq, -, read⟩ := bind_eq_ok.mp read
  obtain ⟨present, presentRead, read⟩ := bind_eq_ok.mp read
  obtain ⟨issuedAt, issuedRead, read⟩ := bind_eq_ok.mp read
  cases present with
  | true =>
    obtain ⟨kind, kindRead, read⟩ := bind_eq_ok.mp read
    obtain ⟨lifetime, descriptor, rfl⟩ := announcementKind_eq_ok kindRead
    cases read
    exact ⟨okOr_eq_ok.mp sessionRead, okOr_eq_ok.mp presentRead, okOr_eq_ok.mp issuedRead⟩
  | false =>
    obtain ⟨kind, kindRead, read⟩ := bind_eq_ok.mp read
    revert kindRead
    fun_cases withdrawalKind <;> rintro ⟨⟩
    cases read
    exact ⟨okOr_eq_ok.mp sessionRead, okOr_eq_ok.mp presentRead, okOr_eq_ok.mp issuedRead⟩

end Records

namespace AuthorizationEngine

variable {e : AuthorizationEngine}

theorem Sound.acceptsPresence_iff (sound : Sound e) (key : KeyId) (s : SessionId)
    (now : Timestamp) : e.acceptsPresence key s now = true ↔ e.facts.related key s now := by
  have answers : Answers e.facts (e.related key s now) (e.facts.related key s now) :=
    sound.related_answers key s
  rw [← answers.1]
  cases found : e.related key s now with
  | none =>
    simp [acceptsPresence, decideAt, evaluate, AuthorizationRequest.kind,
      AuthorizationDecision.permits, found]
  | some basis =>
    simp [acceptsPresence, decideAt, evaluate, AuthorizationRequest.kind, AuthorizationDecision.permits, found]

/-- Nothing the engine holds relates device `k` to session `r`: no grant names it as writer or
target, and no live record of an envelope to `r` under `k` or of one from `r` verified under `k` is
held. -/
structure Unrelated (e : AuthorizationEngine) (k : KeyId) (r : SessionId) (now : Timestamp) : Prop where
  grants : ∀ g ∈ e.grants, namesPeer k r g = false
  sent : ∀ record ∈ e.sent.iter, record.toSession = r → record.toKeyId = k →
    withinReplyPeriod record.createdAt now = false
  handOffs : ∀ record ∈ e.handedOff.iter, record.fromSession = r → record.keyId = some k →
    withinReplyPeriod record.createdAt now = false

/-- No live hand-off record from `r` is held under `key` or under no key. -/
def QuietUnder (e : AuthorizationEngine) (key : KeyId) (r : SessionId) (now : Timestamp) : Prop :=
  ∀ record ∈ e.handedOff.iter, record.fromSession = r →
    record.keyId = some key ∨ record.keyId = none → withinReplyPeriod record.createdAt now = false

theorem Sound.unrelated_refused (sound : Sound e) (unrelated : e.Unrelated k r now)
    (held : e.bindings.lookup r = some (.key bound)) (quiet : e.QuietUnder bound r now) :
    e.acceptsPresence k r now = false := by
  rw [Bool.eq_false_iff, ne_eq, sound.acceptsPresence_iff]
  rintro (⟨from_, to_, granted, named⟩ | ⟨from_, to_, granted, named⟩ | ⟨record, sent, toSession, toKey, live⟩ |
    ⟨record, handed, fromSession, live, key⟩)
  · have unnamed : from_.names k r = false := unrelated.grants _ granted
    simp [unnamed] at named
  · have unnamed : to_.names k r = false := unrelated.grants _ granted
    simp [unnamed] at named
  · have expired := unrelated.sent record ((RecordBook.mem_iter record).mpr sent) toSession toKey
    simp [expired] at live
  · -- the relation test reads the hand-off records of the key `r` is bound to
    have under : record.keyId = some bound ∨ record.keyId = none := by
      rcases key with none_ | ⟨key, named, same⟩
      · exact .inr none_
      · have sameKey : bound = key := by
          have both := held.symm.trans named
          simpa using both
        exact .inl (sameKey ▸ same)
    have expired := quiet record ((RecordBook.mem_iter record).mpr handed) fromSession under
    simp [expired] at live

end AuthorizationEngine

section Taking

variable [Libraries]

/-- The record is signed by the trusted `key`, issued to this device and inside the replay
window. -/
structure Attested (e : AuthorizationEngine) (record : AuthenticatedPresenceRecord)
    (now : Timestamp) (key : KeyId) (inner : JsonObject) : Prop where
  signed : ∃ entry, verifySigned e.trusted .presence record.wire = .ok entry ∧ entry.keyId = key
  audience : get record.wire "audience" = some (.string e.ownKey.text)
  about : get record.wire "record" = some (.object inner)
  fresh : issuedInWindow inner now = true

namespace AuthorizationEngine

variable {e : AuthorizationEngine} {inner : JsonObject}

theorem presenceSigner_eq_ok :
    e.presenceSigner o = .ok key ↔ ∃ entry, verifySigned e.trusted .presence o = .ok entry ∧
      entry.keyId = key := by
  unfold presenceSigner
  split
  · next entry verified => simp [verified]
  · next refused => simp [refused]
  · next refused => simp [refused]

theorem checkAuthenticity_eq_ok (checked : e.checkAuthenticity record now = .ok (key, inner)) :
    Attested e record now key inner := by
  unfold checkAuthenticity at checked
  split at checked
  · next value audience recorded addressed =>
    obtain ⟨signer, verified, checked⟩ := bind_eq_ok.mp checked
    split at checked
    · cases checked
    next sameAudience =>
    obtain ⟨members, isObject, checked⟩ := bind_eq_ok.mp checked
    split at checked
    · cases checked
    next fresh =>
    cases checked
    rw [asObject_eq_some.mp (okOr_eq_ok.mp isObject)] at recorded
    refine ⟨presenceSigner_eq_ok.mp verified, ?_, recorded, by simpa using fresh⟩
    rw [addressed, asStr_eq_some.mp (not_not.mp sameAudience)]
  · cases checked

theorem checkAuthenticity_of_attested (attested : Attested e record now key inner) :
    e.checkAuthenticity record now = .ok (key, inner) := by
  unfold checkAuthenticity
  rw [attested.about, attested.audience]
  refine bind_eq_ok.mpr ⟨key, presenceSigner_eq_ok.mpr attested.signed, ?_⟩
  rw [if_neg (by simp [Json.asStr])]
  refine bind_eq_ok.mpr ⟨inner, rfl, ?_⟩
  rw [if_neg (by simp [attested.fresh])]

end AuthorizationEngine

namespace Consumer

variable (c : Consumer) (record : AuthenticatedPresenceRecord) (carrier : CarrierHandle)
  (clock again : Timestamp) (now : Instant) in
/-- What a consumer did with a record: nothing, or it refused the claim of another key, or it
offered a well-formed record to the registry. -/
inductive Took : PresenceAuthOutcome × Consumer → Prop
  | nothing (why : PresenceAuthDiscard) : Took (.discard why, c)
  | refused (key bound inner s) (attested : Attested c.engine record clock key inner)
      (about : claimedSession inner = some s) (held : c.engine.bindings.lookup s = some (.key bound))
      (other : bound ≠ key) :
      Took (⟨.error .boundElsewhere, true⟩, { c with engine := c.engine.refuseClaim key s again })
  | offered (key inner) (parsed : PresenceRecord) (attested : Attested c.engine record clock key inner)
      (read : fromJson (.object inner) = .ok parsed)
      (free : c.engine.bindings.lookup parsed.sessionId = none ∨
        c.engine.bindings.lookup parsed.sessionId = some (.key key))
      (related : parsed.present = true → c.engine.acceptsPresence key parsed.sessionId again = true) :
      Took (c.offer key parsed carrier now)

variable {inner : JsonObject} (c : Consumer) (record : AuthenticatedPresenceRecord)
  (carrier : CarrierHandle) (clock again : Timestamp) (now : Instant)

theorem takeClaim_took (attested : Attested c.engine record clock key inner)
    (free : ∀ s, claimedSession inner = some s → c.engine.bindings.lookup s = none ∨
      c.engine.bindings.lookup s = some (.key key)) :
    Took c record carrier clock again now (c.takeClaim key inner carrier again now) := by
  unfold takeClaim
  dsimp only
  split
  · exact .nothing _
  next passed =>
  cases read : fromJson (.object inner) with
  | error violation => exact .nothing _
  | ok parsed =>
    obtain ⟨about, present, -⟩ := fromJson_eq_ok read
    dsimp only
    split
    · exact .nothing _
    split
    · exact .nothing _
    refine .offered key inner parsed attested read (free _ about) fun announced => ?_
    rw [present, about, announced] at passed
    simpa using passed

theorem accept_took : Took c record carrier clock again now
    (c.acceptAuthenticatedRecord record carrier clock again now) := by
  unfold acceptAuthenticatedRecord
  cases checked : c.engine.checkAuthenticity record clock with
  | error why => exact .nothing why
  | ok verified =>
    obtain ⟨key, inner⟩ := verified
    have attested := AuthorizationEngine.checkAuthenticity_eq_ok checked
    dsimp only
    split
    · exact .nothing _
    · next bound s entry about =>
      have held : c.engine.bindings.lookup s = some (.key bound) := by simpa [about] using entry
      split
      · next other => exact .refused key bound inner s attested about held other
      · next same =>
        refine c.takeClaim_took record carrier clock again now attested fun s' about' => .inr ?_
        rw [about, Option.some.injEq] at about'
        rw [← about', held, not_not.mp same]
    · next unmarked unbound =>
      refine c.takeClaim_took record carrier clock again now attested fun s about => .inl ?_
      cases held : c.engine.bindings.lookup s with
      | none => rfl
      | some entry =>
        cases entry with
        | key bound => exact absurd about (unbound bound s (by simp [about, held]))
        | conflict keys => exact absurd (by simp [about, held]) (unmarked keys)

theorem Took.accepted {c : Consumer} {record : AuthenticatedPresenceRecord} {carrier : CarrierHandle}
    {clock again : Timestamp} {now : Instant} (took : Took c record carrier clock again now taken)
    (accepted : taken.1.accepted = true) : ∃ key inner parsed, Attested c.engine record clock key inner ∧
      fromJson (.object inner) = .ok parsed ∧ (c.engine.bindings.lookup parsed.sessionId = none ∨
        c.engine.bindings.lookup parsed.sessionId = some (.key key)) ∧
      (parsed.present = true → c.engine.acceptsPresence key parsed.sessionId again = true) ∧
      taken = c.offer key parsed carrier now := by
  cases took with
  | nothing | refused => cases accepted
  | offered key inner parsed attested read free related =>
    exact ⟨key, inner, parsed, attested, read, free, related, rfl⟩

theorem accept_of_claim (attested : Attested c.engine record clock key inner)
    (about : claimedSession inner = some s) (held : c.engine.bindings.lookup s = some (.key bound))
    (other : bound ≠ key) : c.acceptAuthenticatedRecord record carrier clock again now =
      (⟨.error .boundElsewhere, true⟩, { c with engine := c.engine.refuseClaim key s again }) := by
  unfold acceptAuthenticatedRecord
  rw [AuthorizationEngine.checkAuthenticity_of_attested attested]
  simp [about, held, other]

end Consumer

theorem Attested.about_eq {inner : JsonObject} (attested : Attested e record now key inner) :
    record.about = claimedSession inner := by
  simp [AuthenticatedPresenceRecord.about, attested.about, Json.asObject]

/-- A device that nothing relates to a session of another device cannot lock its id, as long as the
consumer holds no live hand-off record from that session either: whatever the device signs about the
session changes nothing, and what passes the first checks is refused with a finding. -/
theorem unrelated_device_cannot_lock (e : AuthorizationEngine) (reachable : e.Reachable)
    (registry : PresenceRegistry) (k bound : KeyId) (r : SessionId) (again : Timestamp)
    (held : e.bindings.lookup r = some (.key bound)) (other : bound ≠ k)
    (unrelated : e.Unrelated k r again) (quiet : e.QuietUnder bound r again)
    (record : AuthenticatedPresenceRecord) (carrier : CarrierHandle) (clock : Timestamp) (now : Instant)
    (signed : ∃ entry, verifySigned e.trusted .presence record.wire = .ok entry ∧ entry.keyId = k)
    (about : record.about = some r) :
    let taken := (Consumer.mk e registry).acceptAuthenticatedRecord record carrier clock again now
    taken.2 = ⟨e, registry⟩ ∧ taken.1.accepted = false ∧
      ∀ inner, Attested e record clock k inner → taken.1 = ⟨.error .boundElsewhere, true⟩ := by
  have refuses := reachable.sound.unrelated_refused unrelated held quiet
  have kept : e.refuseClaim k r again = e := by simp [AuthorizationEngine.refuseClaim, refuses]
  have claimed : ∀ inner, Attested e record clock k inner →
      (Consumer.mk e registry).acceptAuthenticatedRecord record carrier clock again now =
        (⟨.error .boundElsewhere, true⟩, ⟨e, registry⟩) := by
    intro inner attested
    rw [attested.about_eq] at about
    have taken := (Consumer.mk e registry).accept_of_claim record carrier clock
      again now attested about held other
    rw [taken]
    exact congrArg (fun engine => (_, Consumer.mk engine registry)) kept
  by_cases attests : ∃ inner, Attested e record clock k inner
  · obtain ⟨inner, attested⟩ := attests
    rw [claimed inner attested]
    exact ⟨rfl, rfl, fun _ _ => rfl⟩
  · -- the signature is the device's, so whatever passes the first checks would be attested
    have never : ∀ key inner, ¬Attested e record clock key inner := by
      intro key inner attested
      obtain ⟨entry, verified, sameKey⟩ := signed
      obtain ⟨entry', verified', sameKey'⟩ := attested.signed
      rw [verified, Except.ok.injEq] at verified'
      have same : key = k := by rw [← sameKey', ← verified', sameKey]
      exact attests ⟨inner, same ▸ attested⟩
    have took := (Consumer.mk e registry).accept_took record carrier clock again now
    generalize (Consumer.mk e registry).acceptAuthenticatedRecord record carrier clock again now =
      taken at took ⊢
    cases took with
    | nothing why => exact ⟨rfl, rfl, fun inner attested => absurd attested (never k inner)⟩
    | refused key _ inner _ attested => exact absurd attested (never key inner)
    | offered key inner _ attested => exact absurd attested (never key inner)

end Taking

section Sample

open AuthorizationEngine

def sampleThirdKey : KeyId := ⟨String.ofList (List.replicate 64 '2'), by decide +kernel⟩

/-- The sample libraries with a third key. -/
@[reducible] def trioLibraries : Libraries :=
  { sampleLibraries with keyId := fun key =>
      if key.octets = List.replicate 32 0 then sampleOwnKey
      else if key.octets = List.replicate 32 1 then samplePeerKey else sampleThirdKey }

def sampleThird : PairedPeer where
  record := ⟨⟨"carol", by decide +kernel⟩, PublicKey.replicate 2, .epoch, none⟩
  statement := none

def sampleAnnouncement (s : SessionId) (seq : Nat) : JsonObject :=
  [("session_id", .string s.text), ("seq", .number (.fromU64 seq)), ("present", .bool true),
    ("issued_at", .string Timestamp.epoch.text), ("lifetime_ms", .number (.fromU64 1000)),
    ("descriptor", .object [("session_id", .string s.text), ("capabilities", .object [])])]

/-- The record `inner` issued to the sample device by the holder of `key`, whose octets are all
alike; `quad` is the text of three of them. -/
def sampleIssued (principal : String) (key : KeyId) (quad : String) (inner : JsonObject) :
    AuthenticatedPresenceRecord :=
  let signature := (List.replicate 21 quad.toList).flatten ++ quad.toList.take 2
  ⟨[("record", .object inner), ("audience", .string sampleOwnKey.text),
    ("security", .object [("principal", .string principal), ("key_id", .string key.text),
      ("signature", .string (String.ofList signature))])]⟩

def sampleClaim : AuthenticatedPresenceRecord :=
  sampleIssued "carol" sampleThirdKey "AgIC" (sampleAnnouncement (sampleSession 3) 1)

def boundOps : List Op :=
  [.pair samplePeer (fun _ => .ok ()) .epoch, .pair sampleThird (fun _ => .ok ()) .epoch,
    .bind (sampleSession 3) samplePeerKey]

def boundEngine : AuthorizationEngine := boundOps.foldl (@after trioLibraries) (new sampleOwn)

theorem unrelated_device_cannot_lock_sample :
    let taken := @Consumer.acceptAuthenticatedRecord trioLibraries ⟨boundEngine, .new⟩
      sampleClaim 0 .epoch .epoch 0
    taken.2 = ⟨boundEngine, .new⟩ ∧ taken.1 = ⟨.error .boundElsewhere, true⟩ := by
  have reachable : @Reachable trioLibraries boundEngine := @reachable_of_ops trioLibraries sampleOwn boundOps
  have facts : boundEngine.bindings.lookup (sampleSession 3) = some (.key samplePeerKey) ∧
      (∀ g ∈ boundEngine.grants, namesPeer sampleThirdKey (sampleSession 3) g = false) ∧
      boundEngine.sent.iter = [] ∧ boundEngine.handedOff.iter = [] ∧ sampleClaim.about = some (sampleSession 3) ∧
      @presenceSigner trioLibraries boundEngine sampleClaim.wire = .ok sampleThirdKey ∧
      issuedInWindow (sampleAnnouncement (sampleSession 3) 1) .epoch = true := by
    decide +kernel
  obtain ⟨held, grants, noSent, noHandOff, about, signer, fresh⟩ := facts
  have attested : @Attested trioLibraries boundEngine sampleClaim .epoch sampleThirdKey
      (sampleAnnouncement (sampleSession 3) 1) :=
    @Attested.mk trioLibraries _ _ _ _ _ ((@presenceSigner_eq_ok trioLibraries _ _ _).mp signer) rfl rfl fresh
  have locked := @unrelated_device_cannot_lock trioLibraries boundEngine reachable
    .new sampleThirdKey samplePeerKey
    (sampleSession 3) .epoch held (by decide) ⟨grants, by simp [noSent], by simp [noHandOff]⟩
    (by simp [QuietUnder, noHandOff]) sampleClaim 0 .epoch 0
    ((@presenceSigner_eq_ok trioLibraries _ _ _).mp signer) about
  exact ⟨locked.1, locked.2.2 _ attested⟩

/-- Two paired devices; session 3 sent an envelope that was verified under the key of the first. -/
def claimOps : List Op :=
  [.registerSession (sampleRegistration (sampleSession 1)) sampleOwn,
    .pair samplePeer (fun _ => .ok ()) .epoch,
    .pair sampleThird (fun _ => .ok ()) .epoch, .recordHandoff sampleHandOff .handedToHarness .epoch]

def claimEngine : AuthorizationEngine := claimOps.foldl (@after trioLibraries) (new sampleOwn)

/-- Nothing relates the third device to session 3, and yet its announcement locks the session: the
relation test reads the hand-off record that was verified under the other device's key. -/
theorem hand_off_relates_any_device :
    @Reachable trioLibraries claimEngine ∧ (claimEngine.trusted.lookup sampleThirdKey).isSome ∧
      claimEngine.bindings.lookup (sampleSession 3) = some (.key samplePeerKey) ∧
      samplePeerKey ≠ sampleThirdKey ∧ claimEngine.Unrelated sampleThirdKey (sampleSession 3) .epoch ∧
      (@Consumer.acceptAuthenticatedRecord trioLibraries ⟨claimEngine, .new⟩ sampleClaim 0 .epoch .epoch
        0).2.engine.bindings.lookup (sampleSession 3) = some (.conflict {samplePeerKey, sampleThirdKey}) := by
  have facts : (claimEngine.trusted.lookup sampleThirdKey).isSome ∧
      claimEngine.bindings.lookup (sampleSession 3) = some (.key samplePeerKey) ∧
      (∀ g ∈ claimEngine.grants, namesPeer sampleThirdKey (sampleSession 3) g = false) ∧
      claimEngine.sent.iter = [] ∧ claimEngine.handedOff.iter = [sampleHandOff] ∧
      (@Consumer.acceptAuthenticatedRecord trioLibraries ⟨claimEngine, .new⟩ sampleClaim 0 .epoch .epoch
        0).2.engine.bindings.lookup (sampleSession 3) = some (.conflict {samplePeerKey, sampleThirdKey}) := by
    decide +kernel
  obtain ⟨trusted, held, grants, noSent, oneHandOff, locked⟩ := facts
  refine ⟨@reachable_of_ops trioLibraries sampleOwn claimOps, trusted, held, by decide,
    ⟨grants, by simp [noSent], fun record mem _ named => ?_⟩, locked⟩
  rw [oneHandOff, List.mem_singleton] at mem
  subst mem
  exact absurd named (by decide)

end Sample

end Oac
