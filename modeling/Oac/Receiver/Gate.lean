import Oac.Authorization.Decisions
import Oac.Receiver.Receive
import Oac.Replay.StoreProofs
import Oac.SigningProofs

/-! No copy reaches the hand-off call without having passed every check of the receive pipeline, and
what a copy leaves in the duplicate store. -/

namespace Oac

open Oac.Inner HandOffDeadline List

namespace AuthorizationEngine

variable {e : AuthorizationEngine}

/-- Step 4 answers a deliver question with a grant or a live sent record. -/
def DeliverBasis (e : AuthorizationEngine) (q : DeliverQuestion) (now : Timestamp) : Basis → Prop
  | .inboundGrant g =>
    g ∈ e.grants ∧ inboundLets e.ownSessions q.verifyingKey q.fromSession q.toSession g = true
  | .replyRight r => e.facts.sent r ∧ r.toKeyId = q.verifyingKey ∧ r.toSession = q.fromSession ∧
      r.fromSession = q.toSession ∧ q.replyTo = some r.id ∧ e.facts.IsOwn r.fromSession ∧
      withinReplyPeriod r.createdAt now = true
  | _ => False

theorem deliver_eq_some (found : e.deliver q now = some basis) :
    (e.bindings.lookup q.fromSession = none ∨ e.bindings.lookup q.fromSession =
      some (.key q.verifyingKey)) ∧ e.DeliverBasis q now basis := by
  unfold deliver at found
  split at found
  · cases found
  · next allowed =>
    refine ⟨refusesSender_eq_false.mp (by simpa using allowed), ?_⟩
    split at found
    · next g granted =>
      cases found
      exact ⟨mem_of_find?_eq_some granted, find?_some granted⟩
    · obtain ⟨replyTo, asked, found⟩ := Option.bind_eq_some_iff.mp found
      obtain ⟨r, sent, rfl⟩ := Option.map_eq_some_iff.mp found
      have right := find?_some sent
      simp only [hasReplyRight, Bool.and_eq_true, beq_iff_eq] at right
      obtain ⟨⟨⟨⟨⟨toKey, toSender⟩, fromTarget⟩, named⟩, live⟩, isOwn⟩ := right
      exact ⟨⟨_, mem_of_find?_eq_some sent⟩, toKey, toSender, fromTarget, by rw [asked, named], isOwn, live⟩

theorem authorizeDelivery_eq_ok (passed : (e.authorizeDelivery msg now).1 = .ok authorized) :
    ∃ verifier basis, msg.verifiedBy = some verifier ∧ authorized.message = msg ∧
      e.evaluate (.deliver ⟨verifier.keyId, msg.envelope.fromSession, msg.envelope.toSession,
        msg.envelope.replyTo⟩) now = .permit basis ∧
      e.deliver ⟨verifier.keyId, msg.envelope.fromSession, msg.envelope.toSession,
        msg.envelope.replyTo⟩ now = some basis := by
  have delivers := e.authorizeDelivery_delivers msg now
  generalize e.authorizeDelivery msg now = answer at delivers passed
  cases delivers with
  | refused | full => cases passed
  | @permitted verifier after verified permits =>
    cases passed
    cases found : e.deliver ⟨verifier.keyId, msg.envelope.fromSession, msg.envelope.toSession,
        msg.envelope.replyTo⟩ now with
    | none => simp [AuthorizationDecision.permits, decideAt, evaluate, found] at permits
    | some basis => exact ⟨verifier, basis, verified, rfl, by simp [evaluate, found], found⟩

end AuthorizationEngine

section Step5

variable {store : Inner} {msg : AuthorizedMessage} {key : DuplicateKey}
  {handOff : ChannelMessage → HandOffOutcome}

def Taken (handOff : ChannelMessage → HandOffOutcome) (msg : ChannelMessage) : Prop :=
  handOff msg = .completed ∨ handOff msg = .indeterminate

instance (msg : ChannelMessage) : Decidable (Taken handOff msg) :=
  inferInstanceAs (Decidable (_ ∨ _))

theorem taken_iff (m : ChannelMessage) : (handOff m).mayBeHandedOff = true ↔ Taken handOff m := by
  unfold Taken
  cases handOff m <;> simp [HandOffOutcome.mayBeHandedOff]

theorem unreserved_standing (deadline : Int) (absent : store.entry key = none) (k : DuplicateKey) :
    ((store.insert key deadline .inFlight).settle key false).1.standing k = store.standing k := by
  unfold standing
  rw [settle_entry]
  by_cases same : k = key
  · simp [same, absent]
  · rw [if_neg same, insert_entry, if_neg same]

theorem reserved_standing (deadline : Int) (k : DuplicateKey) :
    ((store.insert key deadline .inFlight).settle key true).1.standing k =
      if k = key then some (deadline, .handedOff) else store.standing k := by
  unfold standing
  rw [settle_entry]
  by_cases same : k = key
  · simp [same, insert_entry]
  · simp [same, insert_entry]

/-- Step 5 and the delivery stage: no call, and the store as the eviction left it but for the mark
of a duplicate's receipt; or one call for a copy with no entry, whose entry then stays exactly when
it was taken. -/
theorem deliver_spec (limits : StoreLimits) (store : Inner) (target : SessionId → Option DeliveryTarget)
    (admission recheck : Timestamp) (handOff : ChannelMessage → HandOffOutcome)
    (keyed : DuplicateKey.of msg.message = some key) :
    ((deliver limits store msg target admission recheck handOff).calls = [] ∧
      ∀ k, (deliver limits store msg target admission recheck handOff).store.standing k =
        (store.evict admission.unixNanos).standing k) ∨
    ((deliver limits store msg target admission recheck handOff).calls = [msg.message] ∧
      (store.evict admission.unixNanos).entry key = none ∧
      deliveryChecks msg.message.envelope (target msg.message.envelope.toSession) = .ok () ∧
      (of msg.message.envelope).refusalAt recheck = none ∧
      ∀ k, (deliver limits store msg target admission recheck handOff).store.standing k =
        if k = key ∧ Taken handOff msg.message then
          some ((of msg.message.envelope).unixNanos, .handedOff)
        else (store.evict admission.unixNanos).standing k) := by
  simp only [deliver, keyAndDeadline, keyed]
  have ruled := decideAdmission_ruled limits admission.unixNanos (of msg.message.envelope).unixNanos store key
  generalize store.decideAdmission limits admission.unixNanos key
    (of msg.message.envelope).unixNanos = answer at ruled ⊢
  cases ruled with
  | waiting | full => exact .inl ⟨rfl, fun _ => rfl⟩
  | duplicate held settled => exact .inl ⟨rfl, fun k => overwrite_standing held (by rfl) (by rfl) rfl k⟩
  | admitted absent =>
    have refused : ∀ refusal k, (refuse ((store.evict admission.unixNanos).insert key
        (of msg.message.envelope).unixNanos .inFlight) key refusal).store.standing k =
          (store.evict admission.unixNanos).standing k :=
      fun refusal k => unreserved_standing _ absent k
    cases checked : deliveryChecks msg.message.envelope (target msg.message.envelope.toSession) with
    | error refusal =>
      rw [deliveryStage_checks checked]
      exact .inl ⟨rfl, refused refusal⟩
    | ok done =>
      cases late : (of msg.message.envelope).refusalAt recheck with
      | some refusal =>
        rw [deliveryStage_late checked late]
        exact .inl ⟨rfl, refused refusal⟩
      | none =>
        rw [deliveryStage_called checked late]
        refine .inr ⟨rfl, absent, rfl, rfl, fun k => ?_⟩
        by_cases taken : Taken handOff msg.message
        · have marked := (taken_iff msg.message).mpr taken
          simp only [marked, taken, and_true]
          exact reserved_standing _ k
        · have unmarked : (handOff msg.message).mayBeHandedOff = false := by
            rw [← Bool.not_eq_true, taken_iff]
            exact taken
          simp only [unmarked, taken, and_false, if_false]
          exact unreserved_standing _ absent k

end Step5

section Gate

/-- What a copy leaves in the store. -/
inductive StoreLeft (store : Inner) (readings : Readings)
    (handOff : ChannelMessage → HandOffOutcome) (run : ReceiveRun) : Prop where
  /-- Refused before step 5. -/
  | untouched (silent : run.calls = []) (same : run.store = store)
  /-- Refused in step 5 or after it: no entry is new. -/
  | evicted (silent : run.calls = [])
      (left : ∀ k, run.store.standing k = (store.evict readings.admission.unixNanos).standing k)
  /-- Handed off: the entry of its key is new, and there exactly when the copy was taken. -/
  | settled (msg : ChannelMessage) (key : DuplicateKey) (called : run.calls = [msg])
      (keyed : DuplicateKey.of msg = some key)
      (left : ∀ k, run.store.standing k =
        if k = key ∧ Taken handOff msg then some ((of msg.envelope).unixNanos, .handedOff)
        else (store.evict readings.admission.unixNanos).standing k)

theorem deliveryChecks_eq_ok (checked : deliveryChecks env found = .ok ()) :
    ∃ t, found = some t ∧ t.accepting = true ∧ t.activeInbound = true ∧
      (∀ part ∈ env.content, part.partType = "text" ∨ part.partType ∈ t.contentTypes) ∧
      ∀ most, t.maxEnvelopeOctets = some most → env.octets.length ≤ most := by
  revert checked
  fun_cases deliveryChecks <;> rintro ⟨⟩
  · next t accepting takes =>
    simp only [Bool.not_eq_true', Bool.not_eq_false, DeliveryTarget.takes, Bool.and_eq_true,
      all_eq_true, Bool.or_eq_true, beq_iff_eq, contains_iff_mem] at accepting takes
    obtain ⟨⟨active, types⟩, size⟩ := takes
    refine ⟨t, rfl, accepting, active, types, fun most bound => ?_⟩
    rw [bound] at size
    simpa using size

theorem checkReplayWindow_eq_ok (checked : checkReplayWindow msg now = .ok ()) :
    now.unixNanos - windowNanos < msg.envelope.createdAt.unixNanos ∧
      msg.envelope.createdAt.unixNanos < now.unixNanos + windowNanos := by
  revert checked
  fun_cases checkReplayWindow <;> rintro ⟨⟩
  · next inside => simpa [insideReplayWindow] using inside

theorem unexpired_of_isExpiredAt {env : Envelope} (unexpired : env.isExpiredAt now = false)
    (ttl : Nat) (limited : env.ttlMs = some ttl) :
    now.unixNanos < env.createdAt.unixNanos + ttl * 1000000 := by
  simpa [Envelope.isExpiredAt, Envelope.expiryUnixNanos, limited] using unexpired

theorem refusalAt_eq_none {d : HandOffDeadline} (inTime : d.refusalAt now = none) :
    now.unixNanos < d.unixNanos := by
  revert inTime
  fun_cases refusalAt <;> rintro ⟨⟩
  · next before => simpa [passedAt] using before

variable [Libraries]

/-- Everything that has been checked about a copy whose hand-off call is made. -/
structure Gated (limits : EnvelopeLimits) (octets : List UInt8) (engine : AuthorizationEngine) (store : Inner)
    (target : SessionId → Option DeliveryTarget) (readings : Readings) (msg : ChannelMessage) : Prop where
  wellFormed : msg.envelope.WellFormed limits octets
  unexpired : ∀ ttl, msg.envelope.ttlMs = some ttl →
    readings.arrival.unixNanos < msg.envelope.createdAt.unixNanos + ttl * 1000000
  authentic : ∃ entry, SignedUnder .envelope engine.trusted msg.envelope.wire entry ∧
    msg.verifiedBy = some entry.securityPrincipal
  afterWindowStart : readings.window.unixNanos - windowNanos < msg.envelope.createdAt.unixNanos
  beforeWindowEnd : msg.envelope.createdAt.unixNanos < readings.window.unixNanos + windowNanos
  permitted : ∃ q basis, AuthorizationRequest.ofMessage msg = some (.deliver q) ∧
    engine.evaluate (.deliver q) readings.authorization = .permit basis ∧
    engine.DeliverBasis q readings.authorization basis ∧
    (engine.bindings.lookup q.fromSession = none ∨
      engine.bindings.lookup q.fromSession = some (.key q.verifyingKey))
  fresh : ∃ key, DuplicateKey.of msg = some key ∧ (store.evict readings.admission.unixNanos).entry key = none
  accepted : ∃ t, target msg.envelope.toSession = some t ∧ t.accepting = true ∧ t.activeInbound = true ∧
    (∀ part ∈ msg.envelope.content, part.partType = "text" ∨ part.partType ∈ t.contentTypes) ∧
    ∀ most, t.maxEnvelopeOctets = some most → msg.envelope.octets.length ≤ most
  beforeDeadline : readings.recheck.unixNanos < (of msg.envelope).unixNanos

theorem securitySteps_eq_ok (passed : (securitySteps msg engine window authorization).1 = .ok authorized) :
    ∃ entry, SignedUnder .envelope engine.trusted msg.envelope.wire entry ∧
      authorized.message = msg.verified entry.securityPrincipal ∧
      checkReplayWindow authorized.message window = .ok () ∧
      (engine.authorizeDelivery authorized.message authorization).1 = .ok authorized := by
  unfold securitySteps at passed
  split at passed
  · cases passed
  · next verified authenticated =>
    obtain ⟨entry, authentic, rfl⟩ := authenticate_eq_ok authenticated
    split at passed
    · cases passed
    · next inWindow =>
      split at passed
      · next decided =>
        cases passed
        have answer : (engine.authorizeDelivery (msg.verified entry.securityPrincipal) authorization).1 =
            .ok authorized := congrArg Prod.fst decided
        obtain ⟨-, -, -, same, -⟩ := AuthorizationEngine.authorizeDelivery_eq_ok answer
        exact ⟨entry, authentic, same, same ▸ inWindow, same ▸ answer⟩
      · cases passed

/-- The receive pipeline makes the hand-off call at most once and only for a copy that passed every
check, and the store then holds a new entry for the copy exactly when it was taken. -/
theorem receive_gate (envelopeLimits : EnvelopeLimits) (limits : StoreLimits) (octets : List UInt8)
    (engine : AuthorizationEngine) (store : Inner) (target : SessionId → Option DeliveryTarget)
    (readings : Readings) (handOff : ChannelMessage → HandOffOutcome) :
    let run := receiveOctets envelopeLimits limits octets engine store target readings handOff
    run.calls.length ≤ 1 ∧
      (∀ msg ∈ run.calls, Gated envelopeLimits octets engine store target readings msg) ∧
      StoreLeft store readings handOff run := by
  unfold receiveOctets
  cases arrived : receiveEnvelope octets envelopeLimits readings.arrival with
  | error rejection =>
    refine ⟨Nat.zero_le _, fun _ called => ?_, .untouched rfl rfl⟩
    cases called
  | ok msg =>
    obtain ⟨wellFormed, unexpired, -⟩ := receiveEnvelope_eq_ok arrived
    dsimp only
    unfold receive
    cases stepped : securitySteps msg engine readings.window readings.authorization with
    | mk answer after =>
    cases answer with
    | error refused =>
      refine ⟨Nat.zero_le _, fun _ called => ?_, .untouched rfl rfl⟩
      cases called
    | ok authorized =>
      obtain ⟨entry, authentic, same, inWindow, permitted⟩ := securitySteps_eq_ok (congrArg Prod.fst stepped)
      obtain ⟨verifier, basis, signed, -, permits, found⟩ :=
        AuthorizationEngine.authorizeDelivery_eq_ok permitted
      obtain ⟨unclaimed, based⟩ := AuthorizationEngine.deliver_eq_some found
      have keyed : DuplicateKey.of authorized.message =
          some ⟨verifier.keyId.text, authorized.message.envelope.security.nonce⟩ := by
        simp [DuplicateKey.of, signed]
      have sameEnvelope : authorized.message.envelope = msg.envelope := by rw [same]; rfl
      dsimp only [redeliver, deliverUnrecorded]
      rcases deliver_spec limits store target readings.admission readings.recheck handOff keyed with
        ⟨silent, left⟩ | ⟨called, fresh, checked, inTime, left⟩
      · refine ⟨by simp [silent], fun m called => ?_, .evicted silent left⟩
        rw [silent] at called
        cases called
      · refine ⟨by simp [called], fun m mem => ?_, .settled authorized.message _ called keyed left⟩
        rw [called, mem_singleton] at mem
        subst mem
        obtain ⟨afterStart, beforeEnd⟩ := checkReplayWindow_eq_ok inWindow
        refine ⟨sameEnvelope ▸ wellFormed, sameEnvelope ▸ unexpired_of_isExpiredAt unexpired,
          ⟨entry, sameEnvelope ▸ authentic, by rw [same]; rfl⟩, afterStart, beforeEnd,
          ⟨_, basis, ?_, permits, based, unclaimed⟩, ⟨_, keyed, fresh⟩, deliveryChecks_eq_ok checked,
          refusalAt_eq_none inTime⟩
        simp [AuthorizationRequest.ofMessage, signed]

end Gate

section Sample

open AuthorizationEngine

def sampleEnvelopeOctets : List UInt8 :=
  let text := "\x7b\"version\":\"0.1\",\"id\":\"m1\",\"from\":\"".toList ++ replicate 25 '0' ++
    '1' :: "\",\"to\":\"".toList ++ replicate 25 '0' ++
    '2' :: "\",\"created_at\":\"1970-01-01T00:00:00Z\",\"content\":[\x7b\"type\":\"text\",".toList ++
    "\"text\":\"hello\"\x7d],\"security\":\x7b\"principal\":\"alice\",\"key_id\":\"".toList ++
    replicate 64 '0' ++ "\",\"nonce\":\"".toList ++ replicate 22 'A' ++
    "\",\"signature\":\"".toList ++ replicate 86 'A' ++ "\"\x7d\x7d".toList
  text.map fun c => c.toNat.toUInt8

def sampleGateEngine : AuthorizationEngine :=
  (sampleOps ++ [Op.addGrant (.inbound ⟨sampleOwnKey, none⟩ .device) fun _ => .ok ()]).foldl
    (@after sampleLibraries) (new sampleOwn)

end Sample

end Oac
