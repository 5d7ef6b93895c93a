import Oac.EnvelopeRoundTrip
import Oac.Sender.Prepare

/-! When the send stage ends in a prepared envelope or an error code. A content part may hold any
number of the JSON grammar, and one beyond the range of doubles makes the signing panic, unless an
earlier check refused the request. -/

namespace Oac

open ContentPart

/-- What the send decision passed before it asks for the envelope's size. -/
structure Answered (fromSession toSession : SessionId) (presence : PresenceAnswer)
    (implemented : List Implemented) (partTypes : List String) (agreed : Agreed) : Prop where
  answered : ∃ declaration, presence fromSession toSession = .ok declaration ∧
    declaration.agree implemented = some agreed
  active : agreed.entry.activeInbound = true
  types : ∀ t ∈ partTypes, agreed.entry.acceptsPartType t = true

/-- What the send decision passed. -/
structure Decided {β : Type} (fromSession toSession : SessionId) (presence : PresenceAnswer)
    (implemented : List Implemented) (partTypes : List String) (envelopeOctets : Version → Option (Nat × β))
    (agreed : Agreed) (built : β) :
    Prop extends Answered fromSession toSession presence implemented partTypes agreed where
  size : ∃ octets, envelopeOctets agreed.revision = some (octets, built) ∧ octets ≤ agreed.entry.envelopeOctets

variable {β : Type} {envelopeOctets : Version → Option (Nat × β)}

theorem Answered.checkSend
    (passed : Answered fromSession toSession presence implemented partTypes agreed) :
    checkSend (some fromSession) toSession presence implemented partTypes envelopeOctets =
      match envelopeOctets agreed.revision with
      | none => none
      | some (octets, built) =>
        if agreed.entry.envelopeOctets < octets then some (.error .envelopeTooLarge)
          else some (.ok (agreed, built)) := by
  obtain ⟨⟨declaration, answered, agreement⟩, active, types⟩ := passed
  simp only [Oac.checkSend, answered, agreement, active, List.all_eq_true.mpr types]
  rfl

theorem checkSend_answered
    (unrefused : ∀ code, checkSend (some fromSession) toSession presence implemented partTypes envelopeOctets ≠
      some (.error code)) : ∃ agreed, Answered fromSession toSession presence implemented partTypes agreed := by
  unfold checkSend at unrefused
  dsimp only at unrefused
  split at unrefused
  · exact absurd rfl (unrefused _)
  next declaration answered =>
  split at unrefused
  · exact absurd rfl (unrefused _)
  next agreed agreement =>
  split at unrefused
  · exact absurd rfl (unrefused _)
  next active =>
  split at unrefused
  · exact absurd rfl (unrefused _)
  next types =>
  exact ⟨agreed, ⟨declaration, answered, agreement⟩, by simpa using active, by simpa using types⟩

theorem checkSend_eq_ok {built : β}
    (decided : checkSend (some fromSession) toSession presence implemented partTypes
      envelopeOctets = some (.ok (agreed, built))) :
    Decided fromSession toSession presence implemented partTypes envelopeOctets agreed built := by
  obtain ⟨found, passed⟩ := checkSend_answered fun code refused => by cases decided.symm.trans refused
  rw [passed.checkSend] at decided
  split at decided
  · cases decided
  next octets _ measured =>
  split at decided
  · cases decided
  next fits =>
  cases decided
  exact ⟨passed, octets, measured, Nat.not_lt.mp fits⟩

section Stages

variable [Libraries]

/-- The envelope of a prepared send: signed from a draft that holds the request's content, under the
sender's own revision of the agreed version, and without a time to live. -/
structure Prepared (request : SendRequest) (own : SigningDevice) (nonce : Nonce) (fromSession : SessionId)
    (revision : Version) (env : Envelope) (draft : EnvelopeDraft) : Prop where
  signed : own.signEnvelope draft nonce = some env
  content : draft.content = request.content
  version : draft.version = revision
  fromSession : draft.fromSession = fromSession
  toSession : draft.toSession = request.toSession
  ttlMs : draft.ttlMs = none

variable {id : Token} {headers : ReplyHeaders}

theorem SendRequest.build_eq_some {env : Envelope}
    (built : request.build headers fromSession own nonce id createdAt version = some (octets, some env)) :
    octets = env.octets.length ∧ ∃ draft, Prepared request own nonce fromSession version env draft := by
  unfold build at built
  split at built
  · cases built
  next draft made =>
  unfold EnvelopeDraft.withParts at made
  split at made
  · cases made
    obtain ⟨env', signed, same⟩ := Option.map_eq_some_iff.mp built
    cases same
    obtain ⟨versionKept, fromKept, toKept, ttlKept⟩ := headers.apply_frame _
    exact ⟨rfl, _, signed, headers.apply_content _, versionKept, fromKept, toKept, ttlKept⟩
  · cases made

variable {request : SendRequest}

theorem SendRequest.build_eq_none (writers : TotalWriters)
    {own : SigningDevice} {nonce : Nonce} :
    request.build headers fromSession own nonce id createdAt version = none ↔
      ∃ p ∈ request.content, ¬ EachNumber FiniteNumber (.object p.wire) := by
  unfold build EnvelopeDraft.withParts
  split
  · next made =>
    split at made
    · cases made
    · next none_ => simp [not_not.mp none_]
  next draft made =>
  split at made
  · cases made
    rw [Option.map_eq_none_iff]
    generalize drafted : headers.apply _ = draft
    have content : draft.content = request.content := by
      rw [← drafted]
      exact headers.apply_content _
    have sealable := own.signEnvelope_exists_iff writers draft nonce
    rw [content] at sealable
    cases signed : own.signEnvelope draft nonce with
    | none => simpa [signed] using sealable
    | some env => simpa [signed] using sealable
  · cases made

/-- A send that was prepared passed the send decision on the very envelope it prepared. -/
theorem prepareSend_eq_ok
    (sent : prepareSend requester request presence implemented reply own nonce id createdAt =
      some (.ok prepared)) :
    ∃ fromSession headers, requester = some fromSession ∧
      request.headers reply = .ok (headers, prepared.correlation) ∧
      Decided fromSession request.toSession presence implemented (request.content.map partType)
        (request.build headers fromSession own nonce id createdAt) prepared.agreed (some prepared.envelope) := by
  unfold prepareSend at sent
  split at sent
  · cases sent
  next fromSession =>
  split at sent
  · cases sent
  split at sent
  · cases sent
  next headers correlation known =>
  split at sent
  · cases sent
  · cases sent
  · cases sent
  next agreed envelope decided =>
  cases sent
  exact ⟨fromSession, headers, rfl, known, checkSend_eq_ok decided⟩

/-- The send stage panics exactly on a request that passed every check before the envelope is built
and holds a number that is not finite. -/
theorem prepareSend_eq_none (writers : TotalWriters) :
    prepareSend requester request presence implemented reply own nonce id createdAt = none ↔
      (∃ fromSession agreed, requester = some fromSession ∧ (∃ headers, request.headers reply = .ok headers) ∧
        Answered fromSession request.toSession presence implemented (request.content.map partType) agreed) ∧
      ∃ p ∈ request.content, ¬ EachNumber FiniteNumber (.object p.wire) := by
  constructor
  · intro panics
    unfold prepareSend at panics
    split at panics
    · cases panics
    next fromSession =>
    split at panics
    · cases panics
    split at panics
    · cases panics
    next headers correlation known =>
    split at panics
    · next checked =>
      obtain ⟨agreed, passed⟩ := checkSend_answered fun code refused => by cases checked.symm.trans refused
      refine ⟨⟨fromSession, agreed, rfl, ⟨_, known⟩, passed⟩, ?_⟩
      rw [passed.checkSend] at checked
      split at checked
      · next unbuilt => exact (SendRequest.build_eq_none writers).mp unbuilt
      · split at checked <;> cases checked
    all_goals cases panics
  · rintro ⟨⟨fromSession, agreed, rfl, ⟨⟨headers, correlation⟩, known⟩, passed⟩, p, held, large⟩
    have nonempty : request.content.isEmpty = false := List.isEmpty_eq_false_iff.mpr (List.ne_nil_of_mem held)
    have unbuilt : request.build headers fromSession own nonce id createdAt agreed.revision = none :=
      (SendRequest.build_eq_none writers).mpr ⟨p, held, large⟩
    simp only [prepareSend, nonempty, known, passed.checkSend, unbuilt]
    rfl

/-- A draft has a signing input exactly when all numbers of its content are within the range of
doubles. The send stage ends in a prepared envelope or an error code, except on a request that
passes every check before the envelope is built and holds a number beyond that range. -/
theorem send_ends_on_finite_numbers (writers : TotalWriters) :
    (∀ (draft : EnvelopeDraft) (signer : SecurityPrincipal) (nonce : Nonce),
      (∃ input, draft.signingInput signer nonce = .ok input) ↔
        ∀ p ∈ draft.content, EachNumber FiniteNumber (.object p.wire)) ∧
    ∀ (requester : Option SessionId) (request : SendRequest) (presence : PresenceAnswer)
      (implemented : List Implemented) (reply : ReplyHeaders) (own : SigningDevice) (nonce : Nonce) (id : Token)
      (createdAt : Timestamp),
      (∃ result, prepareSend requester request presence implemented reply own nonce id createdAt = some result) ↔
        (∃ fromSession agreed, requester = some fromSession ∧ (∃ headers, request.headers reply = .ok headers) ∧
          Answered fromSession request.toSession presence implemented (request.content.map partType) agreed) →
        ∀ p ∈ request.content, EachNumber FiniteNumber (.object p.wire) := by
  refine ⟨fun draft signer nonce => EnvelopeDraft.signingInput_exists_iff writers, ?_⟩
  intro requester request presence implemented reply own nonce id createdAt
  rw [← Option.ne_none_iff_exists', ne_eq, prepareSend_eq_none writers]
  push Not
  rfl

end Stages

section Sample

attribute [local instance] exactLibraries

def sampleDeclaration : SessionCapabilities where
  wire := .object [(extensionIdV0, .object [("revision", .string "0.1"), ("active_inbound", .bool true),
    ("content_types", .array [.string "data"])])]

def sampleImplemented : List Implemented := [⟨extensionIdV0, 0, implementedVersion⟩]

def sampleRequest (content : List ContentPart) : SendRequest :=
  ⟨.fromRandomOctets 2, content, none, none, none⟩

theorem send_ends_on_finite_numbers_sample : ∃ result,
    prepareSend (some (.fromRandomOctets 1)) (sampleRequest sampleContent) (fun _ _ => .ok sampleDeclaration)
      sampleImplemented {} sampleDevice sampleNonce ⟨"msg-1", by decide⟩ .epoch = some result :=
  ((send_ends_on_finite_numbers exactLibraries_total).2 _ _ _ _ _ _ _ _ _).mpr fun _ => sampleContent_finite

/-- A harness may ask to send the part, and the signing of it panics. -/
theorem send_panics_on_large_number : (sampleData "1e400").Sendable ∧
    prepareSend (some (.fromRandomOctets 1)) (sampleRequest [sampleData "1e400"])
      (fun _ _ => .ok sampleDeclaration)
      sampleImplemented {} sampleDevice sampleNonce ⟨"msg-1", by decide⟩ .epoch = none :=
  ⟨sampleLarge_sendable, Option.isNone_iff_eq_none.mp (by decide +kernel)⟩

end Sample

end Oac
