import Oac.Envelope
import Oac.Foundation.Results
import Oac.IdsProofs

/-! What envelope-stage validation accepts is a well-formed envelope: every member has its form, and
the accepted envelope says what the octets say. Every well-formed envelope is accepted until it
expires. -/

namespace Oac

open Results JsonObject Json ContentPart Timestamp Option

theorem okOr_eq_ok : okOr value error = .ok a ↔ value = some a := by
  cases value <;> simp [okOr]

def ContentPart.ReadFrom (element : Json) : ContentPart → Prop
  | .text content wire => element = .object wire ∧ get wire "type" = some (.string "text") ∧
      get wire "text" = some (.string content) ∧ content ≠ ""
  | .other named wire => element = .object wire ∧
      get wire "type" = some (.string named) ∧ named ≠ "text"

/-- The `security` member has exactly the four members, all strings. -/
structure SecurityMetadata.ReadFrom (o : JsonObject) (security : SecurityMetadata)
    (sec : JsonObject) : Prop where
  member : o.get "security" = some (.object sec)
  principal : sec.get "principal" = some (.string security.principal)
  keyId : sec.get "key_id" = some (.string security.keyId)
  nonce : sec.get "nonce" = some (.string security.nonce)
  signature : sec.get "signature" = some (.string security.signature)
  only : ∀ name ∈ sec.names, name ∈ securityMembers

/-- `octets` are an envelope within the limits, and `env` is what they say. -/
structure Envelope.WellFormed (limits : EnvelopeLimits) (octets : List UInt8) (env : Envelope) : Prop where
  size : octets.length ≤ limits.maxEnvelopeOctets
  kept : env.octets = octets
  json : parse octets = .ok (.object env.wire)
  noNull : ∀ m ∈ env.wire, m.2.containsNull = false
  version : ∃ text, env.wire.get "version" = some (.string text) ∧ Version.parse text = some env.version
  major : env.version.major ∈ limits.supportedMajors
  id : env.wire.get "id" = some (.string env.id.text)
  fromSession : env.wire.get "from" = some (.string env.fromSession.text)
  toSession : env.wire.get "to" = some (.string env.toSession.text)
  conversationId : env.wire.get "conversation_id" = env.conversationId.map fun t => .string t.text
  replyTo : env.wire.get "reply_to" = env.replyTo.map fun t => .string t.text
  correlationId : env.wire.get "correlation_id" = env.correlationId.map fun t => .string t.text
  createdAt : env.wire.get "created_at" = some (.string env.createdAt.text)
  ttlMs : match env.wire.get "ttl_ms" with
    | none => env.ttlMs = none
    | some ttl => ∃ n, ttl = .number n ∧ env.ttlMs = n.plainIntegerIn 1 maxTtlMs ∧ env.ttlMs.isSome
  content : ∃ parts, env.wire.get "content" = some (.array parts) ∧ parts ≠ [] ∧
    List.Forall₂ ReadFrom parts env.content
  partTypes : ∀ part ∈ env.content, part.partType = "text" ∨ part.partType ∈ limits.partTypes
  security : ∃ sec, env.security.ReadFrom env.wire sec

section Members

variable {o : JsonObject} {name : String} {v : Json}

theorem asStr_eq_some : v.asStr = some s ↔ v = .string s := by
  cases v <;> simp [asStr]

theorem asObject_eq_some : v.asObject = some members ↔ v = .object members := by
  cases v <;> simp [asObject]

theorem asArray_eq_some : v.asArray = some items ↔ v = .array items := by
  cases v <;> simp [asArray]

theorem asNumber_eq_some : v.asNumber = some n ↔ v = .number n := by
  cases v <;> simp [asNumber]

theorem stringMember_eq_some {s : String} :
    (o.get name).bind asStr = some s ↔ o.get name = some (.string s) := by
  cases o.get name <;> simp [asStr_eq_some]

theorem Token.parse_eq_some : Token.parse s = some t ↔ t.text = s := by
  unfold Token.parse
  constructor
  · intro parsed
    split at parsed
    · cases parsed
      rfl
    · cases parsed
  · rintro rfl
    rw [dif_pos t.valid]

theorem SessionId.parse_eq_some : SessionId.parse s = some t ↔ t.text = s := by
  unfold SessionId.parse
  constructor
  · intro parsed
    split at parsed
    · cases parsed
      rfl
    · cases parsed
  · rintro rfl
    rw [dif_pos t.valid]

theorem Timestamp.parse_text (parsed : parse s = some t) : t.text = s := by
  revert parsed
  fun_cases parse <;> rintro ⟨⟩
  rfl

theorem Timestamp.parse_text_self (t : Timestamp) : parse t.text = some t := by
  unfold parse
  split
  · next nanos valid =>
    have same : nanos = t.unixNanos := some.inj (valid.symm.trans t.valid)
    subst same
    rfl
  · next missing => cases missing.symm.trans t.valid

theorem tokenMember_eq_ok (read : tokenMember o name = .ok token) :
    o.get name = token.map fun t => .string t.text := by
  unfold tokenMember at read
  cases held : o.get name with
  | none =>
    rw [held] at read
    cases read
    rfl
  | some v =>
    rw [held] at read
    cases parsed : v.asStr.bind Token.parse with
    | none =>
      simp only [parsed, okOr] at read
      cases read
    | some t =>
      simp only [parsed, okOr] at read
      cases read
      obtain ⟨s, text, valid⟩ := bind_eq_some_iff.mp parsed
      rw [asStr_eq_some.mp text, ← Token.parse_eq_some.mp valid]
      rfl

theorem ttlMember_eq_ok (read : ttlMember o = .ok ttl) :
    match o.get "ttl_ms" with
    | none => ttl = none
    | some v => ∃ n, v = .number n ∧ ttl = n.plainIntegerIn 1 maxTtlMs ∧ ttl.isSome := by
  unfold ttlMember at read
  cases held : o.get "ttl_ms" with
  | none =>
    rw [held] at read
    cases read
    rfl
  | some v =>
    rw [held] at read
    cases parsed : v.asNumber.bind (·.plainIntegerIn 1 maxTtlMs) with
    | none =>
      simp only [parsed, okOr] at read
      cases read
    | some n =>
      simp only [parsed, okOr] at read
      cases read
      obtain ⟨number, isNumber, inRange⟩ := bind_eq_some_iff.mp parsed
      exact ⟨number, asNumber_eq_some.mp isNumber, inRange.symm, rfl⟩

theorem contentPart_eq_ok {element : Json} (read : contentPart element = .ok part) :
    part.ReadFrom element := by
  obtain ⟨wire, isObject, read⟩ := bind_eq_ok.mp read
  obtain ⟨partType, typed, read⟩ := bind_eq_ok.mp read
  have isObject := asObject_eq_some.mp (okOr_eq_ok.mp isObject)
  have typed := stringMember_eq_some.mp (okOr_eq_ok.mp typed)
  split at read
  · next isText =>
    obtain ⟨text, texted, read⟩ := bind_eq_ok.mp read
    obtain ⟨texted, nonempty⟩ := filter_eq_some_iff.mp (okOr_eq_ok.mp texted)
    cases read
    exact ⟨isObject, isText ▸ typed, stringMember_eq_some.mp texted, by simpa using nonempty⟩
  · next other =>
    cases read
    exact ⟨isObject, typed, other⟩

theorem contentParts_eq_ok (read : elements.mapM contentPart = .ok parts) :
    List.Forall₂ ReadFrom elements parts := by
  induction elements generalizing parts with
  | nil =>
    cases read
    exact .nil
  | cons element rest ih =>
    rw [List.mapM_cons] at read
    obtain ⟨part, first, read⟩ := bind_eq_ok.mp read
    obtain ⟨others, later, read⟩ := bind_eq_ok.mp read
    cases read
    exact .cons (contentPart_eq_ok first) (ih later)

theorem securityMember_eq_ok {security : SecurityMetadata}
    (read : securityMember o = .ok security) : ∃ sec, security.ReadFrom o sec := by
  obtain ⟨sec, isObject, read⟩ := bind_eq_ok.mp read
  obtain ⟨v, member, isObject⟩ := bind_eq_some_iff.mp (okOr_eq_ok.mp isObject)
  rw [asObject_eq_some.mp isObject] at member
  split at read
  · cases read
  · obtain ⟨principal, first, read⟩ := bind_eq_ok.mp read
    obtain ⟨keyId, second, read⟩ := bind_eq_ok.mp read
    obtain ⟨nonce, third, read⟩ := bind_eq_ok.mp read
    obtain ⟨signature, fourth, read⟩ := bind_eq_ok.mp read
    split at read
    · cases read
    · next known =>
      cases read
      have text : ∀ {m s}, okOr ((sec.get m).bind asStr) (malformed "SC-ENV-072") = .ok s →
          sec.get m = some (.string s) := fun read => stringMember_eq_some.mp (okOr_eq_ok.mp read)
      refine ⟨sec, member, text first, text second, text third, text fourth, fun name listed => ?_⟩
      have every : ∀ n ∈ sec.names, n ∈ securityMembers := by simpa using known
      exact every name listed

end Members

theorem envelopeStructure_eq_ok (read : envelopeStructure octets o version = .ok env) :
    env.octets = octets ∧ env.wire = o ∧ env.version = version ∧
      (∀ m ∈ o, m.2.containsNull = false) ∧
      o.get "id" = some (.string env.id.text) ∧
      o.get "from" = some (.string env.fromSession.text) ∧
      o.get "to" = some (.string env.toSession.text) ∧
      o.get "conversation_id" = env.conversationId.map (fun t => .string t.text) ∧
      o.get "reply_to" = env.replyTo.map (fun t => .string t.text) ∧
      o.get "correlation_id" = env.correlationId.map (fun t => .string t.text) ∧
      o.get "created_at" = some (.string env.createdAt.text) ∧
      ttlMember o = .ok env.ttlMs ∧
      (∃ parts, o.get "content" = some (.array parts) ∧ parts ≠ [] ∧ List.Forall₂ ReadFrom parts env.content) ∧
      ∃ sec, env.security.ReadFrom o sec := by
  unfold envelopeStructure at read
  split at read
  · cases read
  next noNull =>
  obtain ⟨-, -, read⟩ := bind_eq_ok.mp read
  obtain ⟨idMember, idRead, read⟩ := bind_eq_ok.mp read
  obtain ⟨id, idHeld, read⟩ := bind_eq_ok.mp read
  obtain ⟨fromMember, fromRead, read⟩ := bind_eq_ok.mp read
  obtain ⟨fromToken, fromHeld, read⟩ := bind_eq_ok.mp read
  obtain ⟨toMember, toRead, read⟩ := bind_eq_ok.mp read
  obtain ⟨toToken, toHeld, read⟩ := bind_eq_ok.mp read
  obtain ⟨conversationId, conversationRead, read⟩ := bind_eq_ok.mp read
  obtain ⟨replyTo, replyRead, read⟩ := bind_eq_ok.mp read
  obtain ⟨correlationId, correlationRead, read⟩ := bind_eq_ok.mp read
  obtain ⟨fromSession, fromParsed, read⟩ := bind_eq_ok.mp read
  obtain ⟨toSession, toParsed, read⟩ := bind_eq_ok.mp read
  obtain ⟨createdAt, createdRead, read⟩ := bind_eq_ok.mp read
  obtain ⟨ttlMs, ttlRead, read⟩ := bind_eq_ok.mp read
  obtain ⟨parts, contentRead, read⟩ := bind_eq_ok.mp read
  obtain ⟨content, partsRead, read⟩ := bind_eq_ok.mp read
  obtain ⟨security, securityRead, read⟩ := bind_eq_ok.mp read
  cases read
  obtain ⟨created, createdText, createdParsed⟩ := bind_eq_some_iff.mp (okOr_eq_ok.mp createdRead)
  obtain ⟨contentMember, nonempty⟩ := filter_eq_some_iff.mp (okOr_eq_ok.mp contentRead)
  obtain ⟨array, contentHeld, isArray⟩ := bind_eq_some_iff.mp contentMember
  refine ⟨rfl, rfl, rfl, ?_, ?_, ?_, ?_, tokenMember_eq_ok conversationRead, tokenMember_eq_ok replyRead,
    tokenMember_eq_ok correlationRead, ?_, ttlRead, ⟨parts, ?_, ?_, contentParts_eq_ok partsRead⟩,
    securityMember_eq_ok securityRead⟩
  · simpa using noNull
  · rw [tokenMember_eq_ok idRead, okOr_eq_ok.mp idHeld]
    rfl
  · rw [tokenMember_eq_ok fromRead, okOr_eq_ok.mp fromHeld,
      SessionId.parse_eq_some.mp (okOr_eq_ok.mp fromParsed)]
    rfl
  · rw [tokenMember_eq_ok toRead, okOr_eq_ok.mp toHeld, SessionId.parse_eq_some.mp (okOr_eq_ok.mp toParsed)]
    rfl
  · rw [stringMember_eq_some.mp createdText, parse_text createdParsed]
  · rw [contentHeld, asArray_eq_some.mp isArray]
  · rintro rfl
    simp at nonempty

/-- Only well-formed envelopes within the limits, not expired at `now`, are accepted. -/
theorem receiveEnvelope_eq_ok (received : receiveEnvelope octets limits now = .ok msg) :
    msg.envelope.WellFormed limits octets ∧ msg.envelope.isExpiredAt now = false ∧ msg.verifiedBy = none := by
  unfold receiveEnvelope at received
  split at received
  · cases received
  next fits =>
  obtain ⟨v, parsed, received⟩ := bind_eq_ok.mp received
  obtain ⟨o, isObject, received⟩ := bind_eq_ok.mp received
  obtain ⟨version, versionRead, received⟩ := bind_eq_ok.mp received
  split at received
  · cases received
  next supported =>
  obtain ⟨env, structured, received⟩ := bind_eq_ok.mp received
  split at received
  · cases received
  next partTypes =>
  split at received
  · cases received
  next unexpired =>
  cases received
  obtain ⟨kept, wire, sameVersion, noNull, id, fromSession, toSession, conversationId,
    replyTo, correlationId, createdAt, ttl, content, security⟩ := envelopeStructure_eq_ok structured
  obtain ⟨text, versionText, versionParsed⟩ := bind_eq_some_iff.mp (okOr_eq_ok.mp versionRead)
  subst wire
  refine ⟨⟨Nat.le_of_not_lt fits, kept, ?_, noNull, ⟨text, stringMember_eq_some.mp versionText, ?_⟩, ?_, id,
    fromSession, toSession, conversationId, replyTo, correlationId, createdAt, ttlMember_eq_ok ttl, content,
    ?_, security⟩, by simpa using unexpired, rfl⟩
  · rw [← asObject_eq_some.mp (okOr_eq_ok.mp isObject)]
    exact mapError_eq_ok.mp parsed
  · rw [versionParsed, sameVersion]
  · rw [sameVersion]
    simpa using supported
  · simpa [or_iff_not_imp_left] using partTypes

section Accepting

variable {o : JsonObject} {name : String}

theorem tokenMember_of_get (held : o.get name = token.map fun t => .string t.text) :
    tokenMember o name = .ok token := by
  unfold tokenMember
  cases token with
  | none => rw [held, map_none]
  | some t =>
    rw [held, map_some]
    simp only [asStr, bind_some, Token.parse_eq_some.mpr rfl]
    rfl

theorem ttlMember_of_get (held : match o.get "ttl_ms" with
      | none => ttl = none
      | some v => ∃ n, v = .number n ∧ ttl = n.plainIntegerIn 1 maxTtlMs ∧ ttl.isSome) :
    ttlMember o = .ok ttl := by
  unfold ttlMember
  cases member : o.get "ttl_ms" with
  | none =>
    rw [member] at held
    rw [held]
  | some v =>
    rw [member] at held
    obtain ⟨n, rfl, read, present⟩ := held
    obtain ⟨t, rfl⟩ := isSome_iff_exists.mp present
    simp only [asNumber, bind_some, ← read]
    rfl

theorem contentPart_of_readFrom (held : part.ReadFrom element) : contentPart element = .ok part := by
  unfold contentPart
  cases part with
  | text content wire =>
    obtain ⟨rfl, typed, texted, nonempty⟩ := held
    simp only [asObject, okOr, bind, Except.bind, typed, bind_some, asStr, if_true, texted]
    rw [filter_some, if_pos (by simpa using nonempty)]
    rfl
  | other named wire =>
    obtain ⟨rfl, typed, notText⟩ := held
    simp only [asObject, okOr, bind, Except.bind, typed, bind_some, asStr, if_neg notText]
    rfl

theorem securityMember_of_readFrom (held : security.ReadFrom o sec) : securityMember o = .ok security := by
  have present : (securityMembers.any fun m => !sec.contains m) = false := by
    simp [securityMembers, contains, held.principal, held.keyId, held.nonce, held.signature]
  have known : (sec.names.any fun n => !securityMembers.contains n) = false := by
    simpa using held.only
  unfold securityMember
  simp only [held.member, bind_some, asObject, okOr, bind, Except.bind, present, Bool.false_eq_true,
    if_false, held.principal, held.keyId, held.nonce, held.signature, asStr, known]
  rfl

variable {octets : List UInt8}

theorem Envelope.WellFormed.structured (formed : env.WellFormed limits octets) :
    envelopeStructure octets env.wire env.version = .ok env := by
  obtain ⟨parts, contentHeld, nonempty, each⟩ := formed.content
  obtain ⟨sec, security⟩ := formed.security
  have noNull : (env.wire.any fun m => m.2.containsNull) = false := by
    simpa using formed.noNull
  have required : checkRequired env.wire = .ok () := by
    have found : (requiredMembers.find? fun m => !env.wire.contains m.1) = none := by
      simp [requiredMembers, contains, formed.id, formed.fromSession, formed.toSession,
        formed.createdAt, contentHeld, security.member]
    unfold checkRequired
    rw [found]
  have idRead : tokenMember env.wire "id" = .ok (some env.id) := tokenMember_of_get formed.id
  have fromRead : tokenMember env.wire "from" = .ok (some env.fromSession.toToken) :=
    tokenMember_of_get formed.fromSession
  have toRead : tokenMember env.wire "to" = .ok (some env.toSession.toToken) :=
    tokenMember_of_get formed.toSession
  have createdRead : ((env.wire.get "created_at").bind asStr).bind parse = some env.createdAt := by
    rw [stringMember_eq_some.mpr formed.createdAt]
    exact parse_text_self env.createdAt
  have contentRead : ((env.wire.get "content").bind asArray).filter (!·.isEmpty) = some parts := by
    rw [contentHeld]
    simp [asArray, nonempty]
  have partsRead : parts.mapM contentPart = .ok env.content :=
    mapM_eq_ok.mpr (each.imp fun _ _ => contentPart_of_readFrom)
  have fromParsed : SessionId.parse env.fromSession.toToken.text = some env.fromSession :=
    SessionId.parse_eq_some.mpr rfl
  have toParsed : SessionId.parse env.toSession.toToken.text = some env.toSession :=
    SessionId.parse_eq_some.mpr rfl
  unfold envelopeStructure
  rw [if_neg (by rw [noNull]; decide), required, idRead, fromRead, toRead,
    tokenMember_of_get formed.conversationId, tokenMember_of_get formed.replyTo,
    tokenMember_of_get formed.correlationId, createdRead, ttlMember_of_get formed.ttlMs, contentRead,
    securityMember_of_readFrom security]
  simp only [bind, Except.bind, okOr, fromParsed, toParsed, partsRead]
  rw [← formed.kept]
  rfl

/-- What other limits say to octets that are an envelope within some limits. -/
theorem Envelope.WellFormed.receive_eq {env : Envelope} (formed : env.WellFormed within octets)
    (limits : EnvelopeLimits) (now : Timestamp) : receiveEnvelope octets limits now =
      if octets.length > limits.maxEnvelopeOctets then .error (rejected .envelopeTooLarge "SC-RCP-076")
      else if !limits.supportedMajors.contains env.version.major then
        .error (rejected .unsupportedVersion "SC-VER-001")
      else if env.content.any fun part =>
          part.partType != "text" && !limits.partTypes.contains part.partType then
        .error (rejected .unsupportedContentType "SC-ENV-065")
      else if env.isExpiredAt now then .error ⟨.expired, .expired, "SC-ENV-100"⟩
      else .ok ⟨env, none⟩ := by
  obtain ⟨text, versionHeld, versionParsed⟩ := formed.version
  have versionRead : ((env.wire.get "version").bind asStr).bind Version.parse = some env.version := by
    rw [stringMember_eq_some.mpr versionHeld]
    exact versionParsed
  unfold receiveEnvelope
  rw [formed.json]
  simp only [Except.mapError, bind, Except.bind, asObject, okOr, versionRead, formed.structured]
  rfl

theorem Envelope.WellFormed.received (formed : env.WellFormed limits octets)
    (unexpired : env.isExpiredAt now = false) : receiveEnvelope octets limits now = .ok ⟨env, none⟩ := by
  have supported : limits.supportedMajors.contains env.version.major = true := by
    simpa using formed.major
  have supportedTypes : (env.content.any fun part =>
      part.partType != "text" && !limits.partTypes.contains part.partType) = false := by
    simpa [or_iff_not_imp_left] using formed.partTypes
  rw [formed.receive_eq, if_neg (Nat.not_lt.mpr formed.size), supported, supportedTypes, unexpired]
  rfl

end Accepting

section Refusing

open Results

variable {P : EnvelopeRejection → Prop} (refused : ∀ requirement, P (malformed requirement))

include refused

theorem required_fails (value : Option α) (requirement : String) :
    FailsOnly P (okOr value (malformed requirement)) := by
  cases value with
  | none => exact .error (refused requirement)
  | some a => exact .ok a

theorem tokenMember_fails (o : JsonObject) (name : String) : FailsOnly P (tokenMember o name) := by
  unfold tokenMember
  split
  · exact .ok none
  · exact (required_fails refused _ _).map some

theorem ttlMember_fails (o : JsonObject) : FailsOnly P (ttlMember o) := by
  unfold ttlMember
  split
  · exact .ok none
  · exact (required_fails refused _ _).map some

theorem contentPart_fails (v : Json) : FailsOnly P (contentPart v) := by
  refine (required_fails refused _ _).bind fun p =>
    (required_fails refused _ _).bind fun partType => .ite ?_ (.ok _)
  exact (required_fails refused _ _).bind fun text => .ok _

theorem securityMember_fails (o : JsonObject) : FailsOnly P (securityMember o) := by
  have required {α : Type} (value : Option α) (requirement : String) :
      FailsOnly P (okOr value (malformed requirement)) := required_fails refused value requirement
  refine (required _ _).bind fun sec => .ite (.error (refused _)) ?_
  refine (required _ _).bind fun principal => (required _ _).bind fun keyId =>
    (required _ _).bind fun nonce => ?_
  exact (required _ _).bind fun signature => .ite (.error (refused _)) (.ok _)

theorem envelopeStructure_fails (octets : List UInt8) (o : JsonObject) (version : Version) :
    FailsOnly P (envelopeStructure octets o version) := by
  have required {α : Type} (value : Option α) (requirement : String) :
      FailsOnly P (okOr value (malformed requirement)) := required_fails refused value requirement
  have token := tokenMember_fails refused o
  refine .ite (.error (refused _)) (.bind ?_ fun _ => ?_)
  · unfold checkRequired
    split
    · exact .error (refused _)
    · exact .ok ()
  refine (token "id").bind fun _ => (required _ _).bind fun id => ?_
  refine (token "from").bind fun _ => (required _ _).bind fun fromToken => ?_
  refine (token "to").bind fun _ => (required _ _).bind fun toToken => ?_
  refine (token _).bind fun _ => (token _).bind fun _ => (token _).bind fun _ => ?_
  refine (required _ _).bind fun _ => (required _ _).bind fun _ => (required _ _).bind fun _ => ?_
  refine (ttlMember_fails refused o).bind fun _ => (required _ _).bind fun parts => ?_
  exact (FailsOnly.mapM (contentPart_fails refused) parts).bind fun _ =>
    (securityMember_fails refused o).bind fun _ => .ok _

end Refusing

end Oac
