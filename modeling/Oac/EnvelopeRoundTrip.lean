import Oac.DraftProofs
import Oac.SigningProofs

/-! The round trip of an envelope: what a device seals, a receiver reads back whole, with the
signing input that was signed, and authenticates under any key set that holds the device's key. A
draft is sealed when all numbers of its content are within the range of doubles; for any other the
source panics. -/

namespace Oac

open Libraries Base64url SigningDevice

section Sealed

variable [Libraries]

/-- What is assumed of the signature scheme: the signatures a device makes are in reduced form and
verify under its public key. -/
structure SigningDevice.Sound (own : SigningDevice) : Prop where
  reduced : ∀ message, scalarIsReduced ((own.sign message).octets.drop 32) = true
  verifies : ∀ message, verifyStrict own.entry.publicKey message (own.sign message).octets = true

/-- Limits that cover an envelope: its size, its major version and its part types. -/
structure EnvelopeLimits.Covers (limits : EnvelopeLimits) (env : Envelope) : Prop where
  size : env.octets.length ≤ limits.maxEnvelopeOctets
  major : env.version.major ∈ limits.supportedMajors
  types : ∀ p ∈ env.content, p.partType = "text" ∨ p.partType ∈ limits.partTypes

theorem SigningDevice.signEnvelope_eq_some {own : SigningDevice}
    (signed : own.signEnvelope draft nonce = some env) :
    ∃ input, draft.signingInput own.securityPrincipal nonce = .ok input ∧
      env = draft.sealed own.securityPrincipal nonce (own.sign input) := by
  unfold signEnvelope at signed
  cases made : draft.signingInput own.securityPrincipal nonce with
  | error e =>
    rw [made] at signed
    cases signed
  | ok input =>
    rw [made] at signed
    cases signed
    exact ⟨input, rfl, rfl⟩

theorem SigningDevice.signEnvelope_exists_iff (writers : TotalWriters) (own : SigningDevice)
    (draft : EnvelopeDraft) (nonce : Nonce) : (∃ env, own.signEnvelope draft nonce = some env) ↔
      ∀ p ∈ draft.content, EachNumber FiniteNumber (.object p.wire) := by
  rw [← EnvelopeDraft.signingInput_exists_iff writers, signEnvelope]
  cases draft.signingInput own.securityPrincipal nonce <;> simp

namespace EnvelopeDraft

variable {draft : EnvelopeDraft} {signer : SecurityPrincipal} {nonce : Nonce}
  {signature : Signature}

theorem verify_sealed (made : draft.signingInput signer nonce = .ok input)
    (reduced : scalarIsReduced (signature.octets.drop 32) = true) :
    verifyWithRequirement keys .envelope (draft.sealed signer nonce signature).wire =
      match keys.resolve signer.principal.text signer.keyId.text with
      | none => .error (.unknownKey, "SEC-KEY-030")
      | some entry =>
        if verifyStrict entry.publicKey input signature.octets then .ok entry
        else .error (.signatureInvalid, "SEC-SIG-024") := by
  have security : (draft.sealed signer nonce signature).wire.get "security" =
      some (.object (sealedSecurity signer nonce signature)) :=
    (draft.wire_get (sealedSecurity signer nonce signature)).2.2.2.2.2.2.2.2.2.2
  have four : (sealedSecurity signer nonce signature).length = (securityMembersOf .envelope).length := rfl
  have present : ((securityMembersOf .envelope).any fun m =>
    !(sealedSecurity signer nonce signature).contains m) = false :=
    rfl
  have nonceRead : decodeExact 16 nonce.text = some nonce.octets := decodeExact_encode nonce.length
  have signatureRead : decodeExact 64 signature.text = some signature.octets :=
    decodeExact_encode signature.length
  have signed : Oac.signingInput .envelope (draft.sealed signer nonce signature).wire = .ok input :=
    sealed_signingInput.trans made
  have principalRead : (sealedSecurity signer nonce signature).get "principal" =
    some (.string signer.principal.text) := rfl
  have keyRead : (sealedSecurity signer nonce signature).get "key_id" = some (.string signer.keyId.text) := rfl
  have nonceHeld : (sealedSecurity signer nonce signature).get "nonce" = some (.string nonce.text) := rfl
  have signatureHeld : (sealedSecurity signer nonce signature).get "signature" =
    some (.string signature.text) := rfl
  unfold verifyWithRequirement
  simp only [security, Option.bind_some, Json.asObject, okOr, bind, Except.bind,
    four, present, principalRead, keyRead, nonceHeld, signatureHeld, Json.asStr, Except.map]
  cases keys.resolve signer.principal.text signer.keyId.text with
  | none => simp
  | some entry =>
    cases verified : verifyStrict entry.publicKey input signature.octets <;>
      simp [nonceRead, signatureRead, signed, reduced, Except.mapError, verified]

theorem authenticate_sealed (made : draft.signingInput signer nonce = .ok input)
    (reduced : scalarIsReduced (signature.octets.drop 32) = true)
    (refused : authenticate ⟨draft.sealed signer nonce signature, none⟩ keys = .error rejection) :
    rejection.error ≠ .malformedEnvelope := by
  unfold authenticate at refused
  rw [verify_sealed made reduced] at refused
  cases resolved : keys.resolve signer.principal.text signer.keyId.text with
  | none =>
    rw [resolved] at refused
    cases refused
    decide
  | some entry =>
    rw [resolved] at refused
    cases verified : verifyStrict entry.publicKey input signature.octets with
    | true =>
      simp only [verified, if_true] at refused
      cases refused
    | false =>
      simp only [verified, Bool.false_eq_true, if_false] at refused
      cases refused
      decide

end EnvelopeDraft

/-- A device seals exactly the drafts whose numbers are all finite. What it seals is read back whole
within limits that cover it and before it expires, has the signing input that was signed, and is
authenticated under every key set that holds the device's key. -/
theorem sealed_envelope_read_back (writers : TotalWriters) {own : SigningDevice} (sound : own.Sound)
    (draft : EnvelopeDraft) (parts : ∀ p ∈ draft.content, p.Sendable) (major : draft.version.major < 10 ^ 4)
    (minor : draft.version.minor < 10 ^ 4) (nonce : Nonce) :
    ((∃ env, own.signEnvelope draft nonce = some env) ↔
      ∀ p ∈ draft.content, EachNumber FiniteNumber (.object p.wire)) ∧
    ∀ env, own.signEnvelope draft nonce = some env → ∀ limits : EnvelopeLimits, limits.Covers env →
      ∀ now, env.isExpiredAt now = false →
      ∃ msg, receiveEnvelope env.octets limits now = .ok msg ∧ msg.envelope = env ∧
        (∃ input, draft.signingInput own.securityPrincipal nonce = .ok input ∧
          signingInput .envelope msg.envelope.wire = .ok input ∧ signingInput .envelope env.wire = .ok input ∧
          env.security.signature = (own.sign input).text) ∧
        (∀ keys : TrustedKeySet, keys.lookup own.keyId = some own.entry →
          authenticate msg keys = .ok (msg.verified own.securityPrincipal)) ∧
        ∀ (keys : TrustedKeySet) rejection, authenticate msg keys = .error rejection →
          rejection.error ≠ .malformedEnvelope := by
  refine ⟨own.signEnvelope_exists_iff writers draft nonce, fun env signed limits covers now unexpired => ?_⟩
  obtain ⟨input, made, rfl⟩ := signEnvelope_eq_some signed
  have formed := EnvelopeDraft.sealed_wellFormed (fun p held => (parts p held).writable)
    major minor covers.size covers.major covers.types
  have kept : signingInput .envelope
    (draft.sealed own.securityPrincipal nonce (own.sign input)).wire = .ok input :=
    EnvelopeDraft.sealed_signingInput.trans made
  refine ⟨_, formed.received unexpired, rfl, ⟨input, made, kept, kept, rfl⟩,
    fun keys held => ?_, fun keys rejection => ?_⟩
  · have resolved : keys.resolve own.securityPrincipal.principal.text
      own.securityPrincipal.keyId.text = some own.entry :=
      TrustedKeySet.resolve_of_lookup held
    unfold authenticate
    rw [EnvelopeDraft.verify_sealed made (sound.reduced input), resolved]
    simp only [sound.verifies input, if_true]
    rfl
  · exact EnvelopeDraft.authenticate_sealed made (sound.reduced input)

end Sealed

section Sample

attribute [local instance] exactLibraries

def sampleText : ContentPart := .text "hello" [("type", .string "text"), ("text", .string "hello")]

/-- A part of a type of its own that holds a number. -/
def sampleData (raw : String) : ContentPart :=
  .other "data" [("type", .string "data"), ("count", .number ⟨raw⟩)]

theorem sampleData_sendable (number : Json.Grammar.Number raw.toList) : (sampleData raw).Sendable := by
  have distinct : ["type", "count"].Nodup := by decide
  have ijson : isIjsonString "data".toList = true := by decide
  have formed : (Json.object (sampleData raw).wire).WellFormed :=
    ⟨distinct, by decide, ijson, by decide, number, trivial⟩
  refine .inr ⟨.object (sampleData raw).wire,
    ⟨⟨trivial, number, trivial⟩, distinct, trivial, trivial, trivial⟩, ?_⟩
  exact ContentPart.fromJson_other formed rfl rfl (by decide) (by decide +kernel)

def sampleDraft (content : List ContentPart) (some_ : content ≠ []) : EnvelopeDraft where
  version := implementedVersion
  id := ⟨"msg-1", by decide⟩
  fromSession := .fromRandomOctets 1
  toSession := .fromRandomOctets 2
  conversationId := none
  replyTo := none
  correlationId := none
  createdAt := .epoch
  ttlMs := none
  content := content
  hasContent := some_
  ttlRange := EnvelopeDraft.noTtl

def sampleContent : List ContentPart := [sampleText, sampleData "15"]

theorem sampleContent_parts : ∀ p ∈ sampleContent, p.Sendable :=
  List.forall_mem_cons.mpr ⟨.inl ⟨"hello", rfl⟩,
    List.forall_mem_singleton.mpr (sampleData_sendable (JsonNumber.fromU64_number 15))⟩

theorem sampleContent_finite : ∀ p ∈ sampleContent, EachNumber FiniteNumber (.object p.wire) :=
  List.forall_mem_cons.mpr ⟨⟨trivial, trivial, trivial⟩,
    List.forall_mem_singleton.mpr ⟨trivial, exactLibraries_total.integers 15 (by decide), trivial⟩⟩

def sampleDevice : SigningDevice where
  entry := .new sampleName (.replicate 0)
  sign _ := ⟨List.replicate 64 0, rfl⟩

theorem sampleDevice_sound : sampleDevice.Sound :=
  have reduced : scalarIsReduced ((List.replicate 64 0).drop 32) = true := by decide +kernel
  ⟨fun _ => reduced, fun _ => rfl⟩

def sampleNonce : Nonce := ⟨List.replicate 16 7, rfl⟩

theorem sealed_envelope_read_back_sample : ∃ env msg,
    sampleDevice.signEnvelope (sampleDraft sampleContent nofun) sampleNonce = some env ∧
      receiveEnvelope env.octets ⟨[0], env.octets.length, ["data"]⟩ .epoch = .ok msg ∧ msg.envelope = env ∧
      authenticate msg (TrustedKeySet.ofDevice sampleDevice.toDeviceIdentity) =
        .ok (msg.verified sampleDevice.securityPrincipal) := by
  obtain ⟨exists_, readBack⟩ := sealed_envelope_read_back exactLibraries_total sampleDevice_sound
    (sampleDraft sampleContent nofun) sampleContent_parts (by decide) (by decide) sampleNonce
  obtain ⟨env, signed⟩ := exists_.mpr sampleContent_finite
  obtain ⟨input, -, spelled⟩ := signEnvelope_eq_some signed
  have types : ∀ p ∈ sampleContent, p.partType = "text" ∨ p.partType ∈ ["data"] := by decide
  have covers : EnvelopeLimits.Covers ⟨[0], env.octets.length, ["data"]⟩ env := by
    refine ⟨Nat.le_refl _, ?_, ?_⟩ <;> rw [spelled]
    · exact List.mem_singleton.mpr rfl
    · exact types
  have unexpired : env.isExpiredAt .epoch = false := by
    rw [spelled]
    rfl
  obtain ⟨msg, received, same, -, accepted, -⟩ := readBack env signed _ covers .epoch unexpired
  exact ⟨env, msg, signed, received, same, accepted _ (AList.lookup_insert _)⟩

theorem sampleLarge_sendable : (sampleData "1e400").Sendable := by
  have digits : Json.Grammar.Digits "400".toList :=
    ⟨by decide, List.all_eq_true.mp (by decide : "400".toList.all Char.isDigit = true)⟩
  have one : Json.Grammar.Integer ['1'] := .digits (by decide) (by decide) nofun
  exact sampleData_sendable (.mk .absent one .absent (.bare (.inl rfl) digits))

/-- A part that `from_json` takes has a number beyond the doubles, and the draft that holds it
cannot be sealed. -/
theorem large_number_not_sealed : (sampleData "1e400").Sendable ∧ sampleDevice.Sound ∧
    sampleDevice.signEnvelope (sampleDraft [sampleData "1e400"] nofun) sampleNonce = none :=
  ⟨sampleLarge_sendable, sampleDevice_sound, Option.isNone_iff_eq_none.mp (by decide +kernel)⟩

end Sample

end Oac
