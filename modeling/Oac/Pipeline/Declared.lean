import Oac.Pipeline.Core
import Oac.Presence.Issue
import Oac.Sender.PrepareProofs

/-! What a sender accepts against the declaration of a session, the session's own pipeline takes,
exactly where the pipeline's settings agree with what it declares: its envelope stage and its
delivery checks then refuse none of it for a size, a version, a part type or a missing capability.
The declaration follows the adapter's size limit and not the pipeline's, so the settings have to be
at least as wide. -/

namespace Oac

open PresenceRecord Json SigningDevice EnvelopeDraft List Option

/-- The settings of the envelope stage in a pipeline's configuration. -/
structure ReceiverConfig where
  limits : EnvelopeLimits
  implemented : List Implemented
  majors : limits.supportedMajors ≠ []
  floor : defaultMaxEnvelopeOctets ≤ limits.maxEnvelopeOctets
  ceiling : limits.maxEnvelopeOctets ≤ maxEnvelopeOctetsLimit
  known : ∀ t ∈ limits.partTypes, (isCoreType t || isExtensionType t) = true

def EnvelopeLimits.withPartTypes (limits : EnvelopeLimits) (types : List String) :
    Option EnvelopeLimits :=
  if !types.all fun t => isCoreType t || isExtensionType t then none
  else some { limits with partTypes := types }

namespace Core

/-- The part types besides `text` that the bound session `s` lists under the agreed version. -/
def listedTypes (c : Core) (implemented : List Implemented) (s : SessionId) : List String :=
  let agreed := (c.registry.ownDescriptor s).bind fun d => d.capabilities.agree implemented
  ((agreed.bind fun a => a.entry.contentTypes).getD []).filter (· != "text")

/-- The limits of the envelope stage: those configured, with the part types of every bound
session. -/
def receiverLimits (c : Core) (config : ReceiverConfig) : EnvelopeLimits :=
  let types := config.limits.partTypes ++ c.sessions.keys.flatMap (c.listedTypes config.implemented)
  -- On a sorted list `Vec::dedup` leaves each type once.
  (config.limits.withPartTypes types.mergeSort.dedup).getD config.limits

end Core

/-- The size that the declaration for `caps` states or leaves to the default. -/
def declaredOctets (caps : AdapterCapabilities) (limit : Option Nat) : Nat :=
  (declaredLimit caps.maxEnvelopeOctets limit).getD defaultMaxEnvelopeOctets

/-- A version the envelope stage can read. -/
def Version.Short (v : Version) : Prop := v.major < 10 ^ 4 ∧ v.minor < 10 ^ 4

/-- The settings agree with the declaration for `caps`, against a sender that agrees on
`revision`. -/
structure ReceiverConfig.Agrees (config : ReceiverConfig) (c : Core)
    (caps : AdapterCapabilities) (limit : Option Nat) (revision : Version) : Prop where
  size : declaredOctets caps limit ≤ config.limits.maxEnvelopeOctets
  major : revision.Short → revision.major ∈ config.limits.supportedMajors
  types : revision.Short → ∀ t ∈ caps.contentTypes, t ≠ "text" →
    t ∈ (c.receiverLimits config).partTypes

/-- An envelope of an unreadable version is malformed, whatever its type and major version, once its
size was taken. -/
def EnvelopeLimits.Fits (limits : EnvelopeLimits) (env : Envelope) : Prop :=
  env.octets.length ≤ limits.maxEnvelopeOctets ∧ (env.version.Short → limits.Covers env)

section Limits

variable {c : Core} {session : SessionId} {caps : AdapterCapabilities}
  {limit : Option Nat} {d : SessionDescriptor} {config : ReceiverConfig}

/-- Only the part types are widened for the bound sessions. -/
theorem receiverLimits_frame :
    (c.receiverLimits config).maxEnvelopeOctets = config.limits.maxEnvelopeOctets ∧
    (c.receiverLimits config).supportedMajors = config.limits.supportedMajors := by
  unfold Core.receiverLimits EnvelopeLimits.withPartTypes
  dsimp only
  split <;> exact ⟨rfl, rfl⟩

end Limits

section Sealed

variable {draft : EnvelopeDraft} {signer : SecurityPrincipal} {nonce : Nonce}
  {signature : Signature} {limits : EnvelopeLimits} (parts : ∀ p ∈ draft.content, p.Writable)

include parts

end Sealed

section Carried

variable {c : Core} {session : SessionId} {caps : AdapterCapabilities}
  {limit : Option Nat} {d : SessionDescriptor}
  {config : ReceiverConfig} {declaration : SessionCapabilities} {implemented : List Implemented}

/-- What is known of an envelope that was prepared against the declaration. -/
structure Carried (caps : AdapterCapabilities) (limit : Option Nat) (revision : Version)
    (env : Envelope) : Prop where
  sealed : ∃ draft signer nonce signature, env = EnvelopeDraft.sealed draft signer nonce signature ∧
    (∀ p ∈ draft.content, p.Writable) ∧ draft.ttlMs = none
  version : env.version = revision
  active : caps.activeInbound = true
  types : ∀ p ∈ env.content, p.partType = "text" ∨ p.partType ∈ caps.contentTypes
  size : env.octets.length ≤ declaredOctets caps limit

theorem Carried.fits (carried : Carried caps limit revision env)
    (agrees : config.Agrees c caps limit revision) : (c.receiverLimits config).Fits env := by
  have size : env.octets.length ≤ (c.receiverLimits config).maxEnvelopeOctets := by
    rw [receiverLimits_frame.1]
    exact carried.size.trans agrees.size
  refine ⟨size, fun short => ⟨size, ?_, fun p held => ?_⟩⟩
  · rw [receiverLimits_frame.2, carried.version]
    exact agrees.major (carried.version ▸ short)
  · by_cases isText : p.partType = "text"
    · exact .inl isText
    · exact .inr (agrees.types (carried.version ▸ short) _
        ((carried.types p held).resolve_left isText) isText)

variable [Libraries]

/-- The declaration `declaration` was read in an announcement of `d` by some device to some
audience. -/
def ReadBack (d : SessionDescriptor) (declaration : SessionCapabilities) : Prop :=
  ∃ seq issuedAt lifetimeMs record own audience issued to_ octets,
    announcement seq issuedAt lifetimeMs d = .ok record ∧
      AuthenticatedPresenceRecord.issue own record audience = some issued ∧
      issued.toPayload = some (to_, octets) ∧ announcedDeclaration octets = some declaration

/-- A send to `session` that was prepared against the declaration. -/
def Sends (declaration : SessionCapabilities) (session : SessionId) (implemented : List Implemented)
    (prepared : PreparedSend) : Prop :=
  ∃ requester request presence reply own nonce id createdAt, request.toSession = session ∧
    (∀ fromSession, presence fromSession session = .ok declaration) ∧
      (∀ p ∈ request.content, p.Sendable) ∧
      prepareSend requester request presence implemented reply own nonce id createdAt =
        some (.ok prepared)

theorem ReadBack.agreed {agreed : Agreed} (readBack : ReadBack d declaration)
    (made : sessionDescriptor session caps limit display label = some d)
    (agreement : declaration.agree implemented = some agreed) :
    agreed.entry.activeInbound = caps.activeInbound ∧
      (∀ t, agreed.entry.acceptsPartType t = true ↔ t = "text" ∨ t ∈ caps.contentTypes) ∧
      agreed.entry.envelopeOctets = declaredOctets caps limit ∧
      defaultMaxEnvelopeOctets ≤ declaredOctets caps limit ∧
      (∀ t ∈ caps.contentTypes, (isCoreType t || isExtensionType t) = true) ∧
      ∃ imp ∈ implemented, agreed.revision = imp.revision := by
  obtain ⟨_, _, _, _, _, _, _, _, _, announced, signed, sent, read⟩ := readBack
  have same := announcedDeclaration_issued made announced signed sent read
  obtain ⟨entry, forAdapter, declares⟩ := sessionDescriptor_declares made
  have declares : declaration.Declares entry := ⟨same.trans declares.1, declares.2⟩
  obtain ⟨rfl, imp, listed, -, -, revision⟩ := declares.agree_eq_some agreement
  obtain ⟨written, active, types, size⟩ := CapabilitiesEntry.ofAdapter_eq_some forAdapter
  refine ⟨active,
    fun t => ?_, by rw [CapabilitiesEntry.envelopeOctets, size, declaredOctets], ?_, fun t held => ?_,
    imp, listed, revision⟩
  · simp only [CapabilitiesEntry.acceptsPartType, types, Bool.or_eq_true, beq_iff_eq]
    refine or_congr_right ?_
    split
    · next empty => simp [isEmpty_iff.mp empty]
    · simp
  · rw [declaredOctets, ← size]
    cases stated : agreed.entry.maxEnvelopeOctets with
    | none => exact Nat.le_refl _
    | some m => exact (written.sizeKnown m stated).1
  · have some_ : ¬ caps.contentTypes.isEmpty := fun empty => by simp [isEmpty_iff.mp empty] at held
    exact written.typesKnown _ (types.trans (if_neg some_)) t held

theorem Sends.carried (readBack : ReadBack d declaration)
    (made : sessionDescriptor session caps limit display label = some d)
    (sends : Sends declaration session implemented prepared) :
    ∃ agreed, declaration.agree implemented = some agreed ∧
      Carried caps limit agreed.revision prepared.envelope := by
  obtain ⟨_, request, _, _, _, _, _, _, rfl, answered, parts, sent⟩ := sends
  obtain ⟨fromSession, headers, -, -, decided⟩ := prepareSend_eq_ok sent
  obtain ⟨octets, built, within⟩ := decided.size
  obtain ⟨rfl, draft, drafted⟩ := SendRequest.build_eq_some built
  obtain ⟨input, -, sealed⟩ := signEnvelope_eq_some drafted.signed
  obtain ⟨declared, found, agreement⟩ := decided.answered
  obtain rfl : declaration = declared := Except.ok.inj ((answered fromSession).symm.trans found)
  obtain ⟨active, accepts, size, -⟩ := readBack.agreed made agreement
  refine ⟨_, agreement, ⟨draft, _, _, _, sealed, fun p held => ?_, drafted.ttlMs⟩,
    ?_, active ▸ decided.active, fun p held => ?_, size ▸ within⟩
  · exact (parts p (drafted.content ▸ held)).writable
  · rw [sealed]
    exact drafted.version
  · rw [sealed] at held
    exact (accepts _).mp (decided.types _ (mem_map_of_mem (drafted.content ▸ held)))

end Carried

section Sizes

/-- The octets that a value takes. -/
def Json.size (v : Json) : Nat := (Utf8.encode (text v)).length

def letters (n : Nat) : String := String.ofList (replicate (n + 1) 'a')

end Sizes

section Probes

variable [Libraries] {c : Core} {session : SessionId} {caps : AdapterCapabilities}
  {limit : Option Nat}
  {d : SessionDescriptor} {config : ReceiverConfig} {declaration : SessionCapabilities}
  {implemented : List Implemented}
  {agreed : Agreed} {part : ContentPart}

end Probes

section Sample

attribute [local instance] exactLibraries

def ReceiverConfig.default : ReceiverConfig where
  limits := ⟨[0], defaultMaxEnvelopeOctets, []⟩
  implemented := sampleImplemented
  majors := by decide
  floor := by decide
  ceiling := by decide
  known := nofun

end Sample

end Oac
