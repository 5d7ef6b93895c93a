import Oac.Ids
import Oac.Json.Parse

/-! Capability declarations and session descriptors of `core/src/capabilities.rs`, and the
capabilities an adapter states for an attachment. -/

namespace Oac

open JsonObject

def extensionIdV0 : String := "io.github.rossgraeber/oac-session-channels"

def defaultMaxEnvelopeOctets : Nat := 65536

def maxEnvelopeOctetsLimit : Nat := 9007199254740991

/-- The octets a sealed frame adds to its payload. -/
def frameOverhead : Nat := 54

/-- An extension identifier an implementation implements, with its major version and the revision
implemented for it. -/
structure Implemented where
  extension : String
  major : Nat
  revision : Version
  deriving DecidableEq

/-- What an adapter can do for one attachment. -/
structure AdapterCapabilities where
  activeInbound : Bool
  contentTypes : List String
  maxEnvelopeOctets : Option Nat
  deriving DecidableEq

structure CapabilitiesEntry where
  revision : Version
  activeInbound : Bool
  contentTypes : Option (List String)
  maxEnvelopeOctets : Option Nat
  wire : JsonObject

namespace CapabilitiesEntry

def new (revision : Version) (activeInbound : Bool) : CapabilitiesEntry where
  revision := revision
  activeInbound := activeInbound
  contentTypes := none
  maxEnvelopeOctets := none
  wire := [("revision", .string revision.text), ("active_inbound", .bool activeInbound)]

variable (entry : CapabilitiesEntry)

def withContentTypes (types : List String) : Option CapabilitiesEntry :=
  if !types.all fun t => isCoreType t || isExtensionType t then none
  else some { entry with
    wire := insert entry.wire "content_types" (.array (types.map .string))
    contentTypes := some types }

def withMaxEnvelopeOctets (octets : Nat) : Option CapabilitiesEntry :=
  if defaultMaxEnvelopeOctets ≤ octets ∧ octets ≤ maxEnvelopeOctetsLimit then some { entry with
    wire := insert entry.wire "max_envelope_octets" (.number (.fromU64 octets))
    maxEnvelopeOctets := some octets }
  else none

def contentType (t : Json) : Option String :=
  t.asStr.filter fun t => isCoreType t || isExtensionType t

def fromJson (v : Json) (major : Nat) : Option CapabilitiesEntry := do
  let o ← v.asObject
  let revision ← (((get o "revision").bind Json.asStr).bind Version.parse).filter (·.major == major)
  let activeInbound ← (get o "active_inbound").bind Json.asBool
  let contentTypes ← match get o "content_types" with
    | none => some none
    | some t => (t.asArray.bind fun items => items.mapM contentType).map some
  let maxEnvelopeOctets ← match get o "max_envelope_octets" with
    | none => some none
    | some n =>
      (n.asNumber.bind (·.plainIntegerIn defaultMaxEnvelopeOctets maxEnvelopeOctetsLimit)).map some
  return ⟨revision, activeInbound, contentTypes, maxEnvelopeOctets, o⟩

def acceptsPartType (t : String) : Bool :=
  t == "text" || entry.contentTypes.any (·.any (· == t))

def envelopeOctets : Nat := entry.maxEnvelopeOctets.getD defaultMaxEnvelopeOctets

end CapabilitiesEntry

structure Agreed where
  extension : String
  major : Nat
  /-- The revision the sender implements for it. -/
  revision : Version
  entry : CapabilitiesEntry

structure SessionCapabilities where
  wire : Json

namespace SessionCapabilities

def validEntry (members : JsonObject) (imp : Implemented) : Option Agreed := do
  let entry ← CapabilitiesEntry.fromJson (← get members imp.extension) imp.major
  return ⟨imp.extension, imp.major, imp.revision, entry⟩

def validEntries (caps : SessionCapabilities) (implemented : List Implemented) : List Agreed :=
  match caps.wire.asObject with
  | none => []
  | some o => implemented.filterMap (validEntry o)

def higher (best : Option Agreed) (a : Agreed) : Option Agreed :=
  match best with
  | some b => if b.major ≤ a.major then some a else some b
  | none => some a

/-- The agreed version: the highest major version with a valid entry. -/
def agree (caps : SessionCapabilities) (implemented : List Implemented) : Option Agreed :=
  (caps.validEntries implemented).foldl higher none

end SessionCapabilities

def SessionCapabilities.declare (entries : List (String × CapabilitiesEntry)) : Option SessionCapabilities :=
  if entries.all fun e => isExtensionType e.1 && isIjsonString e.1.toList then
    some ⟨.object (entries.foldl (fun o e => insert o e.1 (.object e.2.wire)) [])⟩
  else none

structure SessionDescriptor where
  sessionId : SessionId
  capabilities : SessionCapabilities
  wire : JsonObject

namespace SessionDescriptor

def new (sessionId : SessionId) (capabilities : SessionCapabilities) (displayName : Option String)
    (harnessLabel : Option Token) : Option SessionDescriptor :=
  if capabilities.wire.asObject.isNone || !displayName.all (isIjsonString ·.toList) then none
  else
    let wire := [("session_id", .string sessionId.text), ("capabilities", capabilities.wire)]
    let wire := displayName.elim wire fun d => insert wire "display_name" (.string d)
    let wire := harnessLabel.elim wire fun h => insert wire "harness_label" (.string h.text)
    some ⟨sessionId, capabilities, wire⟩

/-- Reads a descriptor; a `capabilities` value that is not an object holds no entries. -/
def fromJson (v : Json) : Option SessionDescriptor := do
  let o ← v.asObject
  let sessionId ← ((get o "session_id").bind Json.asStr).bind SessionId.parse
  let capabilities ← get o "capabilities"
  return ⟨sessionId, ⟨capabilities⟩, o⟩

def displayName (d : SessionDescriptor) : Option String :=
  (get d.wire "display_name").bind Json.asStr

def harnessLabel (d : SessionDescriptor) : Option Token :=
  ((get d.wire "harness_label").bind Json.asStr).bind Token.parse

theorem new_sessionId {capabilities : SessionCapabilities}
    (made : new session capabilities display label = some d) : d.sessionId = session := by
  revert made
  fun_cases new <;> rintro ⟨⟩
  rfl

end SessionDescriptor

/-- The size to declare: the adapter's own, lowered to the transport's limit when it is above it. -/
def declaredLimit : Option Nat → Option Nat → Option Nat
  | some m, some l => some (min m l)
  | m, _ => m

def CapabilitiesEntry.ofAdapter (caps : AdapterCapabilities) (limit : Option Nat) : Option CapabilitiesEntry :=
  let entry := CapabilitiesEntry.new implementedVersion caps.activeInbound
  let typed := if caps.contentTypes.isEmpty then some entry else entry.withContentTypes caps.contentTypes
  typed.bind fun entry =>
    (declaredLimit caps.maxEnvelopeOctets limit).elim (some entry) entry.withMaxEnvelopeOctets

def sessionDescriptor (session : SessionId) (caps : AdapterCapabilities) (limit : Option Nat)
    (displayName : Option String) (harnessLabel : Option Token) : Option SessionDescriptor := do
  let entry ← CapabilitiesEntry.ofAdapter caps limit
  let declaration ← SessionCapabilities.declare [(extensionIdV0, entry)]
  SessionDescriptor.new session declaration displayName harnessLabel

theorem sessionDescriptor_sessionId {caps : AdapterCapabilities}
    (made : sessionDescriptor session caps limit display label = some d) : d.sessionId = session := by
  simp only [sessionDescriptor, Option.bind_eq_bind, Option.bind_eq_some_iff] at made
  obtain ⟨_, _, _, _, made⟩ := made
  exact SessionDescriptor.new_sessionId made

abbrev DescriptorOf (session : SessionId) := { d : SessionDescriptor // d.sessionId = session }

/-- The descriptor of `session` for an adapter's capabilities. Both the registration of a session
and a change of its capabilities build it in this way. -/
def describeSession (session : SessionId) (caps : AdapterCapabilities) (limit : Option Nat)
    (displayName : Option String) (harnessLabel : Option Token) : Option (DescriptorOf session) :=
  (sessionDescriptor session caps limit displayName harnessLabel).attach.map fun d =>
    ⟨d.1, sessionDescriptor_sessionId d.2⟩

end Oac
