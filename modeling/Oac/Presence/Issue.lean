import Oac.CapabilitiesProofs
import Oac.DraftProofs
import Oac.Presence.Authenticated

/-! Authenticated presence records as a device issues them (`core/src/presence_auth.rs`), and what
the device they are issued to reads in an announcement. -/

namespace Oac

open Results JsonObject Json Option

namespace AuthenticatedPresenceRecord

def issue [Libraries] (own : SigningDevice) (record : PresenceRecord) (audience : KeyId) :
    Option AuthenticatedPresenceRecord :=
  (own.signed .presence [("record", .object record.wire), ("audience", .string audience.text)]).map
    fun o => ⟨o⟩

/-- The audience's key id and the octets of the payload for it. -/
def toPayload (record : AuthenticatedPresenceRecord) : Option (KeyId × List UInt8) := do
  let audience ← ((get record.wire "audience").bind asStr).bind KeyId.parse
  return (audience, Utf8.encode (toCompact (.object record.wire)))

end AuthenticatedPresenceRecord

/-- The declaration in the octets of an announcement, as a consumer reads it. -/
def announcedDeclaration (octets : List UInt8) : Option SessionCapabilities := do
  let v ← (parse octets).toOption
  let record ← AuthenticatedPresenceRecord.fromJson v
  let record ← (PresenceRecord.fromJson (← get record.wire "record")).toOption
  match record.kind with
  | .announcement _ descriptor => some descriptor.capabilities
  | .withdrawal => none

section ReadBack

variable {session : SessionId} {caps : AdapterCapabilities} {limit : Option Nat}
  {display : Option String} {label : Option Token} {d : SessionDescriptor}

theorem sessionDescriptor_wellFormed (made : sessionDescriptor session caps limit display label = some d) :
    (object d.wire).WellFormed ∧ get d.wire "capabilities" = some d.capabilities.wire := by
  obtain ⟨entry, -, declared, written⟩ := sessionDescriptor_declares made
  simp only [sessionDescriptor, bind_eq_bind, bind_eq_some_iff] at made
  obtain ⟨_, _, declaration, _, made⟩ := made
  unfold SessionDescriptor.new at made
  split at made
  · cases made
  next fine =>
  cases made
  have first : (object [("session_id", .string session.text),
      ("capabilities", declaration.wire)]).WellFormed := by
    have capabilities : declaration.wire.WellFormed := by
      rw [declared]
      exact ⟨List.nodup_singleton _, by decide, written.formed, trivial⟩
    have names : ["session_id", "capabilities"].Nodup := by decide
    exact ⟨names, by decide, session.ijson, by decide, capabilities, trivial⟩
  have named {o : JsonObject} (formed : (object o).WellFormed) (n : String)
      (shown : display = some n) : (object (insert o "display_name" (.string n))).WellFormed := by
    refine wellFormed_insert formed (by decide) ?_
    rw [shown] at fine
    simp only [all_some, Bool.or_eq_true, Bool.not_eq_true', not_or, Bool.not_eq_false] at fine
    exact fine.2
  have labelled {o : JsonObject} (formed : (object o).WellFormed) (l : Token) :
      (object (insert o "harness_label" (.string l.text))).WellFormed :=
    wellFormed_insert formed (by decide) l.ijson
  cases display with
  | none =>
    cases label with
    | none => exact ⟨first, rfl⟩
    | some l => exact ⟨labelled first l, rfl⟩
  | some n =>
    cases label with
    | none => exact ⟨named first n rfl, rfl⟩
    | some l => exact ⟨labelled (named first n rfl) l, rfl⟩

theorem announcement_wire (made : PresenceRecord.announcement seq issuedAt lifetimeMs d =
    .ok record) (formed : (object d.wire).WellFormed) :
    (object record.wire).WellFormed ∧ get record.wire "present" = some (.bool true) ∧
      get record.wire "descriptor" = some (.object d.wire) := by
  unfold PresenceRecord.announcement at made
  split at made
  · cases made
  split at made
  · cases made
  cases made
  have names : ["session_id", "seq", "present", "issued_at"].Nodup := by decide
  have header : (object (PresenceRecord.header d.sessionId seq true issuedAt)).WellFormed :=
    ⟨names, by decide, d.sessionId.ijson, by decide, JsonNumber.fromU64_number seq, by decide,
      trivial, by decide, issuedAt.ijson, trivial⟩
  have timed : (object (insert (PresenceRecord.header d.sessionId seq true issuedAt) "lifetime_ms"
      (.number (.fromU64 lifetimeMs)))).WellFormed :=
        wellFormed_insert header (by decide) (JsonNumber.fromU64_number lifetimeMs)
  exact ⟨wellFormed_insert timed (by decide) formed, rfl, rfl⟩

theorem fromJson_capabilities (present : get o "present" = some (.bool true))
    (described : get o "descriptor" = some (.object d.wire))
    (declared : get d.wire "capabilities" = some capabilities)
    (read : PresenceRecord.fromJson (.object o) = .ok record) :
    ∃ lifetimeMs descriptor, record.kind = .announcement lifetimeMs descriptor ∧
      descriptor.capabilities.wire = capabilities := by
  obtain ⟨o', isObject, read⟩ := bind_eq_ok.mp read
  obtain ⟨held, -⟩ := filter_eq_some_iff.mp (okOr_eq_ok.mp isObject)
  cases held
  split at read
  · cases read
  obtain ⟨sessionId, -, read⟩ := bind_eq_ok.mp read
  obtain ⟨seq, -, read⟩ := bind_eq_ok.mp read
  obtain ⟨isPresent, presentRead, read⟩ := bind_eq_ok.mp read
  obtain ⟨issuedAt, -, read⟩ := bind_eq_ok.mp read
  rw [present] at presentRead
  cases presentRead
  obtain ⟨kind, kindRead, read⟩ := bind_eq_ok.mp read
  cases read
  unfold PresenceRecord.announcementKind at kindRead
  cases lifetimeHeld : get o "lifetime_ms" with
  | none =>
    rw [lifetimeHeld] at kindRead
    cases kindRead
  | some lifetime =>
  rw [lifetimeHeld, described] at kindRead
  obtain ⟨lifetimeMs, -, kindRead⟩ := bind_eq_ok.mp kindRead
  obtain ⟨descriptor, descriptorRead, kindRead⟩ := bind_eq_ok.mp kindRead
  split at kindRead
  · cases kindRead
  cases kindRead
  refine ⟨lifetimeMs, descriptor, rfl, ?_⟩
  have descriptorRead := okOr_eq_ok.mp descriptorRead
  simp only [SessionDescriptor.fromJson, asObject, bind_eq_bind, bind_some,
    bind_eq_some_iff, declared] at descriptorRead
  obtain ⟨_, _, made⟩ := descriptorRead
  cases made
  rfl

theorem issued_read [Libraries] (formed : (object record.wire).WellFormed)
    (signed : AuthenticatedPresenceRecord.issue own record audience = some issued)
    (sent : issued.toPayload = some (to_, octets)) :
    get issued.wire "record" = some (.object record.wire) ∧ parse octets = .ok (.object issued.wire) := by
  obtain ⟨w, made, rfl⟩ := map_eq_some_iff.mp signed
  have names : ["record", "audience"].Nodup := by decide
  have payload : (object w).WellFormed :=
    SigningDevice.signed_wellFormed made ⟨names, by decide, formed, by decide, audience.ijson, trivial⟩
  obtain ⟨_, -, sent⟩ := bind_eq_some_iff.mp sent
  cases sent
  exact ⟨SigningDevice.signed_get made (by decide), parse_toCompact payload⟩

theorem announcedDeclaration_issued [Libraries]
    (stated : sessionDescriptor session caps limit display label = some d)
    (announced : PresenceRecord.announcement seq issuedAt lifetimeMs d = .ok record)
    (signed : AuthenticatedPresenceRecord.issue own record audience = some issued)
    (sent : issued.toPayload = some (to_, octets)) (read : announcedDeclaration octets = some declaration) :
    declaration.wire = d.capabilities.wire := by
  obtain ⟨formed, declared⟩ := sessionDescriptor_wellFormed stated
  obtain ⟨recordFormed, present, described⟩ := announcement_wire announced formed
  obtain ⟨inner, parsed⟩ := issued_read recordFormed signed sent
  simp only [announcedDeclaration, parsed, AuthenticatedPresenceRecord.fromJson,
    Except.toOption, asObject, map_some, bind_eq_bind, bind_some, inner] at read
  obtain ⟨record', recordRead, read⟩ := bind_eq_some_iff.mp read
  obtain ⟨lifetime, descriptor, kind, same⟩ :=
    fromJson_capabilities present described declared (ok_of_toOption recordRead)
  rw [kind] at read
  cases read
  exact same

end ReadBack

end Oac
