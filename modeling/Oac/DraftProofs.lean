import Oac.CanonicalTotal
import Oac.Draft
import Oac.EnvelopeProofs

/-! A sealed envelope is well formed: each member that a draft writes is one that validation reads
back as it was, and the signature is not part of what is signed. -/

namespace Oac

open List
open Option hiding any_eq_false any_map
open Json hiding text
open JsonObject hiding get remove

section Parts

/-- A part that may stand in a draft: a text part, or one read from a value of the source's type. -/
def ContentPart.Sendable (part : ContentPart) : Prop :=
  (∃ text, TextPart.new text = some part) ∨ ∃ v, Typed v ∧ ContentPart.fromJson v = some part

/-- What is known of a part by its form. -/
structure ContentPart.Writable (part : ContentPart) : Prop where
  wellFormed : (object part.wire).WellFormed
  noNull : (object part.wire).containsNull = false
  read : part.ReadFrom (.object part.wire)

theorem TextPart.new_writable (made : TextPart.new text = some part) : part.Writable := by
  unfold TextPart.new at made
  split at made
  · cases made
  · next fine =>
    obtain ⟨nonempty, ijson⟩ := not_or.mp fine
    cases made
    have distinct : ["type", "text"].Nodup := by decide
    have typed : isIjsonString "text".toList = true := by decide
    have texted : isIjsonString text.toList = true := by simpa using ijson
    exact ⟨⟨distinct, by decide, typed, by decide, texted, trivial⟩, rfl, rfl, rfl, rfl, nonempty⟩

theorem ContentPart.fromJson_writable (typed : Typed v) (read : fromJson v = some part) : part.Writable := by
  obtain ⟨o, isObject, read⟩ := bind_eq_some_iff.mp read
  rw [asObject_eq_some] at isObject
  subst isObject
  split at read
  · cases read
  next checked =>
  simp only [Bool.or_eq_true, Bool.not_eq_true', not_or, Bool.not_eq_true, Bool.not_eq_false] at checked
  obtain ⟨noNull, parsed⟩ := checked
  obtain ⟨w, parsed⟩ := isSome_iff_exists.mp parsed
  obtain ⟨partType, typeHeld, read⟩ := bind_eq_some_iff.mp read
  rw [stringMember_eq_some] at typeHeld
  split at read
  · obtain ⟨text, -, made⟩ := bind_eq_some_iff.mp read
    exact TextPart.new_writable made
  · next notText =>
    split at read
    · cases read
      exact ⟨wellFormed_of_parse typed (Results.ok_of_toOption parsed), noNull, rfl, typeHeld, notText⟩
    · cases read

theorem ContentPart.fromJson_other {o : JsonObject} {partType : String} (formed : (object o).WellFormed)
    (noNull : (object o).containsNull = false) (typeHeld : o.get "type" = some (.string partType))
    (notText : partType ≠ "text") (known : (isCoreType partType || isExtensionType partType) = true) :
    fromJson (.object o) = some (.other partType o) := by
  unfold fromJson
  rw [parse_toCompact formed, noNull]
  simp only [asObject, Except.toOption, bind_eq_bind, bind_some, isSome_some, Bool.not_true,
    Bool.or_self, Bool.false_eq_true, if_false, typeHeld, asStr, if_neg notText, known, if_true]

theorem ContentPart.Sendable.writable {part : ContentPart} (sendable : part.Sendable) : part.Writable := by
  obtain ⟨text, made⟩ | ⟨v, typed, read⟩ := sendable
  · exact TextPart.new_writable made
  · exact fromJson_writable typed read

end Parts

namespace EnvelopeDraft

section Wire

variable (draft : EnvelopeDraft) (security : JsonObject)

theorem get_elim_insert (o : JsonObject) (name other : String) (v : Option α) (f : α → Json) :
    JsonObject.get (v.elim o fun a => insert o name (f a)) other =
      if other = name then (v.map f).or (JsonObject.get o other) else JsonObject.get o other := by
  cases v with
  | none => simp
  | some a => simp [get_insert]

theorem wire_get : (draft.wire security).get "version" = some (.string draft.version.text) ∧
    (draft.wire security).get "id" = some (.string draft.id.text) ∧
    (draft.wire security).get "from" = some (.string draft.fromSession.text) ∧
    (draft.wire security).get "to" = some (.string draft.toSession.text) ∧
    (draft.wire security).get "conversation_id" = draft.conversationId.map (fun v => .string v.text) ∧
    (draft.wire security).get "reply_to" = draft.replyTo.map (fun v => .string v.text) ∧
    (draft.wire security).get "correlation_id" = draft.correlationId.map (fun v => .string v.text) ∧
    (draft.wire security).get "created_at" = some (.string draft.createdAt.text) ∧
    (draft.wire security).get "ttl_ms" = draft.ttlMs.map (fun t => .number (.fromU64 t)) ∧
    (draft.wire security).get "content" = some (.array (draft.content.map fun p => .object p.wire)) ∧
    (draft.wire security).get "security" = some (.object security) := by
  refine ⟨?_, ?_, ?_, ?_, ?_, ?_, ?_, ?_, ?_, ?_, ?_⟩
  all_goals
    simp only [wire, insertToken, get_elim_insert, get_insert]
    simp [JsonObject.get]

def optional {α : Type} (name : String) (v : Option α) (f : α → Json) : JsonObject :=
  (v.map fun a => (name, f a)).toList

def header : JsonObject :=
  [("version", .string draft.version.text), ("id", .string draft.id.text),
      ("from", .string draft.fromSession.text), ("to", .string draft.toSession.text)] ++
    optional "conversation_id" draft.conversationId (fun v => .string v.text) ++
    optional "reply_to" draft.replyTo (fun v => .string v.text) ++
    optional "correlation_id" draft.correlationId (fun v => .string v.text) ++
    [("created_at", .string draft.createdAt.text)] ++
    optional "ttl_ms" draft.ttlMs (fun t => .number (.fromU64 t))

theorem wire_eq : draft.wire security = draft.header ++
    [("content", .array (draft.content.map fun p => .object p.wire)), ("security", .object security)] := by
  unfold wire header
  cases draft.conversationId <;> cases draft.replyTo <;> cases draft.correlationId <;>
    cases draft.ttlMs <;> rfl

theorem optional_names (name : String) (v : Option α) (f : α → Json) :
    ((optional name v f).map (·.1)).Sublist [name] := by
  cases v with
  | none => exact nil_sublist _
  | some a => exact .refl _

def memberNames : List String :=
  ["version", "id", "from", "to", "conversation_id", "reply_to", "correlation_id",
    "created_at", "ttl_ms", "content", "security"]

theorem wire_names : ((draft.wire security).map (·.1)).Sublist memberNames := by
  have parts : memberNames = ["version", "id", "from", "to"] ++ ["conversation_id"] ++ ["reply_to"] ++
    ["correlation_id"] ++ ["created_at"] ++ ["ttl_ms"] ++ ["content", "security"] := rfl
  rw [parts, wire_eq]
  simp only [header, map_append, map_cons, map_nil]
  refine .append (.append (.append (.append (.append (.append (.refl _) ?_) ?_) ?_) (.refl _)) ?_) (.refl _)
  all_goals exact optional_names _ _ _

theorem wire_names_nodup : ((draft.wire security).map (·.1)).Nodup := by
  have every : memberNames.Nodup := by decide
  exact every.sublist (draft.wire_names security)

variable {P : String × Json → Prop}

theorem optional_forall (each : ∀ a ∈ v, P (name, f a)) :
    ∀ m ∈ optional name v f, P m := by
  cases v with
  | none => rintro m ⟨⟩
  | some a => exact forall_mem_singleton.mpr (each a rfl)

theorem header_forall (version : P ("version", .string draft.version.text))
    (tokens : ∀ name ∈ ["id", "conversation_id", "reply_to", "correlation_id"],
      ∀ v : Token, P (name, .string v.text))
    (sessions : ∀ name ∈ ["from", "to"], ∀ s : SessionId, P (name, .string s.text))
    (createdAt : P ("created_at", .string draft.createdAt.text))
    (ttl : ∀ t ∈ draft.ttlMs, P ("ttl_ms", .number (.fromU64 t))) : ∀ m ∈ draft.header, P m := by
  have fixed : ∀ m ∈ [("version", string draft.version.text), ("id", .string draft.id.text),
      ("from", .string draft.fromSession.text), ("to", .string draft.toSession.text)], P m := by
    simp only [forall_mem_cons, not_mem_nil, false_implies, implies_true, and_true]
    exact ⟨version, tokens _ (by decide) _, sessions _ (by decide) _, sessions _ (by decide) _⟩
  have absent : ∀ name ∈ ["id", "conversation_id", "reply_to", "correlation_id"],
      ∀ v : Option Token, ∀ m ∈ optional name v (fun v => .string v.text), P m :=
    fun name listed v => optional_forall fun a _ => tokens name listed a
  simp only [header, forall_mem_append, forall_mem_singleton]
  exact ⟨⟨⟨⟨⟨fixed, absent _ (by decide) _⟩, absent _ (by decide) _⟩, absent _ (by decide) _⟩, createdAt⟩,
    optional_forall ttl⟩

variable {draft security} in
theorem wire_wellFormed (parts : ∀ p ∈ draft.content, p.Writable)
    (formed : (object security).WellFormed) : (object (draft.wire security)).WellFormed := by
  have named : ∀ name ∈ memberNames, isIjsonString name.toList = true := by decide
  have values : ∀ m ∈ draft.wire security, m.2.WellFormed := by
    rw [wire_eq, forall_mem_append]
    constructor
    · exact draft.header_forall draft.version.ijson (fun _ _ v => v.ijson) (fun _ _ s => s.ijson)
        draft.createdAt.ijson (fun t _ => JsonNumber.fromU64_number t)
    · refine forall_mem_cons.mpr ⟨wellFormedItems_iff.mpr ?_, forall_mem_singleton.mpr formed⟩
      exact forall_mem_map.mpr fun p held => (parts p held).wellFormed
  refine ⟨draft.wire_names_nodup security, wellFormedMembers_iff.mpr fun m held => ⟨?_, values m held⟩⟩
  exact named _ ((draft.wire_names security).subset (mem_map_of_mem held))

variable {draft security} in
theorem wire_noNull (parts : ∀ p ∈ draft.content, p.Writable)
    (noNull : (object security).containsNull = false) :
    ∀ m ∈ draft.wire security, m.2.containsNull = false := by
  rw [wire_eq, forall_mem_append]
  refine ⟨draft.header_forall rfl (fun _ _ _ => rfl) (fun _ _ _ => rfl) rfl (fun _ _ => rfl), ?_⟩
  refine forall_mem_cons.mpr ⟨?_, forall_mem_singleton.mpr noNull⟩
  rw [containsNull_array, any_map, any_eq_false]
  intro p held
  rw [Function.comp_apply, (parts p held).noNull]
  decide

end Wire

section Sealed

variable (draft : EnvelopeDraft) (signer : SecurityPrincipal) (nonce : Nonce)
  (signature : Signature)

def sealedSecurity : JsonObject :=
  [("principal", .string signer.principal.text), ("key_id", .string signer.keyId.text),
    ("nonce", .string nonce.text), ("signature", .string signature.text)]

theorem sealed_wire : (draft.sealed signer nonce signature).wire =
    draft.wire (sealedSecurity signer nonce signature) :=
  rfl

theorem sealedSecurity_wellFormed : (object (sealedSecurity signer nonce signature)).WellFormed := by
  have distinct : ["principal", "key_id", "nonce", "signature"].Nodup := by decide
  exact ⟨distinct, by decide, signer.principal.ijson, by decide, signer.keyId.ijson, by decide,
    Ascii.ijson (Base64url.encode_ascii _), by decide, Ascii.ijson (Base64url.encode_ascii _), trivial⟩

variable {draft signer nonce signature}

theorem sealed_wellFormed (parts : ∀ p ∈ draft.content, p.Writable)
    (major : draft.version.major < 10 ^ 4) (minor : draft.version.minor < 10 ^ 4)
    (size : (draft.sealed signer nonce signature).octets.length ≤ limits.maxEnvelopeOctets)
    (supported : draft.version.major ∈ limits.supportedMajors)
    (types : ∀ p ∈ draft.content, p.partType = "text" ∨ p.partType ∈ limits.partTypes) :
    (draft.sealed signer nonce signature).WellFormed limits (draft.sealed signer nonce signature).octets := by
  obtain ⟨version, id, fromHeld, toHeld, conversationId, replyTo, correlationId,
    createdAt, ttl, content, security⟩ :=
    draft.wire_get (sealedSecurity signer nonce signature)
  have json : parse (draft.sealed signer nonce signature).octets =
      .ok (.object (draft.wire (sealedSecurity signer nonce signature))) :=
    parse_toCompact (wire_wellFormed parts (sealedSecurity_wellFormed signer nonce signature))
  refine ⟨size, rfl, json, wire_noNull parts rfl, ⟨_, version, Version.parse_text major minor⟩,
    supported, id, fromHeld,
    toHeld, conversationId, replyTo, correlationId, createdAt, ?_, ⟨_, content, ?_, ?_⟩,
      types, _, security, rfl, rfl,
    rfl, rfl, fun _ listed => listed⟩
  · rw [sealed_wire, ttl]
    cases held : draft.ttlMs with
    | none => exact held
    | some t =>
      obtain ⟨least, most⟩ := draft.ttlRange t held
      have fits : t < 2 ^ 64 := Nat.lt_of_le_of_lt most (by decide)
      refine ⟨_, rfl, ?_, isSome_of_mem held⟩
      rw [JsonNumber.plainIntegerIn_fromU64 fits least most]
      exact held
  · simpa using draft.hasContent
  · exact forall₂_map_left_iff.mpr (forall₂_same.mpr fun p held => (parts p held).read)

end Sealed

section Signed

variable [Libraries] {draft : EnvelopeDraft} {signer : SecurityPrincipal}
  {nonce : Nonce} {signature : Signature}

theorem signedText_last (absent : ∀ m ∈ front, m.1 ≠ "security") :
    signedText (front ++ [("security", .object sec)]) =
      canonical (.object (front ++ [("security", .object (JsonObject.remove sec "signature").2)])) := by
  have found : JsonObject.get (front ++ [("security", .object sec)]) "security" = some (.object sec) := by
    have passed : front.find? (·.1 == "security") = none := by simpa using absent
    simp [JsonObject.get, find?_append, passed]
  have erased : (front ++ [("security", object sec)]).eraseP (·.1 == "security") = front := by
    rw [eraseP_append_right _ (by simpa using absent), eraseP_cons_of_pos rfl, append_nil]
  unfold signedText
  rw [JsonObject.remove, found, erased]
  dsimp only
  rw [insert_absent _ absent]

theorem signedText_wire (sec : JsonObject) : signedText (draft.wire sec) =
    canonical (.object (draft.wire (JsonObject.remove sec "signature").2)) := by
  have split : ∀ sec, draft.wire sec =
    (draft.header ++ [("content", .array (draft.content.map fun p => .object p.wire))]) ++
      [("security", .object sec)] := by
    intro sec
    rw [wire_eq, append_assoc]
    rfl
  have absent : ∀ m ∈ draft.header ++ [("content", .array (draft.content.map fun p => .object p.wire))],
      m.1 ≠ "security" := by
    intro m held same
    have distinct := draft.wire_names_nodup []
    rw [split, map_append, nodup_append] at distinct
    exact distinct.2.2 m.1 (mem_map_of_mem held) "security" (by simp) same
  rw [split, split, signedText_last absent]

theorem sealed_signingInput : Oac.signingInput .envelope
    (draft.sealed signer nonce signature).wire = draft.signingInput signer nonce := by
  have texts : signedText (draft.sealed signer nonce signature).wire =
      signedText (draft.wire (security signer nonce)) := by
    rw [sealed_wire, signedText_wire, signedText_wire]
    rfl
  unfold signingInput Oac.signingInput
  rw [texts]

/-- A draft has a signing input exactly when all numbers of its content are finite; its own are
integers. -/
theorem signingInput_exists_iff (writers : TotalWriters) :
    (∃ input, draft.signingInput signer nonce = .ok input) ↔
    ∀ p ∈ draft.content, EachNumber FiniteNumber (.object p.wire) := by
  have numbers : (∀ m ∈ draft.wire (security signer nonce), EachNumber FiniteNumber m.2) ↔
      ∀ p ∈ draft.content, EachNumber FiniteNumber (.object p.wire) := by
    rw [wire_eq, forall_mem_append]
    constructor
    · rintro ⟨-, rest⟩
      exact forall_mem_map.mp (eachNumberItems_iff.mp (rest _ mem_cons_self))
    · intro finite
      refine ⟨draft.header_forall trivial (fun _ _ _ => trivial) (fun _ _ _ => trivial) trivial fun t held => ?_,
        forall_mem_cons.mpr ⟨eachNumberItems_iff.mpr (forall_mem_map.mpr finite), forall_mem_singleton.mpr ?_⟩⟩
      · exact writers.integers t (Nat.lt_of_le_of_lt (draft.ttlRange t held).2 (by decide))
      · exact ⟨trivial, trivial, trivial, trivial⟩
  have written : (∃ input, draft.signingInput signer nonce = .ok input) ↔
      ∃ text, canonical (.object (draft.wire (security signer nonce))) = .ok text := by
    unfold signingInput
    simp only [signingInput_eq_ok, signedText_wire]
    exact ⟨fun ⟨_, text, written, _⟩ => ⟨text, written⟩, fun ⟨text, written⟩ => ⟨_, text, written, rfl⟩⟩
  rw [written, canonical_exists_iff writers, ← numbers]
  exact eachNumberMembers_iff

end Signed

end EnvelopeDraft

section Signed

variable [Libraries] {own : SigningDevice} {domain : SigningDomain} {o w : JsonObject}

theorem SigningDevice.signed_get (made : own.signed domain o = some w) (other : name ≠ "security") :
    JsonObject.get w name = JsonObject.get o name := by
  obtain ⟨signature, -, rfl⟩ := map_eq_some_iff.mp made
  rw [get_insert, if_neg other, get_insert, if_neg other]

theorem SigningDevice.signed_wellFormed (made : own.signed domain o = some w)
    (formed : (object o).WellFormed) : (object w).WellFormed := by
  obtain ⟨signature, -, rfl⟩ := map_eq_some_iff.mp made
  have sec : (object [("principal", .string own.entry.principal.text),
      ("key_id", .string own.entry.keyId.text)]).WellFormed := by
    have names : ["principal", "key_id"].Nodup := by decide
    exact ⟨names, by decide, own.entry.principal.ijson, by decide, own.entry.keyId.ijson, trivial⟩
  have signatureText : (string signature.text).WellFormed := Ascii.ijson (Base64url.encode_ascii _)
  exact wellFormed_insert (wellFormed_insert formed (by decide) sec) (by decide)
    (wellFormed_insert sec (by decide) signatureText)

end Signed

end Oac
