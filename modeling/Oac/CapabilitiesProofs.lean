import Oac.Capabilities
import Oac.EnvelopeProofs
import Oac.Json.Held
import Oac.Json.Integers

/-! What a declaration made for an adapter says to whoever reads it: exactly the adapter's
capabilities, with its size lowered to the transport's limit. -/

namespace Oac

open Json List
open Option hiding elim
open JsonObject hiding get

namespace CapabilitiesEntry

variable {caps : AdapterCapabilities} {limit : Option Nat} {entry : CapabilitiesEntry}

/-- An entry that says what the members of its object say, for major version 0. -/
structure Written (entry : CapabilitiesEntry) : Prop where
  revision : entry.revision = implementedVersion
  revisionHeld : JsonObject.get entry.wire "revision" = some (.string implementedVersion.text)
  activeHeld : JsonObject.get entry.wire "active_inbound" = some (.bool entry.activeInbound)
  typesHeld : JsonObject.get entry.wire "content_types" =
    entry.contentTypes.map fun types => .array (types.map .string)
  typesKnown : ∀ types ∈ entry.contentTypes, ∀ t ∈ types, (isCoreType t || isExtensionType t) = true
  sizeHeld : JsonObject.get entry.wire "max_envelope_octets" =
    entry.maxEnvelopeOctets.map fun octets => .number (.fromU64 octets)
  sizeKnown : ∀ octets ∈ entry.maxEnvelopeOctets, defaultMaxEnvelopeOctets ≤ octets ∧
    octets ≤ maxEnvelopeOctetsLimit
  formed : (object entry.wire).WellFormed

theorem new_written (activeInbound : Bool) : (new implementedVersion activeInbound).Written where
  revision := rfl
  revisionHeld := rfl
  activeHeld := rfl
  typesHeld := rfl
  typesKnown := nofun
  sizeHeld := rfl
  sizeKnown := nofun
  formed := by
    have distinct : ["revision", "active_inbound"].Nodup := by decide
    exact ⟨distinct, by decide, implementedVersion.ijson, by decide, trivial, trivial⟩

theorem withContentTypes_written (written : entry.Written)
    (made : entry.withContentTypes types = some typed) : typed.Written := by
  unfold withContentTypes at made
  split at made
  · cases made
  next known =>
  cases made
  have known : ∀ t ∈ types, (isCoreType t || isExtensionType t) = true :=
    all_eq_true.mp (by simpa only [Bool.not_eq_true', Bool.not_eq_false] using known)
  have strings : (array (types.map .string)).WellFormed := by
    refine wellFormedItems_iff.mpr fun v held => ?_
    obtain ⟨t, listed, rfl⟩ := mem_map.mp held
    exact (partType_ascii (known t listed)).ijson
  refine ⟨written.revision, ?_, ?_, ?_, ?_, ?_, written.sizeKnown,
    wellFormed_insert written.formed (by decide) strings⟩
  · exact (get_insert _ _ _ _).trans written.revisionHeld
  · exact (get_insert _ _ _ _).trans written.activeHeld
  · exact get_insert _ _ _ _
  · rintro _ ⟨⟩
    exact known
  · exact (get_insert _ _ _ _).trans written.sizeHeld

theorem withMaxEnvelopeOctets_written (written : entry.Written)
    (made : entry.withMaxEnvelopeOctets octets = some sized) : sized.Written := by
  revert made
  fun_cases withMaxEnvelopeOctets <;> rintro ⟨⟩
  · next range =>
    refine ⟨written.revision, ?_, ?_, ?_, written.typesKnown, ?_, ?_,
      wellFormed_insert written.formed (by decide) ?_⟩
    · exact (get_insert _ _ _ _).trans written.revisionHeld
    · exact (get_insert _ _ _ _).trans written.activeHeld
    · exact (get_insert _ _ _ _).trans written.typesHeld
    · exact get_insert _ _ _ _
    · rintro _ ⟨⟩
      exact range
    · exact JsonNumber.fromU64_number octets

theorem contentTypes_read {types : List String}
    (known : ∀ t ∈ types, (isCoreType t || isExtensionType t) = true) :
    (types.map string).mapM contentType = some types := by
  induction types with
  | nil => rfl
  | cons t rest ih =>
    obtain ⟨first, others⟩ := forall_mem_cons.mp known
    have read : contentType (.string t) = some t := by
      unfold contentType
      rw [asStr, filter_some, if_pos first]
    rw [map_cons, mapM_cons, read, ih others]
    rfl

theorem Written.fromJson (written : entry.Written) (major : Nat) :
    CapabilitiesEntry.fromJson (.object entry.wire) major = if major = 0 then some entry else none := by
  have revisionRead : ((JsonObject.get entry.wire "revision").bind asStr).bind Version.parse =
      some entry.revision := by
    rw [written.revisionHeld, written.revision]
    decide +kernel
  have typesRead : ∀ types ∈ entry.contentTypes, (types.map string).mapM contentType = some types :=
    fun types listed => contentTypes_read (written.typesKnown types listed)
  have sizeRead : ∀ octets ∈ entry.maxEnvelopeOctets,
      (JsonNumber.fromU64 octets).plainIntegerIn defaultMaxEnvelopeOctets maxEnvelopeOctetsLimit =
        some octets := by
    intro octets stated
    obtain ⟨least, most⟩ := written.sizeKnown octets stated
    exact JsonNumber.plainIntegerIn_fromU64 (Nat.lt_of_le_of_lt most (by decide)) least most
  unfold CapabilitiesEntry.fromJson
  simp only [asObject, bind_eq_bind, bind_some, revisionRead, written.activeHeld, asBool,
    filter_some, written.typesHeld, written.sizeHeld]
  by_cases zero : major = 0
  · have same : (entry.revision.major == major) = true := by
      rw [written.revision, zero]
      rfl
    rw [if_pos zero, if_pos same]
    obtain ⟨revision, activeInbound, contentTypes, maxEnvelopeOctets, wire⟩ := entry
    cases contentTypes with
    | none =>
      cases maxEnvelopeOctets with
      | none => rfl
      | some octets => simp [asNumber, sizeRead octets rfl]
    | some types =>
      cases maxEnvelopeOctets with
      | none => simp [asArray, typesRead types rfl]
      | some octets => simp [asArray, typesRead types rfl, asNumber, sizeRead octets rfl]
  · have different : ¬ (entry.revision.major == major) = true := by
      rw [written.revision, beq_iff_eq]
      exact Ne.symm zero
    rw [if_neg zero, if_neg different]
    rfl

theorem ofAdapter_eq_some (made : ofAdapter caps limit = some entry) :
    entry.Written ∧ entry.activeInbound = caps.activeInbound ∧
      entry.contentTypes = (if caps.contentTypes.isEmpty then none else some caps.contentTypes) ∧
      entry.maxEnvelopeOctets = declaredLimit caps.maxEnvelopeOctets limit := by
  obtain ⟨typed, listed, made⟩ := bind_eq_some_iff.mp made
  have first : typed.Written ∧ typed.activeInbound = caps.activeInbound ∧
      typed.contentTypes = (if caps.contentTypes.isEmpty then none else some caps.contentTypes) ∧
      typed.maxEnvelopeOctets = none := by
    split at listed
    · next empty =>
      cases listed
      exact ⟨new_written caps.activeInbound, rfl, by rw [if_pos empty]; rfl, rfl⟩
    · next some_ =>
      refine ⟨withContentTypes_written (new_written caps.activeInbound) listed, ?_⟩
      revert listed
      fun_cases withContentTypes <;> rintro ⟨⟩
      exact ⟨rfl, by rw [if_neg some_], rfl⟩
  obtain ⟨written, active, types, unsized⟩ := first
  cases declared : declaredLimit caps.maxEnvelopeOctets limit with
  | none =>
    rw [declared] at made
    cases made
    exact ⟨written, active, types, unsized⟩
  | some octets =>
    rw [declared] at made
    refine ⟨withMaxEnvelopeOctets_written written made, ?_⟩
    unfold Option.elim withMaxEnvelopeOctets at made
    dsimp only at made
    split at made
    · cases made
      exact ⟨active, types, rfl⟩
    · cases made

end CapabilitiesEntry

namespace SessionCapabilities

theorem foldl_higher (entries : List Agreed) (best : Option Agreed) :
    entries.foldl higher best = best ∨ ∃ a ∈ entries, entries.foldl higher best = some a := by
  induction entries generalizing best with
  | nil => exact .inl rfl
  | cons a rest ih =>
    have step : higher best a = best ∨ higher best a = some a := by
      cases best with
      | none => exact .inr rfl
      | some b => exact (ite_eq_or_eq _ _ _).symm
    obtain same | ⟨c, held, same⟩ := ih (higher best a)
    · obtain kept | taken := step
      · exact .inl (same.trans kept)
      · exact .inr ⟨a, mem_cons_self, same.trans taken⟩
    · exact .inr ⟨c, mem_cons_of_mem _ held, same⟩

theorem agree_mem {caps : SessionCapabilities}
    (found : caps.agree implemented = some agreed) : agreed ∈ caps.validEntries implemented := by
  unfold agree at found
  obtain none_ | ⟨a, held, same⟩ := foldl_higher (caps.validEntries implemented) none
  · rw [none_] at found
    cases found
  · rw [same] at found
    cases found
    exact held

def Declares (caps : SessionCapabilities) (entry : CapabilitiesEntry) : Prop :=
  caps.wire = .object [(extensionIdV0, .object entry.wire)] ∧ entry.Written

variable {caps : SessionCapabilities} {entry : CapabilitiesEntry}
  {implemented : List Implemented} {agreed : Agreed}

theorem Declares.mem_validEntries (declares : caps.Declares entry) :
    agreed ∈ caps.validEntries implemented ↔ ∃ imp ∈ implemented, imp.extension = extensionIdV0 ∧
      imp.major = 0 ∧ agreed = ⟨imp.extension, imp.major, imp.revision, entry⟩ := by
  have valid (imp : Implemented) : validEntry [(extensionIdV0, .object entry.wire)] imp =
      if imp.extension = extensionIdV0 ∧ imp.major = 0 then some ⟨imp.extension, imp.major, imp.revision, entry⟩
      else none := by
    unfold validEntry
    by_cases named : imp.extension = extensionIdV0
    · have found : JsonObject.get [(extensionIdV0, .object entry.wire)] imp.extension =
          some (.object entry.wire) := by
        rw [named]
        rfl
      rw [found]
      simp only [bind_eq_bind, bind_some, declares.2.fromJson imp.major]
      by_cases zero : imp.major = 0
      · rw [if_pos zero, if_pos ⟨named, zero⟩]
        rfl
      · rw [if_neg zero, if_neg fun both => zero both.2]
        rfl
    · have absent : JsonObject.get [(extensionIdV0, .object entry.wire)] imp.extension = none := by
        simp [JsonObject.get, Ne.symm named]
      rw [absent, if_neg fun both => named both.1]
      rfl
  unfold validEntries
  rw [declares.1]
  simp only [asObject, mem_filterMap, valid, ite_none_right_eq_some, some.injEq]
  constructor
  · rintro ⟨imp, there, ⟨named, zero⟩, rfl⟩
    exact ⟨imp, there, named, zero, rfl⟩
  · rintro ⟨imp, there, named, zero, rfl⟩
    exact ⟨imp, there, ⟨named, zero⟩, rfl⟩

theorem Declares.agree_eq_some (declares : caps.Declares entry)
    (found : caps.agree implemented = some agreed) :
    agreed.entry = entry ∧
      ∃ imp ∈ implemented, imp.extension = extensionIdV0 ∧ imp.major = 0 ∧ agreed.revision = imp.revision := by
  obtain ⟨imp, there, named, zero, rfl⟩ := declares.mem_validEntries.mp (agree_mem found)
  exact ⟨rfl, imp, there, named, zero, rfl⟩

end SessionCapabilities

theorem sessionDescriptor_declares (made : sessionDescriptor session caps limit display label = some d) :
    ∃ entry, CapabilitiesEntry.ofAdapter caps limit = some entry ∧ d.capabilities.Declares entry := by
  simp only [sessionDescriptor, bind_eq_bind, bind_eq_some_iff] at made
  obtain ⟨entry, forAdapter, declaration, declared, made⟩ := made
  refine ⟨entry, forAdapter, ?_, (CapabilitiesEntry.ofAdapter_eq_some forAdapter).1⟩
  revert declared
  fun_cases SessionCapabilities.declare <;> rintro ⟨⟩
  unfold SessionDescriptor.new at made
  split at made
  · cases made
  · cases made
    rfl

end Oac
