import Oac.EnvelopeProofs
import Oac.Signing

/-! What a signature check that passes has checked. -/

namespace Oac

open Results JsonObject

theorem KeyId.parse_text (parsed : KeyId.parse s = some key) : key.text = s := by
  revert parsed
  fun_cases KeyId.parse <;> rintro ⟨⟩
  rfl

theorem KeyId.parse_text_self (key : KeyId) : KeyId.parse key.text = some key := by
  unfold KeyId.parse
  rw [dif_pos key.valid]

variable {keys : TrustedKeySet}

theorem TrustedKeySet.resolve_of_lookup
    (held : keys.lookup key = some entry) : keys.resolve entry.principal.text key.text = some entry := by
  unfold TrustedKeySet.resolve
  rw [Token.parse_eq_some.mpr rfl, KeyId.parse_text_self]
  simp [held]

theorem TrustedKeySet.resolve_eq_some
    (found : keys.resolve principal keyId = some entry) :
    entry.principal.text = principal ∧ ∃ key : KeyId, key.text = keyId ∧ keys.lookup key = some entry := by
  obtain ⟨token, isToken, found⟩ := Option.bind_eq_some_iff.mp found
  obtain ⟨key, isKey, found⟩ := Option.bind_eq_some_iff.mp found
  obtain ⟨held, same⟩ := Option.filter_eq_some_iff.mp found
  have same : entry.principal = token := by simpa using same
  exact ⟨same ▸ Token.parse_eq_some.mp isToken, key, KeyId.parse_text isKey, held⟩

variable [Libraries]

/-- The security members of `obj` name `entry` of the key set, and its key signed `obj` as it is
under `domain`. -/
structure SignedUnder (domain : SigningDomain) (keys : TrustedKeySet) (obj : JsonObject)
    (entry : TrustedKey) : Prop where
  named : ∃ sec key, get obj "security" = some (.object sec) ∧
    get sec "principal" = some (.string entry.principal.text) ∧
    get sec "key_id" = some (.string key.text) ∧ keys.lookup key = some entry
  signed : ∃ sec text signature input, get obj "security" = some (.object sec) ∧
    get sec "signature" = some (.string text) ∧ Base64url.decodeExact 64 text = some signature ∧
    signingInput domain obj = .ok input ∧ Libraries.verifyStrict entry.publicKey input signature = true

theorem verifyWithRequirement_signed (verified : verifyWithRequirement keys domain obj = .ok entry) :
    SignedUnder domain keys obj entry := by
  unfold verifyWithRequirement at verified
  dsimp only at verified
  obtain ⟨sec, isObject, verified⟩ := bind_eq_ok.mp verified
  obtain ⟨v, member, isObject⟩ := Option.bind_eq_some_iff.mp (okOr_eq_ok.mp isObject)
  rw [asObject_eq_some.mp isObject] at member
  split at verified
  · cases verified
  obtain ⟨principal, principalRead, verified⟩ := bind_eq_ok.mp verified
  obtain ⟨keyId, keyRead, verified⟩ := bind_eq_ok.mp verified
  obtain ⟨text, signatureRead, verified⟩ := bind_eq_ok.mp verified
  -- the domain decides only whether a nonce is read
  cases domain
  all_goals
    obtain ⟨nonce, -, verified⟩ := bind_eq_ok.mp verified
    obtain ⟨found, resolved, verified⟩ := bind_eq_ok.mp verified
    split at verified
    · cases verified
    obtain ⟨signature, decoded, verified⟩ := bind_eq_ok.mp verified
    obtain ⟨input, formed, verified⟩ := bind_eq_ok.mp verified
    split at verified
    · cases verified
    split at verified
    · cases verified
    next passed =>
    cases verified
    obtain ⟨samePrincipal, key, sameKey, held⟩ := TrustedKeySet.resolve_eq_some (okOr_eq_ok.mp resolved)
    refine ⟨⟨sec, key, member, ?_, ?_, held⟩, ⟨sec, text, signature, input, member, ?_, okOr_eq_ok.mp decoded,
      mapError_eq_ok.mp formed, by simpa using passed⟩⟩
    · rw [samePrincipal]
      exact stringMember_eq_some.mp (okOr_eq_ok.mp principalRead)
    · rw [sameKey]
      exact stringMember_eq_some.mp (okOr_eq_ok.mp keyRead)
    · exact stringMember_eq_some.mp (okOr_eq_ok.mp signatureRead)

theorem verifySigned_eq_ok (verified : verifySigned keys domain obj = .ok entry) :
    SignedUnder domain keys obj entry :=
  verifyWithRequirement_signed (mapError_eq_ok.mp verified)

/-- Of the key set, verifying sees only what it holds for the key that is named. -/
theorem verifySigned_of_lookup (verified : verifySigned keys domain obj = .ok entry)
    (kept : ∀ k, keys.lookup k = some entry → keys'.lookup k = some entry) :
    verifySigned keys' domain obj = .ok entry := by
  refine mapError_eq_ok.mpr ?_
  replace verified := mapError_eq_ok.mp verified
  unfold verifyWithRequirement at verified ⊢
  dsimp only at verified ⊢
  obtain ⟨sec, isObject, verified⟩ := bind_eq_ok.mp verified
  refine bind_eq_ok.mpr ⟨sec, isObject, ?_⟩
  split at verified
  · cases verified
  next shaped =>
  rw [if_neg shaped]
  obtain ⟨principal, principalRead, verified⟩ := bind_eq_ok.mp verified
  obtain ⟨keyId, keyRead, verified⟩ := bind_eq_ok.mp verified
  obtain ⟨text, signatureRead, verified⟩ := bind_eq_ok.mp verified
  refine bind_eq_ok.mpr ⟨principal, principalRead, bind_eq_ok.mpr ⟨keyId, keyRead,
    bind_eq_ok.mpr ⟨text, signatureRead, ?_⟩⟩⟩
  cases domain
  all_goals
    obtain ⟨nonce, nonceRead, verified⟩ := bind_eq_ok.mp verified
    obtain ⟨found, resolved, rest⟩ := bind_eq_ok.mp verified
    have same : found = entry := by
      split at rest
      · cases rest
      obtain ⟨_, -, rest⟩ := bind_eq_ok.mp rest
      obtain ⟨_, -, rest⟩ := bind_eq_ok.mp rest
      split at rest
      · cases rest
      split at rest
      · cases rest
      cases rest
      rfl
    subst same
    obtain ⟨rfl, key, rfl, held⟩ := TrustedKeySet.resolve_eq_some (okOr_eq_ok.mp resolved)
    exact bind_eq_ok.mpr ⟨nonce, nonceRead, bind_eq_ok.mpr
      ⟨found, okOr_eq_ok.mpr (TrustedKeySet.resolve_of_lookup (kept key held)), rest⟩⟩

theorem authenticate_eq_ok (authenticated : authenticate msg keys = .ok passed) :
    ∃ entry, SignedUnder .envelope keys msg.envelope.wire entry ∧
      passed = msg.verified entry.securityPrincipal := by
  revert authenticated
  fun_cases authenticate <;> rintro ⟨⟩
  · next entry verified => exact ⟨entry, verifyWithRequirement_signed verified, rfl⟩

end Oac
