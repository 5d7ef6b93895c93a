import Oac.EnvelopeProofs
import Oac.Foundation.Delimited
import Oac.Pairing.Exchange

/-! What is put into the code of a pairing is found again in it: two codes that hash the same octets
hash the same principals, keys, statement values and nonces. -/

namespace Oac

open Framing Utf8 List

abbrev ShortText := {s : String // (encode s.toList).length < 256}

theorem putText_delimited : Delimited fun s : ShortText => putText s.1 := by
  have injective : Function.Injective fun s : ShortText => encode s.1.toList := by
    intro s s' same
    exact Subtype.ext (String.toList_injective (encode_injective same))
  apply led injective
  intro s s' same
  have lengths := congrArg UInt8.toNat same
  rwa [toNat_octet s.2, toNat_octet s'.2] at lengths

section Texts

theorem Ascii.short {s : String} (ascii : Ascii s.toList) (length : s.toList.length < 256) :
    (encode s.toList).length < 256 := by
  rw [encode_ascii_length fun c held => Nat.le_of_lt_succ (ascii c held)]
  exact length

theorem Token.short (p : Token) : (encode p.text.toList).length < 256 := by
  have valid := p.valid
  simp only [isToken, Bool.and_eq_true, decide_eq_true_eq] at valid
  exact (isToken_ascii p.valid).short (by omega)

theorem fractionNanos_length (read : fractionNanos b = some nanos) : b.length ≤ 10 := by
  cases b with
  | nil => exact Nat.zero_le _
  | cons point f =>
    simp only [fractionNanos] at read
    split at read
    next formed =>
      simp only [Bool.and_eq_true, decide_eq_true_eq] at formed
      exact Nat.succ_le_succ formed.2
    · cases read

theorem Timestamp.length_le (t : Timestamp) : t.text.toList.length ≤ 30 := by
  have valid := t.valid
  unfold timestampNanos at valid
  dsimp only at valid
  split at valid
  · cases valid
  simp only [Option.bind_eq_bind, Option.bind_eq_some_iff] at valid
  obtain ⟨_, _, _, _, _, _, _, _, _, _, _, _, _, fraction, _⟩ := valid
  have few := fractionNanos_length fraction
  simp only [slice, length_drop, length_take] at few
  omega

theorem Timestamp.short (t : Timestamp) : (encode t.text.toList).length < 256 :=
  (timestampNanos_ascii t.valid).short (by have := t.length_le; omega)

theorem AgreementPublicKey.short (key : AgreementPublicKey) :
    (encode (Base64url.encode key.octets).toList).length < 256 := by
  apply Ascii.short (Base64url.encode_ascii key.octets)
  rw [Base64url.encode, String.toList_ofList, (Base64url.decodeChunks_encodeChunks key.octets).2, key.sized]
  decide

theorem AgreementPublicKey.fromBase64url_encode (key : AgreementPublicKey) :
    AgreementPublicKey.fromBase64url (Base64url.encode key.octets) = some key := by
  unfold fromBase64url
  rw [Base64url.decodeExact_encode key.sized]
  exact dif_pos ⟨key.sized, key.acceptable⟩

end Texts

section Parts

theorem putPrincipal_delimited : Delimited putPrincipal := by
  have injective : Function.Injective fun p : Token => (⟨p.text, p.short⟩ : ShortText) := by
    intro p p' same
    cases p
    cases p'
    cases same
    rfl
  have found := comp putText_delimited injective
  exact found

theorem issuedAt_delimited : Delimited fun t : Timestamp => putText t.text := by
  have injective : Function.Injective fun t : Timestamp => (⟨t.text, t.short⟩ : ShortText) := by
    intro t t' same
    have texts : t.text = t'.text := congrArg Subtype.val same
    have parsed := t.parse_text_self
    rw [texts, t'.parse_text_self] at parsed
    exact (Option.some.inj parsed).symm
  have found := comp putText_delimited injective
  exact found

theorem agreementKey_delimited :
    Delimited fun key : AgreementPublicKey => putText (Base64url.encode key.octets) := by
  have injective : Function.Injective fun key : AgreementPublicKey =>
      (⟨Base64url.encode key.octets, key.short⟩ : ShortText) := by
    intro key key' same
    have texts : Base64url.encode key.octets = Base64url.encode key'.octets := congrArg Subtype.val same
    have read := key.fromBase64url_encode
    rw [texts, key'.fromBase64url_encode] at read
    exact (Option.some.inj read).symm
  have found := comp putText_delimited injective
  exact found

theorem beOctets_delimited : Delimited fun n : {n : Nat // n < 2 ^ 64} => beOctets n.1 := by
  apply fixed (n := 8)
  · rintro ⟨n, small⟩ ⟨m, small'⟩ same
    simp only [beOctets, map_cons, map_nil, cons.injEq, ← UInt8.toNat_inj, UInt8.toNat_ofNat',
      Nat.shiftRight_eq_div_pow] at same
    have equal : n = m := by grind
    exact Subtype.ext equal
  · intro n
    rfl

theorem publicKey_delimited : Delimited PublicKey.octets := by
  apply fixed
  · rintro ⟨octets, _⟩ ⟨octets', _⟩ same
    cases same
    rfl
  · exact PublicKey.sized

theorem nonce_delimited : Delimited PairingNonce.octets := by
  apply fixed
  · rintro ⟨octets, _⟩ ⟨octets', _⟩ same
    cases same
    rfl
  · exact PairingNonce.sized

end Parts

def StatementValue.Fits : StatementValue → Prop
  | given values => values.seq < 2 ^ 64
  | _ => True

theorem given_delimited : Delimited fun v : {v : ConfirmedValues // v.seq < 2 ^ 64} =>
    putText (Base64url.encode v.1.agreementKey.octets) ++ (beOctets v.1.seq ++ putText v.1.issuedAt.text) := by
  have injective : Function.Injective fun v : {v : ConfirmedValues // v.seq < 2 ^ 64} =>
      (v.1.agreementKey, (⟨v.1.seq, v.2⟩ : {n : Nat // n < 2 ^ 64}), v.1.issuedAt) := by
    rintro ⟨⟨key, seq, at_⟩, _⟩ ⟨⟨key', seq', at_'⟩, _⟩ same
    cases same
    rfl
  have found := comp (append agreementKey_delimited (append beOctets_delimited issuedAt_delimited)) injective
  exact found

theorem putValue_delimited : Delimited fun v : {v : StatementValue // v.Fits} => putValue v.1 := by
  rintro ⟨v, fits⟩ ⟨v', fits'⟩ rest rest' same
  -- the tags tell the three kinds apart
  cases v with
  | none =>
    cases v' with
    | none => exact ⟨rfl, (cons.inj same).2⟩
    | given | refused => cases (cons.inj same).1
  | refused =>
    cases v' with
    | refused => exact ⟨rfl, (cons.inj same).2⟩
    | none | given => cases (cons.inj same).1
  | given values =>
    cases v' with
    | none | refused => cases (cons.inj same).1
    | given values' =>
      obtain ⟨equal, others⟩ := @given_delimited ⟨values, fits⟩ ⟨values', fits'⟩ _ _ (cons.inj same).2
      cases equal
      exact ⟨rfl, others⟩

theorem codeInput_injective (fits : i.value.Fits ∧ r.value.Fits) (fits' : i'.value.Fits ∧ r'.value.Fits)
    (same : codeInput i r = codeInput i' r') : i = i' ∧ r = r' := by
  have same := (cons.inj (append_cancel_left same)).2
  obtain ⟨principal, same⟩ := putPrincipal_delimited same
  obtain ⟨key, same⟩ := publicKey_delimited same
  obtain ⟨value, same⟩ := @putValue_delimited ⟨_, fits.1⟩ ⟨_, fits'.1⟩ _ _ same
  obtain ⟨principal', same⟩ := putPrincipal_delimited same
  obtain ⟨key', same⟩ := publicKey_delimited same
  obtain ⟨value', same⟩ := @putValue_delimited ⟨_, fits.2⟩ ⟨_, fits'.2⟩ _ _ same
  obtain ⟨nonce, same⟩ := nonce_delimited same
  have nonce' := nonce_delimited.injective same
  cases i
  cases r
  cases i'
  cases r'
  cases principal
  cases key
  cases value
  cases principal'
  cases key'
  cases value'
  cases nonce
  cases nonce'
  exact ⟨rfl, rfl⟩

end Oac
