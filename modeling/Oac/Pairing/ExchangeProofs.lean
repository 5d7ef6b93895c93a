import Oac.AgreementProofs
import Oac.Pairing.Transcript

/-! The sessions an exchange ends with: what was received, what the code covers and what a side
makes of the statement it was given. -/

namespace Oac

theorem StatementValue.ofOwn_fits (statement : Option AgreementStatement) :
    (StatementValue.ofOwn statement).Fits := by
  cases statement with
  | none => trivial
  | some s =>
    cases claimed : s.claimedValues with
    | none => simp only [ofOwn, claimed, Option.elim_none, Fits]
    | some v =>
      have bound := AgreementStatement.claimedValues_seq claimed
      unfold maxStatementSeq at bound
      simp only [ofOwn, claimed, Option.elim_some, Fits]
      omega

variable [Libraries]

section Judging

variable {ownSet : TrustedKeySet} {principal : Token} {key : PublicKey}
  {statement : Option AgreementStatement} {now : Timestamp}

theorem judgeWith_given (judged : judgeWith ownSet principal key statement now = .given v) :
    ∃ s trusted held, statement = some s ∧ ownSet.addPairedKey principal key = .ok trusted ∧
      checkStatement s trusted (fun _ => none) now = .ok held ∧ held.keyId = key.keyId ∧ v = .ofHeld held := by
  revert judged
  fun_cases judgeWith <;> rintro ⟨⟩
  · next s trusted added held checked signer => exact ⟨s, trusted, held, rfl, added, checked, signer, rfl⟩

theorem judgeWith_claimed (taken : judgeWith ownSet principal key statement now ≠ .refused) :
    StatementValue.ofOwn statement = judgeWith ownSet principal key statement now := by
  cases judged : judgeWith ownSet principal key statement now with
  | refused => exact absurd judged taken
  | given v =>
    obtain ⟨s, trusted, held, rfl, -, checked, -, rfl⟩ := judgeWith_given judged
    simp only [StatementValue.ofOwn, (checkStatement_eq_ok.mp checked).2.2.1, Option.elim_some]
  | none =>
    cases statement with
    | none => rfl
    | some s =>
      simp only [judgeWith] at judged
      repeat' split at judged
      all_goals cases judged

theorem judgeWith_fits : (judgeWith ownSet principal key statement now).Fits := by
  by_cases refused : judgeWith ownSet principal key statement now = .refused
  · rw [refused]
    trivial
  · rw [← judgeWith_claimed refused]
    exact StatementValue.ofOwn_fits statement

end Judging

variable [PairingDigests]

theorem PairingInitiator.receive_eq_ok {initiator : PairingInitiator} :
    initiator.receive response now = .ok (session, reveal) ↔
      let peerValue := judgeWith initiator.ownSet response.principal response.publicKey
        response.agreementStatement now
      let code := pairingCode ⟨initiator.principal, initiator.publicKey, initiator.ownValue,
        initiator.nonce⟩ ⟨response.principal, response.publicKey, peerValue, response.nonce⟩
      response.publicKey ≠ initiator.publicKey ∧ now.unixNanos < pairingDeadline initiator.started ∧
        reveal = ⟨initiator.nonce⟩ ∧
        session = .new response.principal response.publicKey code initiator.started
          initiator.ownValue peerValue response.agreementStatement := by
  unfold receive
  constructor
  · intro received
    split at received
    · cases received
    next other =>
    split at received
    · cases received
    next within =>
    cases received
    exact ⟨other, Int.not_le.mp within, rfl, rfl⟩
  · rintro ⟨other, within, rfl, rfl⟩
    rw [if_neg other, if_neg (Int.not_le.mpr within)]

theorem PairingResponder.receive_eq_ok {responder : PairingResponder} :
    responder.receive reveal now = .ok session ↔
      let offer := responder.offer
      let peerValue := judgeWith responder.ownSet offer.principal offer.publicKey offer.agreementStatement now
      let code := pairingCode ⟨offer.principal, offer.publicKey, peerValue, reveal.nonce⟩
        ⟨responder.principal, responder.publicKey, responder.ownValue, responder.nonce⟩
      now.unixNanos < pairingDeadline responder.started ∧
        commitment ⟨offer.principal, offer.publicKey, .ofOwn offer.agreementStatement,
          reveal.nonce⟩ = offer.commitment ∧
        session = .new offer.principal offer.publicKey code responder.started
          responder.ownValue peerValue offer.agreementStatement := by
  unfold receive
  dsimp only
  constructor
  · intro received
    split at received
    · cases received
    next within =>
    split at received
    · cases received
    next committed =>
    cases received
    exact ⟨Int.not_le.mp within, not_not.mp committed, rfl⟩
  · rintro ⟨within, committed, rfl⟩
    rw [if_neg (Int.not_le.mpr within), if_neg (not_not.mpr committed)]

omit [Libraries] [PairingDigests] in
theorem PairingResponder.respondInner_eq_ok {offer : PairingOffer} {nonce : PairingNonce} :
    respondInner own statement offer nonce now = .ok (responder, response) ↔
      offer.publicKey ≠ own.entry.publicKey ∧
      responder = ⟨own.entry.principal, own.entry.publicKey, nonce, offer, now,
        .ofDevice own, .ofOwn statement⟩ ∧
      response = ⟨own.entry.principal, own.entry.publicKey, nonce, statement⟩ := by
  unfold respondInner
  constructor
  · intro responded
    split at responded
    · cases responded
    next other =>
    cases responded
    exact ⟨other, rfl, rfl⟩
  · rintro ⟨other, rfl, rfl⟩
    rw [if_neg other]

end Oac
