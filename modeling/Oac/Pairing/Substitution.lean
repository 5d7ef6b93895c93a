import Oac.Agreement.Issue
import Oac.Authorization.Decisions
import Oac.Pairing.CallsProofs
import Oac.Pairing.ExchangeProofs

/-! Pairing against a channel that replaces, drops and replays what it carries: two sessions that
show the same code are the two sides of one exchange. -/

namespace Oac

open Logs PairingResponder PairingInitiator ResponderPairing

section Exchange

variable [Libraries] [PairingDigests]

/-- The code is one of the octets it is derived from: no two inputs share a code. -/
def PairingDigests.CodeInjective : Prop :=
  Set.InjOn PairingDigests.code {octets | ∃ i r, codeInput i r = octets}

omit [Libraries] in
theorem pairingCode_injective (codes : PairingDigests.CodeInjective)
    (fits : i.value.Fits ∧ r.value.Fits)
    (fits' : i'.value.Fits ∧ r'.value.Fits) (same : pairingCode i r = pairingCode i' r') :
    i = i' ∧ r = r' :=
  codeInput_injective fits fits' (codes ⟨i, r, rfl⟩ ⟨i', r', rfl⟩ same)

variable {initiating responding : SigningDevice}
  {givenByInitiator givenByResponder : Option AgreementStatement}
  {nonceI nonceR : PairingNonce} {startI startR nowI nowR : Timestamp}
  {offer : PairingOffer} {response answer : PairingResponse}
  {reveal revealed : PairingReveal} {responder : PairingResponder}
  {sessionI sessionR : PairingSession}

/-- The two sides of one exchange, as their sessions show it: each side's peer is the other side,
with the statement value that side has of its own statement. -/
structure Matching (initiating responding : DeviceIdentity)
    (sessionI sessionR : PairingSession) : Prop where
  initiatorSees : sessionI.peerPrincipal = responding.entry.principal ∧
    sessionI.peerPublicKey = responding.entry.publicKey ∧ sessionI.peerValue = sessionR.ownValue
  responderSees : sessionR.peerPrincipal = initiating.entry.principal ∧
    sessionR.peerPublicKey = initiating.entry.publicKey ∧ sessionR.peerValue = sessionI.ownValue

/-- The statement that arrived is not the one that was given: it was removed, added, or has other
values. -/
def Altered (sent arrived : Option AgreementStatement) : Prop :=
  StatementValue.ofOwn arrived ≠ StatementValue.ofOwn sent

section SameCode

variable (codes : PairingDigests.CodeInjective)
  (initiated : (startInner initiating.toDeviceIdentity givenByInitiator nonceI startI).1.receive
    response nowI = .ok (sessionI, revealed))
  (answered : respondInner responding.toDeviceIdentity givenByResponder offer nonceR startR =
    .ok (responder, answer))
  (received : responder.receive reveal nowR = .ok sessionR) (same : sessionI.code = sessionR.code)

include codes initiated answered received same

/-- Equal codes of an initiator that took `response` and a responder that answered `offer` and took
`reveal`. -/
theorem same_code :
    Matching initiating.toDeviceIdentity responding.toDeviceIdentity sessionI sessionR ∧
      (reveal.nonce = nonceI ∧ response.nonce = nonceR) := by
  obtain ⟨-, -, -, rfl⟩ := receive_eq_ok.mp initiated
  obtain ⟨-, rfl, -⟩ := respondInner_eq_ok.mp answered
  obtain ⟨-, -, rfl⟩ := receive_eq_ok.mp received
  obtain ⟨initiator, responder⟩ := pairingCode_injective codes
    ⟨StatementValue.ofOwn_fits givenByInitiator, judgeWith_fits⟩
      ⟨judgeWith_fits, StatementValue.ofOwn_fits givenByResponder⟩ same
  injection initiator with principal key value nonce
  injection responder with principal' key' value' nonce'
  exact ⟨⟨⟨principal', key', value'⟩, ⟨principal.symm, key.symm, value.symm⟩⟩, nonce.symm, nonce'⟩

theorem same_code_statements (honestI : initiating.Gives givenByInitiator)
    (honestR : responding.Gives givenByResponder) :
    (sessionI.peerValue ≠ .refused ∧ ¬ Altered givenByResponder response.agreementStatement) ∧
      (sessionR.peerValue ≠ .refused ∧ ¬ Altered givenByInitiator offer.agreementStatement) := by
  obtain ⟨⟨⟨-, -, seesI⟩, ⟨-, -, seesR⟩⟩, -⟩ := same_code codes initiated answered received same
  obtain ⟨-, -, -, rfl⟩ := receive_eq_ok.mp initiated
  obtain ⟨-, rfl, -⟩ := respondInner_eq_ok.mp answered
  obtain ⟨-, -, rfl⟩ := receive_eq_ok.mp received
  have seesI : judgeWith (.ofDevice initiating.toDeviceIdentity) response.principal
      response.publicKey response.agreementStatement nowI = .ofOwn givenByResponder := seesI
  have seesR : judgeWith (.ofDevice responding.toDeviceIdentity) offer.principal offer.publicKey
      offer.agreementStatement nowR = .ofOwn givenByInitiator := seesR
  have takenI := honestR.own_value
  have takenR := honestI.own_value
  rw [← seesI] at takenI
  rw [← seesR] at takenR
  exact ⟨⟨takenI, not_not.mpr ((judgeWith_claimed takenI).trans seesI)⟩,
    ⟨takenR, not_not.mpr ((judgeWith_claimed takenR).trans seesR)⟩⟩

end SameCode

/-- Pairing resists substitution. The initiator took some response, and the responder, after some
calls, answered some offer and took some reveal, each of them honest or not. Equal codes then mean
one exchange between the two devices, and a statement that was refused, removed or replaced makes
the codes differ. -/
theorem pairing_resists_substitution (codes : PairingDigests.CodeInjective)
    (honestI : initiating.Gives givenByInitiator) (honestR : responding.Gives givenByResponder)
    (initiated : (startInner initiating.toDeviceIdentity givenByInitiator nonceI startI).1.receive
      response nowI = .ok (sessionI, revealed))
    {calls : List ResponderCall} {l : Line ResponderPairing ResponderCall ResponderAnswer}
    {nowA : Timestamp}
    (written : l ∈ log (respond responding.toDeviceIdentity) calls
      (.startWith startR givenByResponder))
    (answered : l.call = .answer offer nonceR nowA ∧ l.answer = .response (.ok answer))
    (responded : (respond responding.toDeviceIdentity (.reveal reveal nowR)
      (after (respond responding.toDeviceIdentity) calls (.startWith startR givenByResponder))).2 =
        .session (.ok sessionR)) :
    (sessionI.code = sessionR.code →
      Matching initiating.toDeviceIdentity responding.toDeviceIdentity sessionI sessionR ∧
        (reveal.nonce = nonceI ∧ response.nonce = nonceR)) ∧
    (sessionI.peerValue = .refused ∨ sessionR.peerValue = .refused ∨
        Altered givenByResponder response.agreementStatement ∨
          Altered givenByInitiator offer.agreementStatement →
      sessionI.code ≠ sessionR.code) := by
  obtain ⟨_, _, responder, ⟨⟩, received, l', written', offer', nonce', nowA',
    answer', called, said, made⟩ :=
    session_origin responded
  -- only one offer was answered, so the session is from this one
  have unique : l = l' := unique_of_at_most_once (one_response _ calls _) written written'
    (by rw [answered.2, ResponderAnswer.isResponse]) (by rw [said, ResponderAnswer.isResponse])
  subst unique
  cases answered.1.symm.trans called
  refine ⟨same_code codes initiated made received, fun wrong same => ?_⟩
  obtain ⟨⟨takenI, asGivenR⟩, ⟨takenR, asGivenI⟩⟩ :=
    same_code_statements codes initiated made received same honestI honestR
  rcases wrong with refused | refused | altered | altered
  · exact takenI refused
  · exact takenR refused
  · exact asGivenR altered
  · exact asGivenI altered

end Exchange

section Sample

open AuthorizationEngine (sampleLibraries)

/-- Digests that keep the octets they are given. -/
@[reducible] def plainDigests : PairingDigests where
  commitment octets := octets
  code octets := String.ofList (octets.map fun b => Char.ofNat b.toNat)

attribute [local instance] sampleLibraries plainDigests

theorem plainDigests_injective : PairingDigests.CodeInjective := by
  intro octets _ octets' _ same
  have chars : octets.map (fun b => Char.ofNat b.toNat) = octets'.map fun b => Char.ofNat b.toNat :=
    String.ofList_injective same
  refine List.map_injective_iff.mpr ?_ chars
  intro b b' same
  have every : ∀ n : Fin 256, (Char.ofNat n).toNat = n := by decide +kernel
  have values := congrArg Char.toNat same
  exact UInt8.toNat_inj.mp ((every ⟨_, b.toNat_lt⟩).symm.trans
    (values.trans (every ⟨_, b'.toNat_lt⟩)))

def samplePairingNonce (b : UInt8) : PairingNonce := ⟨List.replicate 32 b, sized_replicate b⟩

def sampleSigner (name : Token) (b : UInt8) : SigningDevice where
  entry := .new name (.replicate b)
  sign _ := ⟨List.replicate 64 b, rfl⟩

def sampleInitiating : SigningDevice := sampleSigner sampleName 0

def sampleResponding : SigningDevice := sampleSigner samplePeerName 1

def sampleAgreementKey : AgreementPublicKey := ⟨9 :: List.replicate 31 0, rfl, by decide +kernel⟩

def sampleGiven : Option AgreementStatement :=
  AgreementStatement.issue sampleResponding sampleAgreementKey 0 .epoch

def sampleStart : PairingInitiator × PairingOffer :=
  startInner sampleInitiating.toDeviceIdentity none (samplePairingNonce 5) .epoch

/-- The response that reaches the initiator, with the statement that the channel lets through. -/
def sampleResponse (statement : Option AgreementStatement) : PairingResponse :=
  ⟨sampleResponding.entry.principal, sampleResponding.entry.publicKey,
    samplePairingNonce 6, statement⟩

def sampleCalls : List ResponderCall :=
  [.ended .epoch, .answer sampleStart.2 (samplePairingNonce 6) .epoch, .ended .epoch]

/-- What the initiator then shows. -/
def samplePairing (statement : Option AgreementStatement) : PairingSession :=
  let judged := judgeWith (.ofDevice sampleInitiating.toDeviceIdentity)
    sampleResponding.entry.principal sampleResponding.entry.publicKey statement .epoch
  .new sampleResponding.entry.principal sampleResponding.entry.publicKey
    (pairingCode ⟨sampleInitiating.entry.principal, sampleInitiating.entry.publicKey,
      .none, samplePairingNonce 5⟩
      ⟨sampleResponding.entry.principal, sampleResponding.entry.publicKey, judged,
        samplePairingNonce 6⟩)
    .epoch .none judged statement

theorem sample_within : Timestamp.epoch.unixNanos < pairingDeadline .epoch := by decide +kernel

theorem sample_differ : sampleResponding.entry.publicKey ≠
    sampleInitiating.entry.publicKey := by decide +kernel

theorem sample_initiated (statement : Option AgreementStatement) :
    sampleStart.1.receive (sampleResponse statement) .epoch =
      .ok (samplePairing statement, ⟨samplePairingNonce 5⟩) :=
  PairingInitiator.receive_eq_ok.mpr ⟨sample_differ, sample_within, rfl, rfl⟩

theorem sample_ended (state : ResponderState) (goesOn : ∀ why, state ≠ .ended why) :
    respond sampleResponding.toDeviceIdentity (.ended .epoch) ⟨.epoch, state, sampleGiven⟩ =
      (⟨.epoch, state, sampleGiven⟩, .ended none) := by
  simp only [respond, ended, lapse, if_neg (Int.not_le.mpr sample_within)]
  cases state with
  | ended why => exact absurd rfl (goesOn why)
  | awaitingOffer | awaitingReveal | completed => rfl

/-- The exchange shows one code, and an initiator that the channel kept the statement from shows
another. -/
theorem pairing_resists_substitution_sample : ∃ sessionR : PairingSession,
    (respond sampleResponding.toDeviceIdentity (.reveal ⟨samplePairingNonce 5⟩ .epoch)
      (after (respond sampleResponding.toDeviceIdentity) sampleCalls
        (.startWith .epoch sampleGiven))).2 = .session (.ok sessionR) ∧
    ((samplePairing sampleGiven).code = sessionR.code ∧ Matching sampleInitiating.toDeviceIdentity
      sampleResponding.toDeviceIdentity (samplePairing sampleGiven) sessionR) ∧
    (samplePairing none).code ≠ sessionR.code := by
  have judged : judgeWith (.ofDevice sampleInitiating.toDeviceIdentity)
      sampleResponding.entry.principal sampleResponding.entry.publicKey sampleGiven .epoch =
        .ofOwn sampleGiven := by decide +kernel
  obtain ⟨responder, sessionR, answered, received, same⟩ : ∃ responder sessionR,
      respondInner sampleResponding.toDeviceIdentity sampleGiven sampleStart.2
        (samplePairingNonce 6) .epoch = .ok (responder, sampleResponse sampleGiven) ∧
      responder.receive ⟨samplePairingNonce 5⟩ .epoch = .ok sessionR ∧
      (samplePairing sampleGiven).code = sessionR.code := by
    refine ⟨_, _, respondInner_eq_ok.mpr ⟨sample_differ.symm, rfl, rfl⟩,
      PairingResponder.receive_eq_ok.mpr ⟨sample_within, rfl, rfl⟩, ?_⟩
    simp only [samplePairing, judged]
    rfl
  have first := @respond_answer _ _ sampleResponding.toDeviceIdentity ⟨.epoch, .awaitingOffer,
    sampleGiven⟩ sampleStart.2 (samplePairingNonce 6) .epoch responder _ rfl sample_within answered
  have last := @respond_reveal _ _ sampleResponding.toDeviceIdentity
    ⟨.epoch, .awaitingReveal responder, sampleGiven⟩ responder .epoch sessionR
      ⟨samplePairingNonce 5⟩ rfl received
  have awaiting : ∀ why, ResponderState.awaitingOffer ≠ .ended why := by rintro _ ⟨⟩
  have revealing : ∀ why, ResponderState.awaitingReveal responder ≠ .ended why := by rintro _ ⟨⟩
  have responded :
    (respond sampleResponding.toDeviceIdentity (.reveal ⟨samplePairingNonce 5⟩ .epoch)
      (after (respond sampleResponding.toDeviceIdentity) sampleCalls
        (.startWith .epoch sampleGiven))).2 = .session (.ok sessionR) := by
    simp only [after, sampleCalls, List.foldl_cons, List.foldl_nil, startWith_eq]
    rw [sample_ended _ awaiting, first, sample_ended _ revealing, last]
  have written : line (respond sampleResponding.toDeviceIdentity)
      (.answer sampleStart.2 (samplePairingNonce 6) .epoch) ⟨.epoch, .awaitingOffer, sampleGiven⟩ ∈
        log (respond sampleResponding.toDeviceIdentity) sampleCalls
          (.startWith .epoch sampleGiven) := by
    simp only [log, sampleCalls, startWith_eq]
    rw [sample_ended _ awaiting]
    exact List.mem_cons_of_mem _ List.mem_cons_self
  have silent : sampleInitiating.Gives none := by rintro _ ⟨⟩
  have honest : sampleResponding.Gives sampleGiven := fun s made => ⟨_, _, _, made⟩
  have resists := fun statement => pairing_resists_substitution plainDigests_injective silent honest
    (sample_initiated statement) written ⟨rfl, congrArg Prod.snd first⟩ responded
  refine ⟨sessionR, responded, ⟨same, ((resists _).1 same).1⟩,
    (resists _).2 (.inr (.inr (.inl ?_)))⟩
  have removed : StatementValue.ofOwn none ≠ .ofOwn sampleGiven := by decide +kernel
  exact removed

end Sample

end Oac
