import Oac.Pairing.ExchangeProofs
import Oac.Pairing.MachineProofs
import Oac.Pairing.Substitution

/-! One pairing that the operator started yields at most one peer: the responder answers one offer
and shows one code, the session of a code confirms one peer, and the daemon does no more than they
do, whatever lines it is sent. -/

namespace Oac

open Logs DevicePairing

section Pairing

variable [Libraries] [PairingDigests]

/-- The sessions that a pairing started at `start` can end with. -/
inductive PairingSession.Produced (start : Timestamp) (session : PairingSession) : Prop
  | initiator {initiator : PairingInitiator} {response : PairingResponse}
      {now : Timestamp} {reveal : PairingReveal}
      (started : initiator.started = start) (received : initiator.receive response now = .ok (session, reveal))
  | responder {responder : PairingResponder} {reveal : PairingReveal} {now : Timestamp}
      (started : responder.started = start) (received : responder.receive reveal now = .ok session)

/-- A code covers a peer when the peer's key and principal went into it, and the peer's statement is
the one whose values went into it; without a statement, none was accepted. -/
def CodeCovers (code : String) (peer : PairedPeer) : Prop :=
  ∃ party other : Party, (code = pairingCode party other ∨ code = pairingCode other party) ∧
    party.principal = peer.record.principal ∧ party.publicKey = peer.record.publicKey ∧
    party.value.accepted = peer.statement.bind AgreementStatement.claimedValues ∧
    (peer.statement.isSome → party.value.accepted.isSome)

omit [PairingDigests] in
theorem carried_statement :
    let judged := judgeWith ownSet principal key statement now
    let carried := statement.filter fun _ => judged.accepted.isSome
    judged.accepted = carried.bind AgreementStatement.claimedValues ∧
      (carried.isSome → judged.accepted.isSome) := by
  cases judged : judgeWith ownSet principal key statement now with
  | given v =>
    obtain ⟨s, trusted, held, rfl, -, checked, -, rfl⟩ := judgeWith_given judged
    have claimed := (checkStatement_eq_ok.mp checked).2.2.1
    exact ⟨claimed.symm, fun _ => rfl⟩
  | none | refused => cases statement <;> exact ⟨rfl, nofun⟩

namespace PairingSession

theorem Produced.spec (produced : Produced start session) :
    session.state = .opened pairingMaxAttempts ∧ session.started = start ∧
      ∀ now, CodeCovers session.code
        ⟨⟨session.peerPrincipal, session.peerPublicKey, now, none⟩, session.peerStatement⟩ := by
  cases produced with
  | initiator started received =>
    obtain ⟨-, -, -, rfl⟩ := PairingInitiator.receive_eq_ok.mp received
    exact ⟨rfl, started, fun now => ⟨_, _, .inr rfl, rfl, rfl, carried_statement⟩⟩
  | responder started received =>
    obtain ⟨-, -, rfl⟩ := PairingResponder.receive_eq_ok.mp received
    exact ⟨rfl, started, fun now => ⟨_, _, .inl rfl, rfl, rfl, carried_statement⟩⟩

end PairingSession

/-- One pairing, one peer. In the first part any calls are made on the responder, in the second any
calls on a session that a pairing produced, and in the third any lines are sent to the daemon in
either role. -/
theorem one_pairing_one_peer (own : DeviceIdentity) (statement : Option AgreementStatement)
    (start : Timestamp) :
    (∀ calls : List ResponderCall,
      let lines := log (ResponderPairing.respond own) calls (.startWith start statement)
      lines.countP (fun l => l.answer.isResponse) ≤ 1 ∧ lines.countP (fun l => l.answer.isSession) ≤ 1 ∧
      ∀ call session, (ResponderPairing.respond own call
          (after (ResponderPairing.respond own) calls (.startWith start statement))).2 = .session (.ok session) →
        session.Produced start ∧
        ∃ reveal now, call = .reveal reveal now ∧ now.unixNanos < pairingDeadline start ∧
          ∃ l ∈ lines, ∃ offer nonce then_ response, l.call = .answer offer nonce then_ ∧
            l.answer = .response (.ok response) ∧
            commitment ⟨offer.principal, offer.publicKey, .ofOwn offer.agreementStatement,
              reveal.nonce⟩ = offer.commitment) ∧
    (∀ session : PairingSession, session.Produced start → ∀ calls : List ConfirmCall,
      let lines := log PairingSession.confirm calls session
      lines.countP (fun l => l.answer.isOk) ≤ 1 ∧
      ∀ call peer, (PairingSession.confirm call (after PairingSession.confirm calls session)).2 = .ok peer →
        call.now.unixNanos < pairingDeadline start ∧
          (∀ text now, call = .entered text now → text = session.code) ∧
        lines.countP (fun l => l.call.wrong session.code start) < pairingMaxAttempts ∧
        CodeCovers session.code peer) ∧
    (∀ (readBlob : String → Option Blob) (role : Role) (nonce : PairingNonce) (calls : List MachineCall),
      let lines := log (Machine.take readBlob own) calls (Machine.opened role own statement nonce start).1
      lines.countP Machine.took ≤ 1 ∧ (∀ l ∈ lines, l.answer.reveals.isSome → Machine.took l = true) ∧
      lines.countP (fun l => l.answer.isResponse) ≤ 1 ∧ lines.countP (fun l => l.answer.isConfirmed) ≤ 1 ∧
      ∀ l ∈ lines, l.answer.isConfirmed →
        ∃ line, l.call = .line line ∧ line.now.unixNanos < pairingDeadline start) := by
  refine ⟨fun calls => ⟨ResponderPairing.one_response own calls _,
    ResponderPairing.one_session own calls _, ?_⟩, ?_, fun readBlob role nonce calls => ?_⟩
  · intro call session produced
    obtain ⟨reveal, now, responder, rfl, received, l, written, offer, nonce, then_,
      response, called, said, made⟩ :=
      ResponderPairing.session_origin produced
    obtain ⟨-, rfl, -⟩ := PairingResponder.respondInner_eq_ok.mp made
    obtain ⟨within, committed, -⟩ := PairingResponder.receive_eq_ok.mp received
    exact ⟨.responder rfl received, reveal, now, rfl, within, l, written, offer,
      nonce, then_, response, called, said, committed⟩
  · intro session produced calls
    obtain ⟨fresh, started, covers⟩ := produced.spec
    refine ⟨PairingSession.one_peer calls session, fun call peer confirmed => ?_⟩
    obtain ⟨⟨within, right⟩, few, rfl⟩ := PairingSession.peer_origin fresh confirmed
    rw [started] at within few
    exact ⟨within, right, few, covers call.now⟩
  · have started : (Machine.opened role own statement nonce start).1.started = start := by
      cases role <;> rfl
    refine ⟨Machine.one_response_taken calls _, Machine.reveals_when_taken calls _,
      Machine.one_offer_answered calls _,
      Machine.one_peer_confirmed calls (Machine.opened_sound role statement nonce start), ?_⟩
    have within := @Machine.confirmed_within _ _ readBlob own calls
      (Machine.opened role own statement nonce start).1
    rwa [started] at within

end Pairing

section Sample

open PairingSession
open AuthorizationEngine (sampleLibraries)

attribute [local instance] sampleLibraries plainDigests

theorem sample_attempts {session : PairingSession} (other : "" ≠ session.code)
    (fresh : session.state = .opened 5) (started : session.started = .epoch) :
    (confirm (.entered session.code .epoch)
      (after confirm (.replicate 4 (.entered "" .epoch)) session)).2 = .ok (session.complete .epoch).2 ∧
    ¬ (log confirm (.replicate 5 (.entered "" .epoch)) session).countP
      (fun l => l.call.wrong session.code .epoch) < pairingMaxAttempts := by
  simp [after, List.replicate, confirm, confirmEntered, checkOpen, fresh, started, other, log, line,
    Int.not_le.mpr sample_within, complete, ConfirmCall.wrong, sample_within, pairingMaxAttempts]

/-- After four wrong entries the code still confirms the peer, and after five it does not. -/
theorem one_pairing_one_peer_sample :
    let session := samplePairing sampleGiven
    (∃ peer, (confirm (.entered session.code .epoch)
      (after confirm (.replicate 4 (.entered "" .epoch)) session)).2 = .ok peer ∧ CodeCovers session.code peer) ∧
    ∀ peer, (confirm (.entered session.code .epoch)
      (after confirm (.replicate 5 (.entered "" .epoch)) session)).2 ≠ .ok peer := by
  have confirms := (one_pairing_one_peer sampleInitiating.toDeviceIdentity none .epoch).2.1 _
    (.initiator rfl (sample_initiated sampleGiven))
  have other : "" ≠ (samplePairing sampleGiven).code :=
    fun same => List.cons_ne_nil _ _ (String.ofList_injective same).symm
  obtain ⟨fifth, sixth⟩ := sample_attempts other rfl rfl
  exact ⟨⟨_, fifth, ((confirms _).2 _ _ fifth).2.2.2⟩,
    fun peer confirmed => sixth ((confirms _).2 _ peer confirmed).2.2.1⟩

end Sample

end Oac
