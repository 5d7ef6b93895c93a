import Oac.Pairing.Calls

/-! Whole runs of the two state machines of a pairing: a responder answers one offer and produces
one session, from the offer it answered, and a session produces one peer. -/

namespace Oac

open Logs List

namespace ResponderPairing

variable [Libraries] [PairingDigests] (own : DeviceIdentity)

theorem one_response (calls : List ResponderCall) (p : ResponderPairing) :
    (log (respond own) calls p).countP (fun l => l.answer.isResponse) ≤ 1 := by
  refine at_most_once (fun _ => True) (fun p => p.state ≠ .awaitingOffer) trivial
    (fun _ _ _ => trivial) ?_ ?_ calls
  · intro call p _ done
    have effect := respond_effect own call p
    simp only [line] at done
    generalize p.respond own call = out at effect done ⊢
    cases effect with
    | kept noResponse _ => cases done.symm.trans noResponse
    | ended _ noResponse _ => cases done.symm.trans noResponse
    | answered waiting _ => exact ⟨fun spent => spent waiting, nofun⟩
    | revealed => cases done
  · intro call p _ spent
    have effect := respond_effect own call p
    generalize p.respond own call = out at effect ⊢
    cases effect with
    | kept => exact spent
    | ended | answered | revealed => nofun

def Over (p : ResponderPairing) : Prop := p.state = .completed ∨ ∃ why, p.state = .ended why

theorem one_session (calls : List ResponderCall) (p : ResponderPairing) :
    (log (respond own) calls p).countP (fun l => l.answer.isSession) ≤ 1 := by
  refine at_most_once (fun _ => True) Over trivial (fun _ _ _ => trivial) ?_ ?_ calls
  · intro call p _ done
    have effect := respond_effect own call p
    simp only [line] at done
    generalize p.respond own call = out at effect done ⊢
    cases effect with
    | kept _ noSession => cases done.symm.trans noSession
    | ended _ _ noSession => cases done.symm.trans noSession
    | answered => cases done
    | revealed waiting _ =>
      refine ⟨?_, .inl rfl⟩
      rintro (spent | ⟨why, spent⟩) <;> cases spent.symm.trans waiting
  · intro call p _ spent
    have effect := respond_effect own call p
    generalize p.respond own call = out at effect ⊢
    cases effect with
    | kept => exact spent
    | ended why => exact .inr ⟨why, rfl⟩
    | answered waiting _ => rcases spent with spent | ⟨why, spent⟩ <;> cases spent.symm.trans waiting
    | revealed => exact .inl rfl

/-- An offer was answered, and `responder` is what its answer left behind. -/
def AnsweredAs (started : Timestamp) (statement : Option AgreementStatement) (responder : PairingResponder)
    (l : Line ResponderPairing ResponderCall ResponderAnswer) : Prop :=
  ∃ offer nonce now response, l.call = .answer offer nonce now ∧ l.answer = .response (.ok response) ∧
    PairingResponder.respondInner own statement offer nonce started = .ok (responder, response)

variable {own}

theorem awaiting_answered {started : Timestamp} {statement : Option AgreementStatement}
    (calls : List ResponderCall) :
    let p := after (respond own) calls (startWith started statement)
    p.started = started ∧ p.statement = statement ∧ ∀ responder, p.state = .awaitingReveal responder →
      ∃ l ∈ log (respond own) calls (startWith started statement),
        AnsweredAs own started statement responder l := by
  refine history (P := fun lines p => p.started = started ∧ p.statement = statement ∧
    ∀ responder, p.state = .awaitingReveal responder → ∃ l ∈ lines, AnsweredAs own started statement responder l)
    ?_ ?_ calls
  · rw [startWith_eq]
    exact ⟨rfl, rfl, nofun⟩
  · intro lines p call ⟨same, given, waits⟩
    have effect := respond_effect own call p
    simp only [line]
    generalize p.respond own call = out at effect ⊢
    cases effect with
    | kept =>
      refine ⟨same, given, fun responder waiting => ?_⟩
      obtain ⟨l, earlier, answered⟩ := waits responder waiting
      exact ⟨l, mem_append_left _ earlier, answered⟩
    | ended | revealed => exact ⟨same, given, nofun⟩
    | answered waiting responded =>
      refine ⟨same, given, fun responder waiting => ?_⟩
      cases waiting
      rw [same, given] at responded
      exact ⟨_, mem_append_right _ (mem_singleton.mpr rfl), _, _, _, _, rfl, rfl, responded⟩

/-- A session comes from the reveal of the nonce committed to in the answered offer. -/
theorem session_origin {started : Timestamp} {statement : Option AgreementStatement}
    (produced : (respond own call (after (respond own) calls (startWith started statement))).2 =
      .session (.ok session)) :
    ∃ reveal now responder, call = .reveal reveal now ∧ responder.receive reveal now = .ok session ∧
      ∃ l ∈ log (respond own) calls (startWith started statement),
        AnsweredAs own started statement responder l := by
  obtain ⟨-, -, waits⟩ := @awaiting_answered _ _ own started statement calls
  generalize after (respond own) calls (startWith started statement) = p at produced waits
  have effect := respond_effect own call p
  generalize p.respond own call = out at effect produced
  cases effect with
  | kept _ noSession =>
    cases produced
    cases noSession
  | ended _ _ noSession =>
    cases produced
    cases noSession
  | answered => cases produced
  | revealed waiting received =>
    cases produced
    exact ⟨_, _, _, rfl, received, waits _ waiting⟩

omit [Libraries] [PairingDigests] in
theorem answer_spent (p : ResponderPairing) (offer : PairingOffer) (nonce : PairingNonce)
    (now : Timestamp) : (p.answer own offer nonce now).1.state ≠ .awaitingOffer := by
  unfold answer
  split
  · nofun
  · nofun
  next spent =>
    rw [spent]
    nofun
  · split
    · nofun
    · split <;> nofun

theorem reveal_spent (p : ResponderPairing) (reveal : PairingReveal) (now : Timestamp) :
    (p.reveal reveal now).1.state ≠ .awaitingOffer := by
  fun_cases ResponderPairing.reveal <;> nofun

variable {p : ResponderPairing}

omit [Libraries] [PairingDigests] in
theorem abandon_spent (spent : p.state ≠ .awaitingOffer) : p.abandon.state ≠ .awaitingOffer := by
  unfold abandon
  split
  · exact spent
  · exact spent
  · nofun

omit [Libraries] [PairingDigests] in
theorem answer_first (answered : (p.answer own offer nonce now).2 = .ok response) :
    p.state = .awaitingOffer := by
  revert answered
  fun_cases answer <;> rintro ⟨⟩
  assumption

theorem respond_answer {offer : PairingOffer} {nonce : PairingNonce} {now : Timestamp}
    {responder : PairingResponder} {response : PairingResponse} (waiting : p.state = .awaitingOffer)
    (within : now.unixNanos < pairingDeadline p.started)
    (responded : PairingResponder.respondInner own p.statement offer nonce p.started =
      .ok (responder, response)) :
    p.respond own (.answer offer nonce now) =
      ({ p with state := .awaitingReveal responder }, .response (.ok response)) := by
  simp only [respond, answer, waiting, responded, if_neg (Int.not_le.mpr within)]
  rfl

theorem respond_reveal {reveal : PairingReveal} (waiting : p.state = .awaitingReveal responder)
    (received : responder.receive reveal now = .ok session) :
    p.respond own (.reveal reveal now) = ({ p with state := .completed }, .session (.ok session)) := by
  simp only [respond, ResponderPairing.reveal, waiting, received]
  rfl

end ResponderPairing

namespace PairingSession

theorem one_peer (calls : List ConfirmCall) (s : PairingSession) :
    (log confirm calls s).countP (fun l => l.answer.isOk) ≤ 1 := by
  refine at_most_once (fun _ => True) (fun s => ∀ n, s.state ≠ .opened n) trivial
    (fun _ _ _ => trivial) ?_ ?_ calls
  · intro call s _ done
    have effect := confirm_effect call s
    simp only [line] at done
    generalize s.confirm call = out at effect done ⊢
    cases effect with
    | kept | wrong => cases done
    | confirmed opened _ => exact ⟨fun spent => spent _ opened, nofun⟩
  · intro call s _ spent
    have effect := confirm_effect call s
    generalize s.confirm call = out at effect ⊢
    cases effect with
    | kept => exact spent
    | wrong opened => exact absurd opened (spent _)
    | confirmed => nofun

/-- The part of a session that no call changes. -/
def SamePeer (s s' : PairingSession) : Prop :=
  s'.peerPrincipal = s.peerPrincipal ∧ s'.peerPublicKey = s.peerPublicKey ∧ s'.started = s.started ∧
    s'.code = s.code

theorem wrong_entries (fresh : s.state = .opened pairingMaxAttempts) (calls : List ConfirmCall) :
    SamePeer s (after confirm calls s) ∧ ∀ n, (after confirm calls s).state = .opened n →
      (after confirm calls s).peerStatement = s.peerStatement ∧ 0 < n ∧
        (log confirm calls s).countP (fun l => l.call.wrong s.code s.started) + n = pairingMaxAttempts := by
  refine history (P := fun lines t => SamePeer s t ∧ ∀ n, t.state = .opened n →
    t.peerStatement = s.peerStatement ∧
    0 < n ∧ lines.countP (fun l => l.call.wrong s.code s.started) + n = pairingMaxAttempts) ?_ ?_ calls
  · refine ⟨⟨rfl, rfl, rfl, rfl⟩, fun n opened => ?_⟩
    cases fresh.symm.trans opened
    exact ⟨rfl, by decide, rfl⟩
  · intro lines t call ⟨same, left⟩
    have effect := confirm_effect call t
    simp only [line, countP_append, countP_singleton]
    rw [← same.2.2.1, ← same.2.2.2] at left ⊢
    generalize t.confirm call = out at effect ⊢
    cases effect with
    | kept idle =>
      refine ⟨same, fun n opened => ?_⟩
      rw [idle n opened]
      exact left n opened
    | wrong opened typed =>
      refine ⟨same, fun n still => ?_⟩
      obtain ⟨statement, positive, total⟩ := left _ opened
      split at still
      · cases still
      · cases still
        refine ⟨statement, by omega, ?_⟩
        rw [typed, if_pos rfl]
        omega
    | confirmed => exact ⟨same, nofun⟩

/-- A peer is confirmed within the window, by the code or by comparing it, before the fifth wrong
entry, and is the peer of the session. -/
theorem peer_origin (fresh : s.state = .opened pairingMaxAttempts)
    (confirmed : (confirm call (after confirm calls s)).2 = .ok peer) :
    (call.now.unixNanos < pairingDeadline s.started ∧ ∀ text now, call = .entered text now → text = s.code) ∧
      (log confirm calls s).countP (fun l => l.call.wrong s.code s.started) < pairingMaxAttempts ∧
      peer = ⟨⟨s.peerPrincipal, s.peerPublicKey, call.now, none⟩, s.peerStatement⟩ := by
  obtain ⟨⟨principal, key, started, code⟩, left⟩ := wrong_entries fresh calls
  generalize after confirm calls s = t at confirmed principal key started code left
  have effect := confirm_effect call t
  generalize t.confirm call = out at effect confirmed
  cases effect with
  | kept | wrong => cases confirmed
  | confirmed opened within right =>
    obtain ⟨statement, positive, total⟩ := left _ opened
    cases confirmed
    refine ⟨⟨started ▸ within, code ▸ right⟩, by omega, ?_⟩
    rw [complete, principal, key, statement]

end PairingSession

end Oac
