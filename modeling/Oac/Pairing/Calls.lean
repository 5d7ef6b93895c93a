import Oac.Foundation.Logs
import Oac.Pairing.Exchange

/-! The two state machines of one pairing on a device (`core/src/pairing.rs`): the responder that
the operator started, which answers offers and takes reveals, and the session, in which the operator
confirms the code. Each is given as the calls made on it and what they answer. -/

namespace Oac

inductive ResponderState where
  | awaitingOffer
  | awaitingReveal (responder : PairingResponder)
  | ended (why : PairingEnd)
  | completed

/-- One pairing that the operator started on the responding device. -/
structure ResponderPairing where
  started : Timestamp
  state : ResponderState
  statement : Option AgreementStatement

inductive ResponderCall where
  | answer (offer : PairingOffer) (nonce : PairingNonce) (now : Timestamp)
  | reveal (reveal : PairingReveal) (now : Timestamp)
  | abandon
  | ended (now : Timestamp)

inductive ResponderAnswer where
  | response (result : Except PairingError PairingResponse)
  | session (result : Except PairingError PairingSession)
  | abandoned
  | ended (why : Option PairingEnd)

def ResponderAnswer.isResponse : ResponderAnswer → Bool
  | response (.ok _) => true
  | _ => false

def ResponderAnswer.isSession : ResponderAnswer → Bool
  | session (.ok _) => true
  | _ => false

namespace ResponderPairing

def start (now : Timestamp) : ResponderPairing := ⟨now, .awaitingOffer, none⟩

def startWithStatement (now : Timestamp) (statement : AgreementStatement) : ResponderPairing :=
  { start now with statement := some statement }

def startWith (now : Timestamp) : Option AgreementStatement → ResponderPairing
  | some statement => startWithStatement now statement
  | none => start now

theorem startWith_eq (now : Timestamp) (statement : Option AgreementStatement) :
    startWith now statement = ⟨now, .awaitingOffer, statement⟩ := by
  cases statement <;> rfl

def endWith (p : ResponderPairing) (why : PairingEnd) : ResponderPairing × PairingError :=
  ({ p with state := .ended why }, .ended why)

/-- The offer is answered with the nonce that was drawn for it. Only the first offer is answered. -/
def answer (p : ResponderPairing) (own : DeviceIdentity) (offer : PairingOffer) (nonce : PairingNonce)
    (now : Timestamp) : ResponderPairing × Except PairingError PairingResponse :=
  match p.state with
  | .awaitingReveal _ | .completed => (p.endWith .secondOffer).map id .error
  | .ended why => (p, .error (.ended why))
  | .awaitingOffer =>
    if pairingDeadline p.started ≤ now.unixNanos then (p.endWith .expired).map id .error
    else
      match PairingResponder.respondInner own p.statement offer nonce p.started with
      | .ok (responder, response) => ({ p with state := .awaitingReveal responder }, .ok response)
      | .error _ => (p.endWith .ownKey).map id .error

def abandon (p : ResponderPairing) : ResponderPairing :=
  match p.state with
  | .completed | .ended _ => p
  | _ => { p with state := .ended .abandoned }

def lapse (p : ResponderPairing) (now : Timestamp) : ResponderPairing :=
  if pairingDeadline p.started ≤ now.unixNanos then
    match p.state with
    | .awaitingOffer => { p with state := .ended .expired }
    | .awaitingReveal _ => { p with state := .ended .abandoned }
    | _ => p
  else p

def ended (p : ResponderPairing) (now : Timestamp) : ResponderPairing × Option PairingEnd :=
  let p := p.lapse now
  (p, match p.state with
    | .ended why => some why
    | _ => none)

variable [Libraries] [PairingDigests]

/-- The reveal is taken. The source first marks the pairing completed and then decides. -/
def reveal (p : ResponderPairing) (reveal : PairingReveal) (now : Timestamp) :
    ResponderPairing × Except PairingError PairingSession :=
  match p.state with
  | .awaitingOffer => (p.endWith .abandoned).map id .error
  | .ended why => (p.endWith why).map id .error
  | .completed => (p.endWith .secondOffer).map id .error
  | .awaitingReveal responder =>
    match responder.receive reveal now with
    | .ok session => ({ p with state := .completed }, .ok session)
    | .error .commitmentMismatch => (p.endWith .commitmentMismatch).map id .error
    | .error _ => (p.endWith .abandoned).map id .error

def respond (own : DeviceIdentity) : ResponderCall → ResponderPairing → ResponderPairing × ResponderAnswer
  | .answer offer nonce now, p => (p.answer own offer nonce now).map id .response
  | .reveal reveal now, p => (p.reveal reveal now).map id .session
  | .abandon, p => (p.abandon, .abandoned)
  | .ended now, p => (p.ended now).map id .ended

variable (own : DeviceIdentity) (p : ResponderPairing) in
/-- What one call does to a pairing: it answers the offer, it produces the session, or it does
neither and leaves the state as it is or ended. -/
inductive Effect : ResponderCall → ResponderPairing × ResponderAnswer → Prop
  | kept {a : ResponderAnswer} (noResponse : a.isResponse = false) (noSession : a.isSession = false) :
      Effect call (p, a)
  | ended {a : ResponderAnswer} (why) (noResponse : a.isResponse = false) (noSession : a.isSession = false) :
      Effect call ({ p with state := .ended why }, a)
  | answered (waiting : p.state = .awaitingOffer)
      (responded : PairingResponder.respondInner own p.statement offer nonce p.started =
        .ok (responder, response)) :
      Effect (.answer offer nonce now) ({ p with state := .awaitingReveal responder }, .response (.ok response))
  | revealed {reveal : PairingReveal} (waiting : p.state = .awaitingReveal responder)
      (received : responder.receive reveal now = .ok session) :
      Effect (.reveal reveal now) ({ p with state := .completed }, .session (.ok session))

theorem respond_effect (own : DeviceIdentity) (call : ResponderCall) (p : ResponderPairing) :
    Effect own p call (p.respond own call) := by
  cases call with
  | answer offer nonce now =>
    simp only [respond, answer]
    split
    · exact .ended .secondOffer rfl rfl
    · exact .ended .secondOffer rfl rfl
    · exact .kept rfl rfl
    next waiting =>
      split
      · exact .ended .expired rfl rfl
      · split
        next responded => exact .answered waiting responded
        · exact .ended .ownKey rfl rfl
  | reveal reveal now =>
    simp only [respond, ResponderPairing.reveal]
    split
    · exact .ended .abandoned rfl rfl
    next why _ => exact .ended why rfl rfl
    · exact .ended .secondOffer rfl rfl
    next waiting =>
      split
      next received => exact .revealed waiting received
      · exact .ended .commitmentMismatch rfl rfl
      · exact .ended .abandoned rfl rfl
  | abandon =>
    simp only [respond, abandon]
    split
    · exact .kept rfl rfl
    · exact .kept rfl rfl
    · exact .ended .abandoned rfl rfl
  | ended now =>
    simp only [respond, ResponderPairing.ended, lapse]
    split
    · split
      · exact .ended .expired rfl rfl
      · exact .ended .abandoned rfl rfl
      · exact .kept rfl rfl
    · exact .kept rfl rfl

end ResponderPairing

section Confirming

inductive ConfirmError where
  | mismatch (attemptsLeft : Nat)
  | expired
  | aborted
  | completed
  deriving DecidableEq

inductive ConfirmCall where
  | entered (text : String) (now : Timestamp)
  | matched (now : Timestamp)

def ConfirmCall.now : ConfirmCall → Timestamp
  | entered _ now | matched now => now

/-- Another text than the code was entered within the window. -/
def ConfirmCall.wrong (code : String) (started : Timestamp) : ConfirmCall → Bool
  | entered text now => text ≠ code ∧ now.unixNanos < pairingDeadline started
  | matched _ => false

namespace PairingSession

/-- The wrong entries still allowed, while the session is open. -/
def checkOpen (s : PairingSession) (now : Timestamp) : Except ConfirmError Nat :=
  match s.state with
  | .aborted => .error .aborted
  | .completed => .error .completed
  | .opened attemptsLeft =>
    if pairingDeadline s.started ≤ now.unixNanos then .error .expired else .ok attemptsLeft

def complete (s : PairingSession) (now : Timestamp) : PairingSession × PairedPeer :=
  ({ s with state := .completed, peerStatement := none },
    ⟨⟨s.peerPrincipal, s.peerPublicKey, now, none⟩, s.peerStatement⟩)

/-- The operator typed the code the other device shows. -/
def confirmEntered (s : PairingSession) (entered : String) (now : Timestamp) :
    PairingSession × Except ConfirmError PairedPeer :=
  match s.checkOpen now with
  | .error e => (s, .error e)
  | .ok attemptsLeft =>
    if entered = s.code then (s.complete now).map id .ok
    else
      let attemptsLeft := attemptsLeft - 1
      ({ s with state := if attemptsLeft = 0 then .aborted else .opened attemptsLeft },
        .error (.mismatch attemptsLeft))

/-- The operator compared the codes both devices show. -/
def confirmMatch (s : PairingSession) (now : Timestamp) : PairingSession × Except ConfirmError PairedPeer :=
  match s.checkOpen now with
  | .error e => (s, .error e)
  | .ok _ => (s.complete now).map id .ok

def confirm : ConfirmCall → PairingSession → PairingSession × Except ConfirmError PairedPeer
  | .entered text now, s => s.confirmEntered text now
  | .matched now, s => s.confirmMatch now

variable (s : PairingSession) (call : ConfirmCall) in
/-- What one call does to a session. -/
inductive Effect : PairingSession × Except ConfirmError PairedPeer → Prop
  | kept (idle : ∀ n, s.state = .opened n → call.wrong s.code s.started = false) : Effect (s, .error e)
  | wrong (opened : s.state = .opened n) (typed : call.wrong s.code s.started = true) : Effect
      ({ s with state := if n - 1 = 0 then .aborted else .opened (n - 1) }, .error (.mismatch (n - 1)))
  | confirmed (opened : s.state = .opened n) (within : call.now.unixNanos < pairingDeadline s.started)
      (right : ∀ text now, call = .entered text now → text = s.code) :
      Effect ((s.complete call.now).1, .ok (s.complete call.now).2)

theorem checkOpen_error {s : PairingSession} (refused : s.checkOpen now = .error e)
    (opened : s.state = .opened n) : pairingDeadline s.started ≤ now.unixNanos := by
  simp only [checkOpen, opened] at refused
  split at refused
  · assumption
  · cases refused

theorem checkOpen_ok {s : PairingSession} (passed : s.checkOpen now = .ok n) :
    s.state = .opened n ∧ now.unixNanos < pairingDeadline s.started := by
  unfold checkOpen at passed
  split at passed
  · cases passed
  · cases passed
  next opened =>
    split at passed
    · cases passed
    next within =>
      cases passed
      exact ⟨opened, Int.not_le.mp within⟩

theorem confirm_effect (call : ConfirmCall) (s : PairingSession) : Effect s call (s.confirm call) := by
  cases call with
  | entered text now =>
    simp only [confirm, confirmEntered]
    split
    next refused =>
      refine .kept fun n opened => ?_
      have late := checkOpen_error refused opened
      simp [ConfirmCall.wrong, late]
    next passed =>
      obtain ⟨opened, within⟩ := checkOpen_ok passed
      split
      next right => exact .confirmed opened within (by rintro _ _ ⟨⟩; exact right)
      next other => exact .wrong opened (by simp [ConfirmCall.wrong, other, within])
  | matched now =>
    simp only [confirm, confirmMatch]
    split
    · exact .kept fun _ _ => rfl
    next passed =>
      obtain ⟨opened, within⟩ := checkOpen_ok passed
      exact @Effect.confirmed s (.matched now) _ opened within (by rintro _ _ ⟨⟩)

end PairingSession

end Confirming

end Oac
