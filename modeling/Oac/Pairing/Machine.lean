import Oac.Pairing.Calls

/-! One pairing as the daemon serves it (`cli/src/device_pairing.rs`): the lines of its connection,
and the machine that holds what the connection adds to the exchange, which is the role, the second
response and the time. The texts of blobs and replies are left out: a blob is read by `readBlob`,
any reader, and a reply is what its line says. -/

namespace Oac.DevicePairing

inductive Role where
  | initiator
  | responder
  deriving DecidableEq

/-- What a client sends after its first line. -/
inductive Followup where
  | offer (blob : String)
  | response (blob : String)
  | reveal (blob : String)
  | confirm (entered : String)
  deriving DecidableEq

inductive BadLine where
  | malformed
  | version
  | unknownOp
  deriving DecidableEq

def controlVersion : Nat := 1

def parseFollowup (line : List UInt8) : Except BadLine Followup := do
  let value ← (Json.parse line).mapError fun _ => .malformed
  let o ← okOr value.asObject .malformed
  let version ← okOr (((JsonObject.get o "oac_control").bind Json.asNumber).bind
    (·.plainIntegerIn 0 (2 ^ 64 - 1))) .malformed
  if version ≠ controlVersion then .error .version
  let text (name : String) := okOr ((JsonObject.get o name).bind Json.asStr) BadLine.malformed
  match (JsonObject.get o "op").bind Json.asStr with
  | some "pair_offer" => (text "blob").map .offer
  | some "pair_response" => (text "blob").map .response
  | some "pair_reveal" => (text "blob").map .reveal
  | some "pair_confirm" => (text "entered").map .confirm
  | some _ => .error .unknownOp
  | none => .error .malformed

inductive Blob where
  | offer (offer : PairingOffer)
  | response (response : PairingResponse)
  | reveal (reveal : PairingReveal)

/-- How a pairing ends without trusting the key, as far as the lines decide it. -/
inductive End where
  | secondOffer
  | secondResponse
  | secondReveal
  | revealWithoutOffer
  | abandoned
  | expired
  | ownKey
  | commitmentMismatch
  | aborted
  | badLine
  deriving DecidableEq

def endOf : PairingError → End
  | .ownKey | .ended .ownKey => .ownKey
  | .commitmentMismatch | .ended .commitmentMismatch => .commitmentMismatch
  | .expired | .ended .expired => .expired
  | .ended .secondOffer => .secondOffer
  | .ended .abandoned => .abandoned

/-- What the line that shows the code says. -/
structure CodeReply where
  code : String
  peerKeyId : KeyId
  peerPrincipal : Token
  ownStatement : StatementValue
  peerStatement : StatementValue
  alreadyTrusted : Bool
  reveal : Option PairingReveal

inductive Reply where
  | error (code : String)
  | response (response : PairingResponse)
  | code (shown : CodeReply)
  | mismatch (attemptsLeft : Nat)

/-- What one line did to a pairing. -/
inductive Step where
  | reply (line : Reply)
  | ended (why : End)
  | confirmed (peer : PairedPeer)

namespace Step

def isResponse : Step → Bool
  | reply (.response _) => true
  | _ => false

def isConfirmed : Step → Bool
  | confirmed _ => true
  | _ => false

def reveals : Step → Option PairingReveal
  | reply (.code shown) => shown.reveal
  | _ => none

end Step

structure Machine where
  role : Role
  started : Timestamp
  initiator : Option PairingInitiator
  responder : Option ResponderPairing
  session : Option PairingSession
  responded : Bool
  answered : Bool

/-- One line of the connection, with the time it is handled at, the keys trusted then, and the nonce
that is drawn should the line be an offer to answer. -/
structure FollowupLine where
  octets : List UInt8
  now : Timestamp
  isTrusted : KeyId → Bool
  nonce : PairingNonce

inductive MachineCall where
  | line (line : FollowupLine)
  | abandon

namespace Machine

variable [PairingDigests]

/-- A pairing is opened; the initiator's offer is returned for the first reply. -/
def opened (role : Role) (own : DeviceIdentity) (statement : Option AgreementStatement)
    (nonce : PairingNonce) (now : Timestamp) : Machine × Option PairingOffer :=
  match role with
  | .initiator =>
    let (initiator, offer) := PairingInitiator.startInner own statement nonce now
    (⟨role, now, some initiator, none, none, false, false⟩, some offer)
  | .responder => (⟨role, now, none, some (.startWith now statement), none, false, false⟩, none)

def expired (m : Machine) (now : Timestamp) : Bool :=
  decide (m.started.unixNanos + pairingValidityMs * 1000000 ≤ now.unixNanos)

def abandon (m : Machine) : Machine :=
  { m with responder := m.responder.map ResponderPairing.abandon, initiator := none }

variable [Libraries]

def codeReply (session : PairingSession) (reveal : Option PairingReveal) (alreadyTrusted : Bool) : Reply :=
  .code ⟨session.code, session.peerPublicKey.keyId, session.peerPrincipal,
    session.ownValue, session.peerValue, alreadyTrusted, reveal⟩

variable (readBlob : String → Option Blob) (own : DeviceIdentity)

def handleOffer (m : Machine) (line : FollowupLine) (blob : String) : Machine × Step :=
  match m.responder with
  | none => (m, .reply (.error "wrong_role"))
  | some responder =>
    match readBlob blob with
    | some (.offer offer) =>
      match responder.answer own offer line.nonce line.now with
      | (responder, .ok response) =>
        ({ m with responder := some responder, answered := true }, .reply (.response response))
      | (responder, .error e) => ({ m with responder := some responder }, .ended (endOf e))
    | _ => (m, .reply (.error "bad_blob"))

def handleReveal (m : Machine) (line : FollowupLine) (blob : String) : Machine × Step :=
  match m.responder with
  | none => (m, .reply (.error "wrong_role"))
  | some responder =>
    match readBlob blob with
    | some (.reveal reveal) =>
      if m.session.isSome then (m, .ended .secondReveal)
      else if !m.answered then (m, .ended .revealWithoutOffer)
      else
        match responder.reveal reveal line.now with
        | (responder, .ok session) =>
          ({ m with responder := some responder, session := some session },
            .reply (codeReply session none (line.isTrusted session.peerPublicKey.keyId)))
        | (responder, .error e) => ({ m with responder := some responder }, .ended (endOf e))
    | _ => (m, .reply (.error "bad_blob"))

/-- A second response could be ground until its code matched, since the nonce is public after the
first. -/
def handleResponse (m : Machine) (line : FollowupLine) (blob : String) : Machine × Step :=
  if m.role ≠ .initiator then (m, .reply (.error "wrong_role"))
  else if m.responded then (m, .ended .secondResponse)
  else
    match readBlob blob with
    | some (.response response) =>
      match m.initiator with
      | none => (m, .ended .abandoned)
      | some initiator =>
        let m := { m with initiator := none, responded := true }
        match initiator.receive response line.now with
        | .ok (session, reveal) =>
          ({ m with session := some session },
            .reply (codeReply session (some reveal) (line.isTrusted session.peerPublicKey.keyId)))
        | .error e => (m, .ended (endOf e))
    | _ => (m, .reply (.error "bad_blob"))

def confirmStep : Except ConfirmError PairedPeer → Step
  | .ok peer => .confirmed peer
  | .error (.mismatch 0) | .error .aborted => .ended .aborted
  | .error (.mismatch attemptsLeft) => .reply (.mismatch attemptsLeft)
  | .error .expired => .ended .expired
  | .error .completed => .ended .abandoned

/-- A text that is not six digits is refused and not counted as a try. -/
def handleConfirm (m : Machine) (line : FollowupLine) (entered : String) : Machine × Step :=
  match m.session with
  | none => (m, .reply (.error "no_code_yet"))
  | some session =>
    if entered.toList.length ≠ 6 ∨ !entered.toList.all isAsciiDigit then (m, .reply (.error "bad_code"))
    else
      let confirmed := session.confirmEntered entered line.now
      ({ m with session := some confirmed.1 }, confirmStep confirmed.2)

def handle (m : Machine) (line : FollowupLine) (followup : Followup) : Machine × Step :=
  if m.expired line.now then (m, .ended .expired)
  else
    match followup with
    | .offer blob => m.handleOffer readBlob own line blob
    | .reveal blob => m.handleReveal readBlob line blob
    | .response blob => m.handleResponse readBlob line blob
    | .confirm entered => m.handleConfirm line entered

/-- What the daemon does with each line. A line that is no request ends the pairing. -/
def take : MachineCall → Machine → Machine × Step
  | .abandon, m => (m.abandon, .ended .abandoned)
  | .line line, m =>
    match parseFollowup line.octets with
    | .error _ => (m, .ended .badLine)
    | .ok followup => m.handle readBlob own line followup

end Machine

end Oac.DevicePairing
