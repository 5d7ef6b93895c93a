import Oac.Agreement
import Oac.Base64url

/-! The exchange of `core/src/pairing.rs`: what each side hashes, the initiator, the responder of
one offer and the session that each ends with once its code is known. -/

namespace Oac

/-- The two digests of an exchange, of the octets that are put into them: the commitment to the
initiator's nonce and the code that the operator compares. -/
class PairingDigests where
  commitment : List UInt8 → List UInt8
  code : List UInt8 → String

def pairingValidityMs : Nat := 120000

def pairingMaxAttempts : Nat := 5

@[ext] structure PairingNonce where
  octets : List UInt8
  sized : octets.length = 32

instance : DecidableEq PairingNonce := fun _ _ => decidable_of_iff _ PairingNonce.ext_iff.symm

def pairingDeadline (start : Timestamp) : Int := start.unixNanos + pairingValidityMs * 1000000

/-- What a device's agreement statement counts as in the operator's comparison. -/
inductive StatementValue where
  | none
  | given (values : ConfirmedValues)
  | refused
  deriving DecidableEq

namespace StatementValue

/-- The value of a statement as its holder gave it, unchecked. -/
def ofOwn : Option AgreementStatement → StatementValue
  | .none => .none
  | some statement => statement.claimedValues.elim .refused .given

def accepted : StatementValue → Option ConfirmedValues
  | given values => some values
  | _ => .none

end StatementValue

section Transcript

/-- A text led by the octet of its length. The source panics on a longer text than an octet can
count; none of those it puts is as long. -/
def putText (s : String) : List UInt8 :=
  UInt8.ofNat (Utf8.encode s.toList).length :: Utf8.encode s.toList

def putPrincipal (p : Token) : List UInt8 := putText p.text

def beOctets (n : Nat) : List UInt8 :=
  [56, 48, 40, 32, 24, 16, 8, 0].map fun shift => UInt8.ofNat (n >>> shift)

def putValue : StatementValue → List UInt8
  | .none => [0]
  | .given v => 1 :: (putText (Base64url.encode v.agreementKey.octets) ++
      (beOctets v.seq ++ putText v.issuedAt.text))
  | .refused => [2]

/-- What one side of an exchange puts into the code. -/
structure Party where
  principal : Token
  publicKey : PublicKey
  value : StatementValue
  nonce : PairingNonce

def commitmentInput (p : Party) : List UInt8 :=
  Utf8.encode "oac-pairing-commit-v2".toList ++ 0 ::
    (putPrincipal p.principal ++ (p.publicKey.octets ++ (putValue p.value ++ p.nonce.octets)))

def codeInput (initiator responder : Party) : List UInt8 :=
  Utf8.encode "oac-pairing-code-v2".toList ++ 0 ::
    (putPrincipal initiator.principal ++ (initiator.publicKey.octets ++ (putValue initiator.value ++
      (putPrincipal responder.principal ++ (responder.publicKey.octets ++ (putValue responder.value ++
        (initiator.nonce.octets ++ responder.nonce.octets)))))))

end Transcript

structure PairingOffer where
  principal : Token
  publicKey : PublicKey
  commitment : List UInt8
  agreementStatement : Option AgreementStatement

structure PairingResponse where
  principal : Token
  publicKey : PublicKey
  nonce : PairingNonce
  agreementStatement : Option AgreementStatement

structure PairingReveal where
  nonce : PairingNonce
  deriving DecidableEq

/-- Why a pairing on the responding device ended without a code. -/
inductive PairingEnd where
  | secondOffer
  | abandoned
  | expired
  | ownKey
  | commitmentMismatch
  deriving DecidableEq

inductive PairingError where
  | ownKey
  | commitmentMismatch
  | expired
  | ended (why : PairingEnd)
  deriving DecidableEq

inductive PairingSessionState where
  | opened (attemptsLeft : Nat)
  | aborted
  | completed
  deriving DecidableEq

/-- One side of an exchange once its code is known. A refused statement is not carried on. -/
structure PairingSession where
  peerPrincipal : Token
  peerPublicKey : PublicKey
  code : String
  started : Timestamp
  state : PairingSessionState
  ownValue : StatementValue
  peerValue : StatementValue
  peerStatement : Option AgreementStatement

def PairingSession.new (peerPrincipal : Token) (peerPublicKey : PublicKey)
    (code : String) (started : Timestamp)
    (ownValue peerValue : StatementValue) (peerStatement : Option AgreementStatement) : PairingSession where
  peerPrincipal := peerPrincipal
  peerPublicKey := peerPublicKey
  code := code
  started := started
  state := .opened pairingMaxAttempts
  ownValue := ownValue
  peerValue := peerValue
  peerStatement := peerStatement.filter fun _ => peerValue.accepted.isSome

variable [Libraries]

/-- The value of the statement a peer gave, with only the own key and the peer's trusted. -/
def judgeWith (ownSet : TrustedKeySet) (peerPrincipal : Token) (peerKey : PublicKey)
    (statement : Option AgreementStatement) (now : Timestamp) : StatementValue :=
  match statement with
  | none => .none
  | some statement =>
    match ownSet.addPairedKey peerPrincipal peerKey with
    | .error _ => .refused
    | .ok trusted =>
      match checkStatement statement trusted (fun _ => none) now with
      | .ok held => if held.keyId = peerKey.keyId then .given (.ofHeld held) else .refused
      | .error _ => .refused

variable [PairingDigests]

def commitment (p : Party) : List UInt8 := PairingDigests.commitment (commitmentInput p)

def pairingCode (initiator responder : Party) : String :=
  PairingDigests.code (codeInput initiator responder)

/-- The initiator's side, after its offer. -/
structure PairingInitiator where
  principal : Token
  publicKey : PublicKey
  nonce : PairingNonce
  started : Timestamp
  ownSet : TrustedKeySet
  ownValue : StatementValue

namespace PairingInitiator

def startInner (own : DeviceIdentity) (statement : Option AgreementStatement) (nonce : PairingNonce)
    (now : Timestamp) : PairingInitiator × PairingOffer :=
  let ownValue := StatementValue.ofOwn statement
  let party : Party := ⟨own.entry.principal, own.entry.publicKey, ownValue, nonce⟩
  (⟨own.entry.principal, own.entry.publicKey, nonce, now, .ofDevice own, ownValue⟩,
    ⟨own.entry.principal, own.entry.publicKey, commitment party, statement⟩)

def receive (initiator : PairingInitiator) (response : PairingResponse) (now : Timestamp) :
    Except PairingError (PairingSession × PairingReveal) :=
  if response.publicKey = initiator.publicKey then .error .ownKey
  else if pairingDeadline initiator.started ≤ now.unixNanos then .error .expired
  else
    let peerValue := judgeWith initiator.ownSet response.principal response.publicKey
      response.agreementStatement now
    let code := pairingCode ⟨initiator.principal, initiator.publicKey, initiator.ownValue,
      initiator.nonce⟩ ⟨response.principal, response.publicKey, peerValue, response.nonce⟩
    .ok (.new response.principal response.publicKey code initiator.started
      initiator.ownValue peerValue response.agreementStatement, ⟨initiator.nonce⟩)

end PairingInitiator

/-- The responder's side of one exchange, after its response. -/
structure PairingResponder where
  principal : Token
  publicKey : PublicKey
  nonce : PairingNonce
  offer : PairingOffer
  started : Timestamp
  ownSet : TrustedKeySet
  ownValue : StatementValue

namespace PairingResponder

def respondInner (own : DeviceIdentity) (statement : Option AgreementStatement) (offer : PairingOffer)
    (nonce : PairingNonce) (now : Timestamp) : Except PairingError (PairingResponder × PairingResponse) :=
  if offer.publicKey = own.entry.publicKey then .error .ownKey
  else
    .ok (⟨own.entry.principal, own.entry.publicKey, nonce, offer, now, .ofDevice own, .ofOwn statement⟩,
      ⟨own.entry.principal, own.entry.publicKey, nonce, statement⟩)

/-- The reveal is checked against the commitment, which covers the statement as the initiator gave
it. -/
def receive (responder : PairingResponder) (reveal : PairingReveal) (now : Timestamp) :
    Except PairingError PairingSession :=
  let offer := responder.offer
  if pairingDeadline responder.started ≤ now.unixNanos then .error .expired
  else
    let claimed := StatementValue.ofOwn offer.agreementStatement
    if commitment ⟨offer.principal, offer.publicKey, claimed, reveal.nonce⟩ ≠ offer.commitment then
      .error .commitmentMismatch
    else
      let peerValue := judgeWith responder.ownSet offer.principal offer.publicKey offer.agreementStatement now
      let code := pairingCode ⟨offer.principal, offer.publicKey, peerValue, reveal.nonce⟩
        ⟨responder.principal, responder.publicKey, responder.ownValue, responder.nonce⟩
      .ok (.new offer.principal offer.publicKey code responder.started responder.ownValue peerValue
        offer.agreementStatement)

end PairingResponder

end Oac
