import Oac.Signing

/-! Agreement statements (`core/src/sealing.rs`, the part on statements) and the pairing records
and snapshot a pairing store keeps (`core/src/pairing.rs`). -/

namespace Oac

open JsonObject

def maxStatementSeq : Nat := 9007199254740991

/-- The u-coordinates of the points of small order, as 32 little-endian octets. -/
def smallOrder : List (List UInt8) :=
  [List.replicate 32 0,
   1 :: List.replicate 31 0,
   0xec :: List.replicate 30 0xff ++ [0x7f],
   [0xe0, 0xeb, 0x7a, 0x7c, 0x3b, 0x41, 0xb8, 0xae, 0x16, 0x56, 0xe3, 0xfa, 0xf1, 0x9f, 0xc4, 0x6a,
    0xda, 0x09, 0x8d, 0xeb, 0x9c, 0x32, 0xb1, 0xfd, 0x86, 0x62, 0x05, 0x16, 0x5f, 0x49, 0xb8, 0x00],
   [0x5f, 0x9c, 0x95, 0xbc, 0xa3, 0x50, 0x8c, 0x24, 0xb1, 0xd0, 0xb1, 0x55, 0x9c, 0x83, 0xef, 0x5b,
    0x04, 0x44, 0x5c, 0xc4, 0x58, 0x1c, 0x8e, 0x86, 0xd8, 0x22, 0x4e, 0xdd, 0xd0, 0x9f, 0x11, 0x57]]

def isAcceptableAgreementKey (octets : List UInt8) : Bool :=
  let top := octets.getD 31 0
  decide (top &&& 0x80 = 0) &&
    !(top == 0x7f && ((octets.drop 1).take 30).all (· == 0xff) && decide (0xed ≤ octets.getD 0 0)) &&
    !smallOrder.contains octets

@[ext] structure AgreementPublicKey where
  octets : List UInt8
  sized : octets.length = 32
  acceptable : isAcceptableAgreementKey octets = true

instance : DecidableEq AgreementPublicKey :=
  fun _ _ => decidable_of_iff _ AgreementPublicKey.ext_iff.symm

def AgreementPublicKey.fromOctets (octets : List UInt8) : Option AgreementPublicKey :=
  if valid : octets.length = 32 ∧
    isAcceptableAgreementKey octets = true then some ⟨octets, valid.1, valid.2⟩ else none

def AgreementPublicKey.fromBase64url (s : String) : Option AgreementPublicKey :=
  (Base64url.decodeExact 32 s).bind fromOctets

def statementMembers : List String := ["agreement_key", "seq", "issued_at", "security"]

structure AgreementStatement where
  wire : JsonObject

structure ConfirmedValues where
  agreementKey : AgreementPublicKey
  seq : Nat
  issuedAt : Timestamp
  deriving DecidableEq

/-- The values an object claims, read without a check of its signature or its time. -/
def AgreementStatement.claimedValues (statement : AgreementStatement) : Option ConfirmedValues := do
  let agreementKey ← ((get statement.wire "agreement_key").bind Json.asStr).bind
    AgreementPublicKey.fromBase64url
  let issuedAt ← ((get statement.wire "issued_at").bind Json.asStr).bind Timestamp.parse
  let seq ← ((get statement.wire "seq").bind Json.asNumber).bind (·.plainIntegerIn 0 maxStatementSeq)
  return ⟨agreementKey, seq, issuedAt⟩

structure HeldStatement where
  keyId : KeyId
  agreementKey : AgreementPublicKey
  seq : Nat
  issuedAt : Timestamp
  deriving DecidableEq

def ConfirmedValues.ofHeld (held : HeldStatement) : ConfirmedValues :=
  ⟨held.agreementKey, held.seq, held.issuedAt⟩

inductive PairingStoreError where
  | corrupt (text : String)
  | failed (text : String)
  deriving DecidableEq

inductive StatementRefusal where
  | malformed
  | signature
  | unacceptableKey
  | tooFarAhead
  | notNewer
  | belowConfirmed
  | earlierThanConfirmed
  | noConfirmedValues
  | notSaved (error : PairingStoreError)
  deriving DecidableEq

/-- The checks on a received statement; `held` is what is held already for the signing key. -/
def checkStatement [Libraries] (statement : AgreementStatement) (trusted : TrustedKeySet)
    (held : KeyId → Option HeldStatement) (now : Timestamp) :
    Except StatementRefusal HeldStatement := do
  let o := statement.wire
  if o.length ≠ statementMembers.length ∨ statementMembers.any (fun m => !contains o m) then
    .error .malformed
  let keyId ← match verifySigned trusted .agreement o with
    | .ok entry => .ok entry.keyId
    | .error .malformedSecurity => .error .malformed
    | .error _ => .error .signature
  let agreementKey ← match (get o "agreement_key").bind Json.asStr with
    | some s => okOr (AgreementPublicKey.fromBase64url s) .unacceptableKey
    | none => .error .malformed
  let issuedAt ← okOr (((get o "issued_at").bind Json.asStr).bind Timestamp.parse) .malformed
  let seq ← okOr (((get o "seq").bind Json.asNumber).bind (·.plainIntegerIn 0 maxStatementSeq)) .malformed
  if now.unixNanos + windowNanos ≤ issuedAt.unixNanos then .error .tooFarAhead
  if (held keyId).any (fun h => decide (seq ≤ h.seq)) then .error .notNewer
  .ok ⟨keyId, agreementKey, seq, issuedAt⟩

def checkConfirmed (statement : HeldStatement) (confirmed : Option ConfirmedValues) :
    Except StatementRefusal Unit :=
  match confirmed with
  | none => .error .noConfirmedValues
  | some c =>
    if statement.seq < c.seq ∨ (statement.seq = c.seq ∧ statement.agreementKey ≠ c.agreementKey) then
      .error .belowConfirmed
    else if statement.issuedAt.unixNanos < c.issuedAt.unixNanos then .error .earlierThanConfirmed
    else .ok ()

structure PairingRecord where
  principal : Token
  publicKey : PublicKey
  pairedAt : Timestamp
  confirmed : Option ConfirmedValues
  deriving DecidableEq

def PairingRecord.keyId [Libraries] (record : PairingRecord) : KeyId := record.publicKey.keyId

/-- A peer the operator confirmed, with the agreement statement it sent while pairing. -/
structure PairedPeer where
  record : PairingRecord
  statement : Option AgreementStatement

structure PairingSnapshot where
  paired : List PairingRecord
  grants : List Grant
  relayEnabled : List SessionId
  agreementStatements : List HeldStatement
  deriving DecidableEq

/-- The answer of a pairing store to a save of the snapshot. -/
abbrev PairingSave := PairingSnapshot → Except PairingStoreError Unit

end Oac
