import Oac.DraftProofs
import Oac.Pairing.Transcript

/-! Agreement statements as a device issues them (`core/src/sealing.rs`). -/

namespace Oac

open SigningDevice

variable [Libraries]

def AgreementStatement.issue (own : SigningDevice) (key : AgreementPublicKey)
    (seq : Nat) (issuedAt : Timestamp) : Option AgreementStatement :=
  if maxStatementSeq < seq then none
  else
    (own.signed .agreement [("agreement_key", .string (Base64url.encode key.octets)),
      ("seq", .number (.fromU64 seq)), ("issued_at", .string issuedAt.text)]).map fun o => ⟨o⟩

theorem AgreementStatement.issue_claims
    (made : AgreementStatement.issue own key seq issuedAt = some statement) :
    statement.claimedValues = some ⟨key, seq, issuedAt⟩ := by
  unfold issue at made
  split at made
  · cases made
  next within =>
  obtain ⟨o, signed, rfl⟩ := Option.map_eq_some_iff.mp made
  have keyMember : JsonObject.get o "agreement_key" = some (.string (Base64url.encode key.octets)) :=
    signed_get signed (by decide)
  have seqMember : JsonObject.get o "seq" = some (.number (.fromU64 seq)) := signed_get signed (by decide)
  have timeMember : JsonObject.get o "issued_at" = some (.string issuedAt.text) :=
    signed_get signed (by decide)
  have seqRead : (JsonNumber.fromU64 seq).plainIntegerIn 0 maxStatementSeq = some seq := by
    unfold maxStatementSeq at within
    exact JsonNumber.plainIntegerIn_fromU64 (by omega) (Nat.zero_le seq) (Nat.le_of_not_lt within)
  unfold claimedValues
  simp only [keyMember, seqMember, timeMember, Option.bind_some, Json.asStr, Json.asNumber,
    AgreementPublicKey.fromBase64url_encode, Timestamp.parse_text_self, seqRead,
      Option.bind_eq_bind, Option.pure_def]

/-- What an honest device gives: nothing, or a statement it issued. -/
def SigningDevice.Gives (own : SigningDevice) (statement : Option AgreementStatement) : Prop :=
  ∀ s ∈ statement, ∃ key seq issuedAt, AgreementStatement.issue own key seq issuedAt = some s

theorem SigningDevice.Gives.own_value {own : SigningDevice}
    (honest : own.Gives statement) : StatementValue.ofOwn statement ≠ .refused := by
  cases statement with
  | none => nofun
  | some s =>
    obtain ⟨key, seq, issuedAt, made⟩ := honest s rfl
    simp only [StatementValue.ofOwn, AgreementStatement.issue_claims made, Option.elim_some]
    nofun

end Oac
