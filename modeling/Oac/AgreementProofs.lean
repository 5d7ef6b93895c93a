import Oac.Agreement
import Oac.EnvelopeProofs

/-! What it takes for a statement to be accepted: the check of a received statement as one
condition. -/

namespace Oac

open JsonObject Option

theorem JsonNumber.plainIntegerIn_le {n : JsonNumber} {min max v : Nat}
    (read : n.plainIntegerIn min max = some v) : v ≤ max := by
  unfold plainIntegerIn at read
  dsimp only at read
  split at read
  · cases read
  · split at read
    next within =>
      cases read
      simp only [Bool.and_eq_true, decide_eq_true_eq] at within
      exact within.2
    · cases read

namespace AgreementStatement

variable {statement : AgreementStatement}

theorem claimedValues_eq_some :
    statement.claimedValues = some v ↔
      ((get statement.wire "agreement_key").bind Json.asStr).bind AgreementPublicKey.fromBase64url =
        some v.agreementKey ∧
      ((get statement.wire "issued_at").bind Json.asStr).bind Timestamp.parse = some v.issuedAt ∧
      ((get statement.wire "seq").bind Json.asNumber).bind (·.plainIntegerIn 0 maxStatementSeq) =
        some v.seq := by
  unfold claimedValues
  simp only [bind_eq_bind, pure_def]
  constructor
  · intro claimed
    obtain ⟨key, keyRead, claimed⟩ := bind_eq_some_iff.mp claimed
    obtain ⟨issuedAt, timeRead, claimed⟩ := bind_eq_some_iff.mp claimed
    obtain ⟨seq, seqRead, made⟩ := bind_eq_some_iff.mp claimed
    cases made
    exact ⟨keyRead, timeRead, seqRead⟩
  · rintro ⟨keyRead, timeRead, seqRead⟩
    rw [keyRead, bind_some, timeRead, bind_some, seqRead, bind_some]

theorem claimedValues_seq
    (claimed : statement.claimedValues = some v) : v.seq ≤ maxStatementSeq := by
  obtain ⟨n, -, read⟩ := bind_eq_some_iff.mp (claimedValues_eq_some.mp claimed).2.2
  exact JsonNumber.plainIntegerIn_le read

/-- The members of a statement, no more and no less. -/
def Shaped (statement : AgreementStatement) : Prop :=
  ¬ (statement.wire.length ≠ statementMembers.length ∨
    statementMembers.any (fun m => !contains statement.wire m) = true)

end AgreementStatement

/-- A statement meets the floors of a pairing that confirmed values, none above its own. -/
theorem checkConfirmed_eq_ok : checkConfirmed h confirmed = .ok () ↔ ∃ v, confirmed = some v ∧ v.seq ≤ h.seq ∧
      (h.seq = v.seq → h.agreementKey = v.agreementKey) ∧ v.issuedAt.unixNanos ≤ h.issuedAt.unixNanos := by
  cases confirmed with
  | none => exact ⟨nofun, nofun⟩
  | some v =>
    simp only [checkConfirmed, some.injEq, exists_eq_left']
    split
    · next below =>
      refine ⟨nofun, fun ⟨floor, sameKey, _⟩ => ?_⟩
      rcases below with below | ⟨same, differs⟩
      · omega
      · exact absurd (sameKey same) differs
    · next above =>
      obtain ⟨floor, sameKey⟩ := not_or.mp above
      split
      · next early => exact ⟨nofun, fun ⟨_, _, late⟩ => absurd early (Int.not_lt.mpr late)⟩
      · next late =>
        refine ⟨fun _ => ⟨Nat.not_lt.mp floor, fun same => ?_, Int.not_lt.mp late⟩, fun _ => rfl⟩
        exact not_not.mp (not_and.mp sameKey same)

variable [Libraries]

/-- A statement is accepted exactly when it has its four members, is signed by a trusted key, claims
its values, is not from too far ahead and is newer than what is held for the key. -/
theorem checkStatement_eq_ok :
    checkStatement statement trusted held now = .ok h ↔ statement.Shaped ∧
      (∃ entry, verifySigned trusted .agreement statement.wire = .ok entry ∧ entry.keyId = h.keyId) ∧
      statement.claimedValues = some (.ofHeld h) ∧ h.issuedAt.unixNanos < now.unixNanos + windowNanos ∧
      ∀ x, held h.keyId = some x → x.seq < h.seq := by
  rw [AgreementStatement.claimedValues_eq_some]
  unfold checkStatement
  dsimp only
  constructor
  · intro accepted
    split at accepted
    · cases accepted
    next shaped =>
    split at accepted
    next entry signed =>
      split at accepted
      next text spelled =>
        obtain ⟨_, ⟨⟩, accepted⟩ := Results.bind_eq_ok.mp accepted
        obtain ⟨key, keyRead, accepted⟩ := Results.bind_eq_ok.mp accepted
        obtain ⟨issuedAt, timeRead, accepted⟩ := Results.bind_eq_ok.mp accepted
        obtain ⟨seq, seqRead, accepted⟩ := Results.bind_eq_ok.mp accepted
        split at accepted
        · cases accepted
        next early =>
        split at accepted
        · cases accepted
        next newer =>
        cases accepted
        refine ⟨shaped, ⟨entry, signed, rfl⟩, ⟨?_, okOr_eq_ok.mp timeRead, okOr_eq_ok.mp seqRead⟩,
          Int.not_le.mp early, ?_⟩
        · rw [spelled]
          exact okOr_eq_ok.mp keyRead
        · intro x known
          by_contra notNewer
          apply newer
          rw [known]
          exact decide_eq_true (Nat.le_of_not_lt notNewer)
      · cases accepted
    · cases accepted
    · cases accepted
  · rintro ⟨shaped, ⟨entry, signed, sameKey⟩, ⟨keyRead, timeRead, seqRead⟩, early, newer⟩
    obtain ⟨text, spelled, keyRead⟩ := bind_eq_some_iff.mp keyRead
    have notHeld : ¬ (held entry.keyId).any (fun x => decide (h.seq ≤ x.seq)) = true := by
      rw [sameKey]
      cases known : held h.keyId with
      | none => nofun
      | some x => exact fun older => absurd (newer x known) (Nat.not_lt.mpr (of_decide_eq_true older))
    rw [if_neg shaped, signed]
    rw [spelled]
    simp only [keyRead, timeRead, seqRead, okOr, ConfirmedValues.ofHeld, bind, Except.bind]
    rw [if_neg (Int.not_le.mpr early), if_neg notHeld, sameKey]

end Oac
