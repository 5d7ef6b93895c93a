import Oac.Agreement.Issue
import Oac.DeviceKeys

/-! This device's agreement keys and the count of the statements it issued (`core/src/sealing.rs`).
The count is saved and read back before a statement of it exists; a store may fail before or after
it wrote, or drop a write. -/

namespace Oac

open Transition Results List

structure StoredAgreementKey where
  privateKey : List UInt8
  seq : Nat
  issuedAt : Timestamp
  deriving DecidableEq

structure AgreementKeyState where
  keys : List StoredAgreementKey
  highestSeq : Option Nat
  deriving DecidableEq

inductive AgreementKeyError where
  | store (e : KeyStoreError)
  | corrupt
  | seqExhausted
  | readBack

/-- The public key of a private one, from the library of the curve. -/
class AgreementCurve where
  publicOf : List UInt8 → Option (List UInt8)

structure OwnKey extends StoredAgreementKey where
  statement : AgreementStatement

/-- At least one key is held. -/
structure AgreementKeys where
  keys : List OwnKey
  highestSeq : Nat
  held : keys ≠ []

def OwnKey.newestFirst (a b : OwnKey) : Prop :=
  b.issuedAt.unixNanos < a.issuedAt.unixNanos ∨ b.issuedAt.unixNanos = a.issuedAt.unixNanos ∧ b.seq ≤ a.seq

instance : DecidableRel OwnKey.newestFirst := fun _ _ => inferInstanceAs (Decidable (_ ∨ _))

namespace AgreementKeys

def state (m : AgreementKeys) : AgreementKeyState :=
  ⟨m.keys.map (·.toStoredAgreementKey), some m.highestSeq⟩

def current (m : AgreementKeys) : OwnKey :=
  (m.keys.find? (·.seq = m.highestSeq)).getD (m.keys.head m.held)

def statement (m : AgreementKeys) : AgreementStatement := m.current.statement

def nextSeq : Option Nat → Except AgreementKeyError Nat
  | none => .ok 0
  | some h => if maxStatementSeq ≤ h then .error .seqExhausted else .ok (h + 1)

theorem nextSeq_eq_ok (next : nextSeq (some h) = .ok seq) : seq = h + 1 := by
  dsimp only [nextSeq] at next
  split at next <;> cases next
  rfl

/-- A save is read back, so that a write that was dropped fails now. -/
def saveChecked (saving back : KeyStore AgreementKeyState S) (state : AgreementKeyState) (s : S) :
    Except AgreementKeyError Unit × S :=
  match saving.save state s with
  | (.error e, s) => (.error (.store e), s)
  | (.ok (), s) => match back.load s with
    | .error e => (.error (.store e), s)
    | .ok none => (.error .readBack, s)
    | .ok (some found) => (if found = state then .ok () else .error .readBack, s)

def onlyCurrent (m : AgreementKeys) : AgreementKeys := ⟨[m.current], m.highestSeq, cons_ne_nil _ _⟩

def eraseReplaced (m : AgreementKeys) (saving back : KeyStore AgreementKeyState S) (s : S) :
    Except AgreementKeyError Nat × AgreementKeys × S :=
  match saveChecked saving back m.onlyCurrent.state s with
  | (.error e, s) => (.error e, m, s)
  | (.ok (), s) => (.ok (m.keys.length - 1), m.onlyCurrent, s)

/-- The keys are those of the count `h`: none is above it, and one has it. -/
def Counts (h : Nat) (l : List StoredAgreementKey) : Prop :=
  (∀ k ∈ l, k.seq ≤ h) ∧ ∃ k ∈ l, k.seq = h

theorem Counts.perm (counts : Counts h l) (same : l'.Perm l) : Counts h l' := by
  obtain ⟨below, k, listed, has⟩ := counts
  exact ⟨fun k listed => below k (same.mem_iff.mp listed), k, same.mem_iff.mpr listed, has⟩

theorem Counts.next (counts : Counts h l) (fresh : List UInt8) (now : Timestamp) :
    Counts (h + 1) (⟨fresh, h + 1, now⟩ :: l) := by
  refine ⟨fun k listed => ?_, _, mem_cons_self, rfl⟩
  rcases mem_cons.mp listed with rfl | earlier
  · exact Nat.le_refl _
  · exact (counts.1 k earlier).trans (Nat.le_succ h)

theorem Counts.single (k : StoredAgreementKey) : Counts k.seq [k] := by
  refine ⟨fun k' listed => ?_, k, mem_singleton_self k, rfl⟩
  rw [mem_singleton.mp listed]

theorem saveChecked_eq {saving back : KeyStore AgreementKeyState S} :
    (saveChecked saving back st s).2 = (saving.save st s).2 ∧
      ((saveChecked saving back st s).1 = .ok () → back.load (saving.save st s).2 = .ok (some st)) := by
  unfold saveChecked
  split
  next saved => exact ⟨by rw [saved], nofun⟩
  next saved =>
    rw [saved]
    split
    · exact ⟨rfl, nofun⟩
    · exact ⟨rfl, nofun⟩
    · next loaded =>
      refine ⟨rfl, fun checked => ?_⟩
      split at checked
      · next same => rw [loaded, same]
      · cases checked

/-- The keys in memory count what was issued, and each has the statement of its `seq`. -/
structure Sound (m : AgreementKeys) : Prop where
  counts : Counts m.highestSeq m.state.keys
  claims : ∀ k ∈ m.keys, ∃ v, k.statement.claimedValues = some v ∧ v.seq = k.seq

theorem Sound.current (sound : Sound m) : m.current ∈ m.keys ∧ m.current.seq = m.highestSeq := by
  obtain ⟨-, k, listed, has⟩ := sound.counts
  obtain ⟨key, member, rfl⟩ := mem_map.mp listed
  unfold AgreementKeys.current
  cases found : m.keys.find? (·.seq = m.highestSeq) with
  | none => exact absurd has (by simpa using find?_eq_none.mp found key member)
  | some key => exact ⟨mem_of_find?_eq_some found, by simpa using find?_some found⟩

theorem Sound.statement (sound : Sound m) :
    ∃ v, m.statement.claimedValues = some v ∧ v.seq = m.highestSeq := by
  obtain ⟨member, has⟩ := sound.current
  exact has ▸ sound.claims _ member

theorem Sound.onlyCurrent (sound : Sound m) :
    m.onlyCurrent.Sound ∧ m.onlyCurrent.statement = m.statement := by
  obtain ⟨member, has⟩ := sound.current
  refine ⟨⟨has ▸ Counts.single m.current.toStoredAgreementKey, fun k listed => ?_⟩, ?_⟩
  · rw [mem_singleton.mp listed]
    exact sound.claims _ member
  · have found : [m.current].find? (·.seq = m.highestSeq) = some m.current :=
      find?_cons_of_pos (decide_eq_true has)
    exact congrArg (fun k => (k.getD m.current).statement) found

variable [Libraries] [AgreementCurve] (identity : SigningDevice)

def ownKey (k : StoredAgreementKey) : Except AgreementKeyError OwnKey := do
  let octets ← okOr (AgreementCurve.publicOf k.privateKey) .corrupt
  let key ← okOr (AgreementPublicKey.fromOctets octets) .corrupt
  let statement ← okOr (AgreementStatement.issue identity key k.seq k.issuedAt) .corrupt
  return ⟨k, statement⟩

def fromState (state : AgreementKeyState) : Except AgreementKeyError AgreementKeys := do
  let highestSeq ← okOr state.highestSeq .corrupt
  let keys ← state.keys.mapM fun k => if highestSeq < k.seq then .error .corrupt else ownKey identity k
  if empty : keys = [] then .error .corrupt
  else return ⟨keys.insertionSort OwnKey.newestFirst, highestSeq,
    fun none => empty (length_eq_zero_iff.mp (by rw [← length_insertionSort OwnKey.newestFirst, none]; rfl))⟩

/-- A new key in front of `keys`, whose `seq` is durable before its statement exists. -/
def generate (saving back : KeyStore AgreementKeyState S) (keys : List StoredAgreementKey) (seq : Nat)
    (fresh : List UInt8) (now : Timestamp) (s : S) : Except AgreementKeyError AgreementKeys × S :=
  let state : AgreementKeyState := ⟨⟨fresh, seq, now⟩ :: keys, some seq⟩
  match saveChecked saving back state s with
  | (.error e, s) => (.error e, s)
  | (.ok (), s) => (fromState identity state, s)

/-- The stored keys, or a new one when the store holds none; the store may answer each call
differently. -/
def loadOrGenerate (first saving back : KeyStore AgreementKeyState S) (fresh : List UInt8)
    (now : Timestamp) (s : S) : Except AgreementKeyError AgreementKeys × S :=
  match first.load s with
  | .error e => (.error (.store e), s)
  | .ok none => generate identity saving back [] 0 fresh now s
  | .ok (some state) =>
    if state.keys = [] then match nextSeq state.highestSeq with
      | .error e => (.error e, s)
      | .ok seq => generate identity saving back [] seq fresh now s
    else (fromState identity state, s)

def replace (m : AgreementKeys) (saving back : KeyStore AgreementKeyState S) (fresh : List UInt8)
    (now : Timestamp) (s : S) : Except AgreementKeyError AgreementStatement × AgreementKeys × S :=
  match nextSeq (some m.highestSeq) with
  | .error e => (.error e, m, s)
  | .ok seq => match generate identity saving back m.state.keys seq fresh now s with
    | (.error e, s) => (.error e, m, s)
    | (.ok made, s) => (.ok made.statement, made, s)

variable {identity}

theorem ownKey_stored (taken : ownKey identity k = .ok own) : own.toStoredAgreementKey = k := by
  obtain ⟨_, -, taken⟩ := bind_eq_ok.mp taken
  obtain ⟨_, -, taken⟩ := bind_eq_ok.mp taken
  obtain ⟨_, -, taken⟩ := bind_eq_ok.mp taken
  cases taken
  rfl

theorem ownKey_claims (taken : ownKey identity k = .ok own) :
    ∃ v, own.statement.claimedValues = some v ∧ v.seq = k.seq := by
  obtain ⟨_, -, taken⟩ := bind_eq_ok.mp taken
  obtain ⟨_, -, taken⟩ := bind_eq_ok.mp taken
  obtain ⟨_, issued, taken⟩ := bind_eq_ok.mp taken
  cases taken
  exact ⟨_, AgreementStatement.issue_claims (okOr_eq_ok.mp issued), rfl⟩

theorem fromState_eq_ok (made : fromState identity st = .ok m) :
    st.highestSeq = some m.highestSeq ∧ m.state.keys.Perm st.keys ∧
      ∀ k ∈ m.keys, ∃ v, k.statement.claimedValues = some v ∧ v.seq = k.seq := by
  obtain ⟨h, highest, made⟩ := bind_eq_ok.mp made
  obtain ⟨keys, read, made⟩ := bind_eq_ok.mp made
  split at made
  · cases made
  cases made
  have each : Forall₂ (fun k own => ownKey identity k = .ok own) st.keys keys := by
    refine (mapM_eq_ok.mp read).imp fun k own taken => ?_
    split at taken
    · cases taken
    · exact taken
  have sorted := perm_insertionSort OwnKey.newestFirst keys
  refine ⟨okOr_eq_ok.mp highest, ?_, fun k listed => ?_⟩
  · have mapped := forall₂_map_right_iff.mpr (each.imp fun _ _ taken => (ownKey_stored taken).symm)
    rw [forall₂_eq_eq_eq] at mapped
    exact mapped ▸ sorted.map _
  · obtain ⟨stored, -, taken⟩ := exists_of_forall₂ each.flip (sorted.mem_iff.mp listed)
    exact ownKey_stored taken ▸ ownKey_claims taken

theorem fromState_sound (made : fromState identity st = .ok m)
    (counts : Counts m.highestSeq st.keys) : Sound m := by
  obtain ⟨-, same, claims⟩ := fromState_eq_ok made
  exact ⟨counts.perm same, claims⟩

theorem generate_eq (identity : SigningDevice) (saving back : KeyStore AgreementKeyState S)
    (l : List StoredAgreementKey) (seq : Nat) (fresh : List UInt8) (now : Timestamp) (s : S) :
    let st : AgreementKeyState := ⟨⟨fresh, seq, now⟩ :: l, some seq⟩
    (generate identity saving back l seq fresh now s).2 = (saving.save st s).2 ∧
      ∀ m, (generate identity saving back l seq fresh now s).1 = .ok m →
        back.load (saving.save st s).2 = .ok (some st) ∧ fromState identity st = .ok m := by
  dsimp only [generate]
  obtain ⟨left, kept⟩ := @saveChecked_eq S ⟨⟨fresh, seq, now⟩ :: l, some seq⟩ s saving back
  split
  next checked => exact ⟨by rw [← left, checked], nofun⟩
  next checked =>
    have loaded := kept (by rw [checked])
    exact ⟨by rw [← left, checked], fun m made => ⟨loaded, made⟩⟩

end AgreementKeys

end Oac
