import Oac.Agreement.Keys
import Oac.EnvelopeRoundTrip

/-! Runs of a device's agreement keys: starts, replacements, erasures and restarts, over a store
that may refuse to be read, fail before or after it wrote, or drop a write. What is stored counts
every `seq` that was issued. -/

namespace Oac

open Transition

/-- How the store answers: whether it can be read, what a save returns and whether it was made. -/
structure StoreAnswer where
  unread : Option KeyStoreError
  answer : Except KeyStoreError Unit
  written : Bool

def StoreAnswer.store (a : StoreAnswer) : KeyStore AgreementKeyState (Option AgreementKeyState) where
  load s := match a.unread with
    | some e => .error e
    | none => .ok s
  save st s := (a.answer, if a.written then some st else s)

theorem StoreAnswer.load_eq_ok (loaded : (store a).load s = .ok found) : found = s := by
  dsimp only [store] at loaded
  split at loaded <;> cases loaded
  rfl

/-- The keys a process holds, what is stored, and every statement returned so far. -/
structure KeyRun where
  memory : Option AgreementKeys
  stored : Option AgreementKeyState
  issued : List AgreementStatement

/-- A call, with how the store answers in it, or a restart. -/
inductive KeyCall where
  | loadOrGenerate (first saving back : StoreAnswer) (fresh : List UInt8) (now : Timestamp)
  | replace (saving back : StoreAnswer) (fresh : List UInt8) (now : Timestamp)
  | eraseReplaced (saving back : StoreAnswer)
  | restart

namespace KeyRun

open AgreementKeys StoreAnswer

def seqs (r : KeyRun) : List Nat := r.issued.filterMap fun s => s.claimedValues.map (·.seq)

/-- What is stored counts `n`. -/
def Recorded (s : Option AgreementKeyState) (n : Nat) : Prop :=
  ∃ st h, s = some st ∧ st.highestSeq = some h ∧ n ≤ h

def Entire (s : Option AgreementKeyState) : Prop :=
  ∀ st, s = some st → ∃ h, st.highestSeq = some h ∧ Counts h st.keys

structure Sound (r : KeyRun) : Prop where
  entire : Entire r.stored
  recorded : ∀ n ∈ r.seqs, Recorded r.stored n
  memory : ∀ m, r.memory = some m → m.Sound ∧ Recorded r.stored m.highestSeq ∧ ∀ n ∈ r.seqs, n ≤ m.highestSeq

def Under (r : KeyRun) (h : Nat) : Prop :=
  (∀ n ∈ r.seqs, n < h) ∧ ∀ m, r.memory = some m → m.highestSeq < h

theorem Recorded.lower (recorded : Recorded s h) (below : n ≤ h) : Recorded s n := by
  obtain ⟨st, c, stored, counted, most⟩ := recorded
  exact ⟨st, c, stored, counted, below.trans most⟩

theorem Recorded.le (recorded : Recorded (some st) n) (counted : st.highestSeq = some h) : n ≤ h := by
  obtain ⟨_, _, same, counted', below⟩ := recorded
  cases same
  exact Option.some.inj (counted.symm.trans counted') ▸ below

theorem Entire.save (entire : Entire s) (counts : Counts h l) (a : StoreAnswer) :
    Entire ((store a).save ⟨l, some h⟩ s).2 ∧
      (∀ n ≤ h, Recorded s n → Recorded ((store a).save ⟨l, some h⟩ s).2 n) ∧
      ∀ b, (store b).load ((store a).save ⟨l, some h⟩ s).2 = .ok (some ⟨l, some h⟩) →
        Recorded ((store a).save ⟨l, some h⟩ s).2 h := by
  have new : ∀ n ≤ h, Recorded (some ⟨l, some h⟩) n := fun n below => ⟨_, h, rfl, rfl, below⟩
  refine ⟨?_, ?_, fun b loaded => load_eq_ok loaded ▸ new h h.le_refl⟩
  all_goals
    dsimp only [store]
    split
  · intro st same
    cases same
    exact ⟨h, rfl, counts⟩
  · exact entire
  · exact fun n below _ => new n below
  · exact fun n _ recorded => recorded

variable {r : KeyRun} (sound : Sound r)

include sound

theorem Sound.save (a : StoreAnswer) (counts : Counts h l) (under : Under r (h + 1)) :
    Sound { r with stored := ((store a).save ⟨l, some h⟩ r.stored).2 } := by
  obtain ⟨entire, still, -⟩ := sound.entire.save counts a
  refine ⟨entire, fun n issued => still n (Nat.le_of_lt_succ (under.1 n issued))
    (sound.recorded n issued), fun m holds => ?_⟩
  obtain ⟨correct, recorded, below⟩ := sound.memory m holds
  exact ⟨correct, still _ (Nat.le_of_lt_succ (under.2 m holds)) recorded, below⟩

theorem Sound.under (bound : ∀ n, Recorded r.stored n → n < h) : Under r h :=
  ⟨fun n issued => bound n (sound.recorded n issued), fun m holds => bound _ (sound.memory m holds).2.1⟩

theorem Sound.erased (holds : r.memory = some m) (saving back : StoreAnswer) :
    let out := m.eraseReplaced (store saving) (store back) r.stored
    Sound { r with memory := some out.2.1, stored := out.2.2 } ∧
      match out.1 with
      | .error _ => out.2.1 = m
      | .ok _ => out.2.1 = m.onlyCurrent := by
  obtain ⟨correct, -, below⟩ := sound.memory m holds
  obtain ⟨left, -⟩ := @saveChecked_eq _ m.onlyCurrent.state r.stored (store saving) (store back)
  have after := sound.save saving correct.onlyCurrent.1.counts
    ⟨fun n issued => Nat.lt_succ_of_le (below n issued), fun m' holds' => by
      cases holds.symm.trans holds'
      exact Nat.lt_succ_self _⟩
  change Sound { r with stored := ((store saving).save m.onlyCurrent.state r.stored).2 } at after
  dsimp only [eraseReplaced]
  split
  next failed =>
    rw [← left, failed] at after
    exact ⟨holds ▸ after, rfl⟩
  next done =>
    rw [← left, done] at after
    refine ⟨⟨after.entire, after.recorded, fun m' same => ?_⟩, rfl⟩
    cases same
    exact ⟨correct.onlyCurrent.1, (after.memory m holds).2⟩

omit sound in
/-- Keys a call returned are taken into memory, and their statement is issued. -/
theorem Sound.take (entire : Entire s) (correct : m.Sound) (recorded : Recorded s m.highestSeq)
    (below : ∀ n ∈ r.seqs, n ≤ m.highestSeq) : Sound ⟨some m, s, m.statement :: r.issued⟩ := by
  obtain ⟨v, claims, same⟩ := correct.statement
  have all : ∀ n ∈ seqs ⟨some m, s, m.statement :: r.issued⟩, n ≤ m.highestSeq := by
    intro n issued
    simp only [seqs, List.filterMap_cons, claims, Option.map_some, List.mem_cons, same] at issued
    exact issued.elim (·.le) (below n)
  refine ⟨entire, fun n issued => recorded.lower (all n issued), fun m' taken => ?_⟩
  cases taken
  exact ⟨correct, recorded, all⟩

variable [Libraries] [AgreementCurve] (identity : SigningDevice)

def step (call : KeyCall) (r : KeyRun) : Option KeyRun :=
  match call with
  | .loadOrGenerate first saving back fresh now =>
    match loadOrGenerate identity (store first) (store saving) (store back) fresh now r.stored with
    | (.ok m, s) => some ⟨some m, s, m.statement :: r.issued⟩
    | (.error _, s) => some { r with stored := s }
  | .replace saving back fresh now => r.memory.map fun m =>
    match m.replace identity (store saving) (store back) fresh now r.stored with
    | (.ok statement, m, s) => ⟨some m, s, statement :: r.issued⟩
    | (.error _, m, s) => ⟨some m, s, r.issued⟩
  | .eraseReplaced saving back => r.memory.map fun m =>
    let (_, m, s) := m.eraseReplaced (store saving) (store back) r.stored
    ⟨some m, s, r.issued⟩
  | .restart => some { r with memory := none }

/-- What no call repeats: a new statement claims more than every one before it. -/
structure NoRepeat (r : KeyRun) : Prop where
  current : ∀ m, r.memory = some m →
    ∃ v, m.statement.claimedValues = some v ∧ v.seq = m.highestSeq ∧ ∀ n ∈ r.seqs, n ≤ v.seq
  started : ∀ first saving back fresh now m s,
    loadOrGenerate identity (store first) (store saving) (store back) fresh now r.stored = (.ok m, s) →
    (∃ st, (store first).load r.stored = .ok (some st) ∧ st.keys ≠ [] ∧ fromState identity st = .ok m) ∨
      ∃ v, m.statement.claimedValues = some v ∧ ∀ n ∈ r.seqs, n < v.seq
  replaced : ∀ m, r.memory = some m → ∀ saving back fresh now result m' s,
    m.replace identity (store saving) (store back) fresh now r.stored = (result, m', s) →
    match result with
    | .error _ => m' = m
    | .ok statement => statement = m'.statement ∧ ∃ v, statement.claimedValues = some v ∧ ∀ n ∈ r.seqs, n < v.seq
  erased : ∀ m, r.memory = some m → ∀ saving back result m' s,
    m.eraseReplaced (store saving) (store back) r.stored = (result, m', s) →
    match result with
    | .error _ => m' = m
    | .ok _ => m'.keys = [m.current] ∧ m'.highestSeq = m.highestSeq ∧ m'.statement = m.statement

/-- The outcome of a start: keys it loaded, or a new one above all that was issued. -/
structure Started (first : StoreAnswer) (r : KeyRun) (m : AgreementKeys)
    (s : Option AgreementKeyState) : Prop where
  sound : m.Sound
  recorded : Recorded s m.highestSeq
  loaded : (∃ st, (store first).load r.stored = .ok (some st) ∧ st.keys ≠ [] ∧ fromState identity st = .ok m) ∧
    (∀ n ∈ r.seqs, n ≤ m.highestSeq) ∨ ∀ n ∈ r.seqs, n < m.highestSeq

theorem Sound.generate (saving back : StoreAnswer) (fresh : List UInt8) (now : Timestamp)
    (counts : Counts seq (⟨fresh, seq, now⟩ :: l)) (under : Under r seq) :
    let out := AgreementKeys.generate identity (store saving) (store back) l seq fresh now r.stored
    Sound { r with stored := out.2 } ∧
      ∀ m, out.1 = .ok m → m.Sound ∧ Recorded out.2 m.highestSeq ∧ m.highestSeq = seq := by
  obtain ⟨left, made⟩ := generate_eq identity (store saving) (store back) l seq fresh now r.stored
  have after := sound.save saving counts
    ⟨fun n issued => (under.1 n issued).trans seq.lt_succ_self,
      fun m holds => (under.2 m holds).trans seq.lt_succ_self⟩
  dsimp only
  rw [left]
  refine ⟨after, fun m generated => ?_⟩
  obtain ⟨loaded, taken⟩ := made m generated
  have same : seq = m.highestSeq := Option.some.inj (fromState_eq_ok taken).1
  subst same
  exact ⟨fromState_sound taken counts, (sound.entire.save counts saving).2.2 back loaded, rfl⟩

theorem Sound.startGenerated (first saving back : StoreAnswer) (fresh : List UInt8)
    (now : Timestamp) (under : Under r seq) :
    let out := AgreementKeys.generate identity (store saving) (store back) [] seq fresh now r.stored
    Sound { r with stored := out.2 } ∧ ∀ m, out.1 = .ok m → Started identity first r m out.2 := by
  obtain ⟨after, made⟩ := sound.generate identity saving back fresh now (.single ⟨fresh, seq, now⟩) under
  refine ⟨after, fun m generated => ?_⟩
  obtain ⟨correct, recorded, same⟩ := made m generated
  exact ⟨correct, recorded, .inr (same ▸ under.1)⟩

theorem Sound.start (first saving back : StoreAnswer) (fresh : List UInt8) (now : Timestamp) :
    let out := loadOrGenerate identity (store first) (store saving) (store back) fresh now r.stored
    Sound { r with stored := out.2 } ∧ ∀ m, out.1 = .ok m → Started identity first r m out.2 := by
  dsimp only [loadOrGenerate]
  split
  next => exact ⟨sound, nofun⟩
  next loaded =>
    refine sound.startGenerated identity first saving back fresh now (sound.under fun n ⟨_, _, stored, _⟩ => ?_)
    cases (load_eq_ok loaded).trans stored
  next st loaded =>
    have stored := load_eq_ok loaded
    obtain ⟨h, counted, counts⟩ := sound.entire st stored.symm
    have bound : ∀ n, Recorded r.stored n → n ≤ h := fun n recorded => (stored ▸ recorded).le counted
    split
    · rw [counted]
      split
      · exact ⟨sound, nofun⟩
      · next seq next =>
        have above := nextSeq_eq_ok next
        exact sound.startGenerated identity first saving back fresh now
          (sound.under fun n recorded => above ▸ Nat.lt_succ_of_le (bound n recorded))
    · next some =>
      refine ⟨sound, fun m taken => ?_⟩
      have same := Option.some.inj (counted.symm.trans (fromState_eq_ok taken).1)
      subst same
      exact ⟨fromState_sound taken counts, ⟨st, _, stored.symm, counted, Nat.le_refl _⟩,
        .inl ⟨⟨st, loaded, some, taken⟩, fun n issued => bound n (sound.recorded n issued)⟩⟩

theorem Sound.replaced (holds : r.memory = some m) (saving back : StoreAnswer) (fresh : List UInt8)
    (now : Timestamp) :
    let out := m.replace identity (store saving) (store back) fresh now r.stored
    Sound { r with stored := out.2.2 } ∧
      match out.1 with
      | .error _ => out.2.1 = m
      | .ok statement => statement = out.2.1.statement ∧ out.2.1.Sound ∧ Recorded out.2.2 out.2.1.highestSeq ∧
        ∀ n ∈ r.seqs, n < out.2.1.highestSeq := by
  obtain ⟨correct, -, below⟩ := sound.memory m holds
  dsimp only [replace]
  split
  next failed => exact ⟨sound, rfl⟩
  next seq next =>
    obtain rfl := nextSeq_eq_ok next
    have under : Under r (m.highestSeq + 1) := by
      refine ⟨fun n issued => Nat.lt_succ_of_le (below n issued), fun m' holds' => ?_⟩
      cases holds.symm.trans holds'
      exact Nat.lt_succ_self _
    obtain ⟨after, made⟩ := sound.generate identity saving back fresh now (correct.counts.next fresh now) under
    split
    next failed =>
      rw [failed] at after
      exact ⟨after, rfl⟩
    next m' s taken =>
      rw [taken] at after made
      obtain ⟨correct, recorded, same⟩ := made m' rfl
      exact ⟨after, rfl, correct, recorded, same ▸ under.1⟩

theorem Sound.step (call : KeyCall) (stepped : step identity call r = some r') : Sound r' := by
  cases call with
  | loadOrGenerate first saving back fresh now =>
    obtain ⟨after, started⟩ := sound.start identity first saving back fresh now
    simp only [KeyRun.step] at stepped
    split at stepped
    · next made =>
      rw [made] at after started
      cases stepped
      obtain ⟨correct, recorded, loaded⟩ := started _ rfl
      exact Sound.take after.entire correct recorded
        (loaded.elim (·.2) fun above n issued => (above n issued).le)
    · next failed =>
      rw [failed] at after
      cases stepped
      exact after
  | replace saving back fresh now =>
    obtain ⟨m, holds, rfl⟩ := Option.map_eq_some_iff.mp stepped
    obtain ⟨after, made⟩ := sound.replaced identity holds saving back fresh now
    split
    · next taken =>
      rw [taken] at after made
      obtain ⟨same, correct, recorded, above⟩ := made
      exact same ▸ Sound.take after.entire correct recorded fun n issued => (above n issued).le
    · next failed =>
      rw [failed] at after made
      obtain rfl := made
      exact holds ▸ after
  | eraseReplaced saving back =>
    obtain ⟨m, holds, rfl⟩ := Option.map_eq_some_iff.mp stepped
    exact (sound.erased holds saving back).1
  | restart =>
    cases stepped
    exact ⟨sound.entire, sound.recorded, nofun⟩

theorem Sound.noRepeat : NoRepeat identity r := by
  refine ⟨fun m holds => ?_, fun first saving back fresh now m s made => ?_,
    fun m holds saving back fresh now result m' s made => ?_, fun m holds saving back result m' s made => ?_⟩
  · obtain ⟨correct, -, below⟩ := sound.memory m holds
    obtain ⟨v, claims, same⟩ := correct.statement
    exact ⟨v, claims, same, same ▸ below⟩
  · have started := (sound.start identity first saving back fresh now).2
    rw [made] at started
    obtain ⟨correct, -, ⟨loaded, -⟩ | above⟩ := started m rfl
    · exact .inl loaded
    · obtain ⟨v, claims, same⟩ := correct.statement
      exact .inr ⟨v, claims, same ▸ above⟩
  · have replaced := (sound.replaced identity holds saving back fresh now).2
    rw [made] at replaced
    cases result with
    | error e => exact replaced
    | ok statement =>
      obtain ⟨same, correct, -, above⟩ := replaced
      obtain ⟨v, claims, counted⟩ := correct.statement
      exact ⟨same, v, same ▸ claims, counted ▸ above⟩
  · have erased := (sound.erased holds saving back).2
    rw [made] at erased
    cases result with
    | error e => exact erased
    | ok count =>
      obtain rfl := erased
      exact ⟨rfl, rfl, (sound.memory m holds).1.onlyCurrent.2⟩

omit sound in
/-- Over a store that may refuse to be read, fail before or after it wrote, or drop a write, in
every run of starts, replacements, erasures and restarts no statement's `seq` is issued again. -/
theorem agreement_seq_never_repeats (identity : SigningDevice)
    (run : Reaches (step identity) anyMove ⟨none, none, []⟩ r) : NoRepeat identity r := by
  have empty : Sound ⟨none, none, []⟩ := ⟨nofun, nofun, nofun⟩
  have sound := run.invariant (fun call s t _ stepped sound => sound.step identity call stepped) empty
  exact sound.noRepeat identity

end KeyRun

section Sample

/-- Every private key has the public key of the curve's base point. -/
@[reducible] def sampleCurve : AgreementCurve := ⟨fun _ => some (9 :: List.replicate 31 0)⟩

attribute [local instance] exactLibraries sampleCurve

/-- A start whose save is dropped, a start that issues `seq` 0, a replacement that was written and
failed all the same, a restart, a start that loads what it wrote, and a replacement. -/
def sampleKeyCalls : List KeyCall :=
  let works : StoreAnswer := ⟨none, .ok (), true⟩
  [.loadOrGenerate works ⟨none, .ok (), false⟩ works [0] .epoch, .loadOrGenerate works works works [1] .epoch,
    .replace ⟨none, .error (.failed "full"), true⟩ works [2] .epoch, .restart,
    .loadOrGenerate works works works [3] .epoch, .replace works works [4] .epoch]

theorem KeyRun.agreement_seq_never_repeats_sample :
    ∃ r : KeyRun, r.seqs = [2, 1, 0] ∧ r.NoRepeat sampleDevice := by
  have performed : (perform (KeyRun.step sampleDevice) sampleKeyCalls ⟨none, none, []⟩).map
      KeyRun.seqs = some [2, 1, 0] := by decide +kernel
  obtain ⟨r, reaches, issued⟩ := reached_of_map _ performed
  exact ⟨r, issued, KeyRun.agreement_seq_never_repeats sampleDevice reaches⟩

end Sample

end Oac
