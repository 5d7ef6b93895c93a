import Oac.Authorization.EnvelopeBindings
import Oac.Authorization.RecordBookProofs

/-! The counts that `EnvelopeBindings` keeps for each key are exact, and what it would evict is a
free entry. -/

namespace Oac.EnvelopeBindings

open Table AList Option

def freeOf (t : EnvelopeBindings) (k : KeyId) : Table Nat SessionId :=
  (t.keys.lookup k).elim ∅ KeyBindings.free

def pinnedOf (t : EnvelopeBindings) (k : KeyId) : Nat := (t.keys.lookup k).elim 0 KeyBindings.pinned

/-- One for an entry of `k` with the given pin, zero for any other. -/
def weight (k : KeyId) (pinned : Bool) (_ : SessionId) (e : EnvelopeBinding) : Nat :=
  if e.key = k ∧ e.pinned = pinned then 1 else 0

def tracked (t : EnvelopeBindings) (k : KeyId) (pinned : Bool) : Nat :=
  sum (weight k pinned) t.sessions

structure Exact (t : EnvelopeBindings) : Prop where
  free : ∀ k seq s, (t.freeOf k).lookup seq = some s ↔ t.sessions.lookup s = some ⟨k, seq, false⟩
  freeCount : ∀ k, size (t.freeOf k) = t.tracked k false
  pinnedCount : ∀ k, t.pinnedOf k = t.tracked k true
  nonzero : ∀ k kb, t.keys.lookup k = some kb → 0 < kb.len
  seqs : ∀ s e, t.sessions.lookup s = some e → e.seq ≤ t.next
  unique : ∀ s s' e e', t.sessions.lookup s = some e → t.sessions.lookup s' = some e' → e.seq = e'.seq → s = s'

theorem new_exact (capacity perKey : Nat) : (new capacity perKey).Exact where
  free k seq s := by simp [new, freeOf]
  freeCount k := rfl
  pinnedCount k := rfl
  nonzero k kb held := by simp [new] at held
  seqs s e held := by simp [new] at held
  unique s s' e e' held := by simp [new] at held

theorem heldBy_eq (t : EnvelopeBindings) (k : KeyId) : t.heldBy k = size (t.freeOf k) + t.pinnedOf k := by
  unfold heldBy freeOf pinnedOf
  cases t.keys.lookup k <;> rfl

/-- The key table with the entry of one key replaced, or removed when nothing is left in it. -/
structure KeyMoved (t t' : EnvelopeBindings) (key : KeyId) (kb : KeyBindings) : Prop where
  keys : ∀ k, t'.keys.lookup k = if k = key then (if kb.len = 0 then none else some kb) else t.keys.lookup k

theorem KeyMoved.freeOf (moved : KeyMoved t t' key kb) (k : KeyId) :
    (∀ seq, (t'.freeOf k).lookup seq = if k = key then kb.free.lookup seq else (t.freeOf k).lookup seq) ∧
      size (t'.freeOf k) = if k = key then size kb.free else size (t.freeOf k) := by
  unfold EnvelopeBindings.freeOf
  rw [moved.keys]
  by_cases same : k = key
  · by_cases empty : kb.len = 0
    · have none : kb.free.entries = [] := List.length_eq_zero_iff.mp (Nat.eq_zero_of_add_eq_zero_right empty)
      have free : kb.free = ∅ := ext none
      simp [same, empty, free]
    · simp [same, empty]
  · simp [same]

theorem KeyMoved.pinnedOf (moved : KeyMoved t t' key kb) (k : KeyId) :
    t'.pinnedOf k = if k = key then kb.pinned else t.pinnedOf k := by
  unfold EnvelopeBindings.pinnedOf
  rw [moved.keys]
  by_cases same : k = key
  · by_cases empty : kb.len = 0
    · have none : kb.pinned = 0 := Nat.eq_zero_of_add_eq_zero_left empty
      simp [same, empty, none]
    · simp [same, empty]
  · simp [same]

theorem KeyMoved.nonzero (exact : t.Exact) (moved : KeyMoved t t' key kb) (k : KeyId)
    (kb' : KeyBindings) (held : t'.keys.lookup k = some kb') : 0 < kb'.len := by
  rw [moved.keys] at held
  split at held
  · split at held
    · cases held
    · next filled =>
      cases held
      exact Nat.pos_of_ne_zero filled
  · exact exact.nonzero k kb' held

variable {t : EnvelopeBindings}

theorem freeOf_of_lookup
    (held : t.keys.lookup k = some kb) : t.freeOf k = kb.free := by
  simp [freeOf, held]

theorem pinnedOf_of_lookup
    (held : t.keys.lookup k = some kb) : t.pinnedOf k = kb.pinned := by
  simp [pinnedOf, held]

theorem Exact.keyed (exact : t.Exact)
    (held : t.sessions.lookup s = some e) : ∃ kb, t.keys.lookup e.key = some kb ∧
      (e.pinned = false → kb.free.lookup e.seq = some s) ∧ (e.pinned = true → 0 < kb.pinned) := by
  obtain ⟨key, seq, pinned⟩ := e
  cases pinned with
  | false =>
    have placed := (exact.free key seq s).mpr held
    cases found : t.keys.lookup key with
    | none => simp [freeOf, found] at placed
    | some kb =>
      rw [freeOf_of_lookup found] at placed
      exact ⟨kb, rfl, fun _ => placed, fun on => by cases on⟩
  | true =>
    have counted : 0 < t.pinnedOf key := by
      rw [exact.pinnedCount, tracked, sum_erase held]
      simp only [weight, and_self, if_true]
      omega
    cases found : t.keys.lookup key with
    | none => simp [pinnedOf, found] at counted
    | some kb =>
      rw [pinnedOf_of_lookup found] at counted
      exact ⟨kb, rfl, fun off => by (cases off), fun _ => counted⟩

theorem freeCount_of_free
    (free : ∀ seq s, (t.freeOf k).lookup seq = some s ↔ t.sessions.lookup s = some ⟨k, seq, false⟩) :
    size (t.freeOf k) = t.tracked k false := by
  refine size_eq_sum_of_index (f := EnvelopeBinding.seq) fun seq s => (free seq s).trans ⟨fun found => ?_, ?_⟩
  · exact ⟨_, found, ⟨rfl, rfl⟩, rfl⟩
  · rintro ⟨⟨_, _, _⟩, found, ⟨rfl, rfl⟩, rfl⟩
    exact found

/-- The entry of one session replaced, absent before or after included, and that of its key with
it. -/
theorem Exact.moved {new : Option EnvelopeBinding} (exact : t.Exact) (moved : KeyMoved t t' key kb)
    (sessions : ∀ s, t'.sessions.lookup s = if s = session then new else t.sessions.lookup s)
    (keyed : ∀ e, t.sessions.lookup session = some e ∨ new = some e → e.key = key)
    (free : ∀ seq s, kb.free.lookup seq = some s ↔
      (if s = session then new else t.sessions.lookup s) = some ⟨key, seq, false⟩)
    (pinned : kb.pinned + (t.sessions.lookup session).elim 0 (weight key true session) =
      t.pinnedOf key + new.elim 0 (weight key true session)) (later : t.next ≤ t'.next)
    (numbered : ∀ e, new = some e → e.seq ≤ t'.next ∧
      ∀ s e', s ≠ session → t.sessions.lookup s = some e' → e'.seq ≠ e.seq) : t'.Exact := by
  have frees : ∀ k seq s, (t'.freeOf k).lookup seq = some s ↔ t'.sessions.lookup s = some ⟨k, seq, false⟩ := by
    intro k seq s
    rw [(moved.freeOf k).1, sessions]
    by_cases own : k = key
    · rw [own, if_pos rfl]
      exact free seq s
    · rw [if_neg own, exact.free]
      by_cases here : s = session
      · rw [here, if_pos rfl]
        exact ⟨fun found => absurd (keyed _ (.inl found)) own, fun found => absurd (keyed _ (.inr found)) own⟩
      · rw [if_neg here]
  refine ⟨frees, fun k => freeCount_of_free (frees k), fun k => ?_, moved.nonzero exact,
    fun s e found => ?_, fun s s' e e' found found' same => ?_⟩
  · have counted : t'.tracked k true + _ = t.tracked k true + _ := sum_update sessions
    have before := exact.pinnedCount k
    rw [moved.pinnedOf]
    by_cases own : k = key
    · subst own
      rw [if_pos rfl]
      omega
    · have none : ∀ entry : Option EnvelopeBinding, (∀ e, entry = some e → e.key = key) →
          entry.elim 0 (weight k true session) = 0 := by
        intro entry keyed
        cases entry with
        | none => rfl
        | some e => simp [weight, keyed e rfl, Ne.symm own]
      rw [none _ fun e found => keyed e (.inl found), none _ fun e found => keyed e (.inr found)] at counted
      rw [if_neg own]
      omega
  · rw [sessions] at found
    split at found
    · exact (numbered e found).1
    · exact (exact.seqs s e found).trans later
  · rw [sessions] at found found'
    split at found
    · next own =>
      split at found'
      · next own' => rw [own, own']
      · next other => exact absurd same.symm ((numbered e found).2 s' e' other found')
    · next other =>
      split at found'
      · exact absurd same ((numbered e' found').2 s e other found)
      · exact exact.unique s s' e e' found found' same

section Untrack

variable {t : EnvelopeBindings} {session : SessionId} {e : EnvelopeBinding} {kb : KeyBindings}

theorem untrack_absent (absent : t.sessions.lookup session = none) : t.untrack session = t := by
  simp only [untrack, absent]

theorem untrack_sessions (s : SessionId) :
    (t.untrack session).sessions.lookup s = if s = session then none else t.sessions.lookup s := by
  cases held : t.sessions.lookup session with
  | none =>
    rw [untrack_absent held]
    split
    · next same => rw [same, held]
    · rfl
  | some e =>
    simp only [untrack, held]
    cases t.keys.lookup e.key with
    | none | some => exact lookup_erase_if ..

theorem untrack_moved (held : t.sessions.lookup session = some e) (keyed : t.keys.lookup e.key = some kb) :
    KeyMoved t (t.untrack session) e.key (kb.without e) := by
  refine ⟨fun k => ?_⟩
  simp only [untrack, held, keyed]
  split
  · exact lookup_erase_if ..
  · exact lookup_insert_if ..

theorem untrack_limits (t : EnvelopeBindings) (session : SessionId) : (t.untrack session).next = t.next ∧
      (t.untrack session).perKey = t.perKey ∧ (t.untrack session).capacity = t.capacity := by
  unfold untrack
  cases t.sessions.lookup session with
  | none => exact ⟨rfl, rfl, rfl⟩
  | some e =>
    dsimp only
    cases t.keys.lookup e.key <;> exact ⟨rfl, rfl, rfl⟩

theorem without_free (freed : e.pinned = false → kb.free.lookup e.seq = some session)
    (held : t.sessions.lookup session = some e)
    (placed : ∀ seq s, kb.free.lookup seq = some s ↔ t.sessions.lookup s = some ⟨e.key, seq, false⟩)
    (seq : Nat) (s : SessionId) : (kb.without e).free.lookup seq = some s ↔
      s ≠ session ∧ t.sessions.lookup s = some ⟨e.key, seq, false⟩ := by
  obtain ⟨key, own, pinned⟩ := e
  cases pinned with
  | true =>
    simp only [KeyBindings.without, if_true, placed]
    refine ⟨fun found => ⟨?_, found⟩, And.right⟩
    rintro rfl
    rw [held] at found
    simp at found
  | false =>
    simp only [KeyBindings.without, Bool.false_eq_true, if_false, lookup_erase_if]
    by_cases same : seq = own
    · subst same
      simp only [if_true, reduceCtorEq, false_iff, not_and]
      rintro other found
      have again := (placed seq s).mpr found
      rw [freed rfl] at again
      exact other (some.inj again).symm
    · rw [if_neg same, placed]
      refine ⟨fun found => ⟨?_, found⟩, And.right⟩
      rintro rfl
      rw [held] at found
      simp only [some.injEq, EnvelopeBinding.mk.injEq, and_true, true_and] at found
      exact same found.symm

theorem Exact.untrack (exact : t.Exact) (session : SessionId) : (t.untrack session).Exact := by
  cases held : t.sessions.lookup session with
  | none => rwa [untrack_absent held]
  | some e =>
    obtain ⟨kb, keyed, freed, pinnedOne⟩ := exact.keyed held
    have placed := exact.free e.key
    rw [freeOf_of_lookup keyed] at placed
    refine exact.moved (untrack_moved held keyed) untrack_sessions ?_ (fun seq s => ?_) ?_
      (untrack_limits t session).1.ge nofun
    · rintro e' (found | found)
      · cases held.symm.trans found
        rfl
      · cases found
    · rw [without_free freed held placed]
      by_cases here : s = session <;> simp [here]
    · rw [held, pinnedOf_of_lookup keyed]
      cases pins : e.pinned with
      | true =>
        have one := pinnedOne pins
        simp only [KeyBindings.without, pins, if_true, elim_some, elim_none, weight, and_self]
        omega
      | false => simp [KeyBindings.without, pins, weight]

end Untrack

def entryOf (t : EnvelopeBindings) (k : KeyId) : KeyBindings := (t.keys.lookup k).getD .none

theorem entryOf_free (t : EnvelopeBindings) (k : KeyId) : (t.entryOf k).free = t.freeOf k := by
  unfold entryOf freeOf
  cases t.keys.lookup k <;> rfl

theorem entryOf_pinned (t : EnvelopeBindings) (k : KeyId) : (t.entryOf k).pinned = t.pinnedOf k := by
  unfold entryOf pinnedOf
  cases t.keys.lookup k <;> rfl

section Track

variable {t : EnvelopeBindings} {session : SessionId} {key : KeyId} {pinned : Bool}

theorem adding_len (kb : KeyBindings) (seq : Nat) : 0 < (kb.adding seq session pinned).len := by
  cases pinned with
  | true =>
    simp only [KeyBindings.adding, if_true, KeyBindings.len]
    omega
  | false =>
    simp only [KeyBindings.adding, Bool.false_eq_true, if_false, KeyBindings.len]
    rw [size_eq_keys_length, keys_insert, List.length_cons]
    omega

theorem track_sessions (s : SessionId) :
    (t.track session key pinned).sessions.lookup s =
      if s = session then some ⟨key, t.next + 1, pinned⟩ else t.sessions.lookup s := by
  change lookup s (insert session _ (t.untrack session).sessions) = _
  rw [lookup_insert_if, (untrack_limits t session).1]
  split
  · rfl
  · next other => rw [untrack_sessions, if_neg other]

theorem track_limits (t : EnvelopeBindings) (session : SessionId) (key : KeyId) (pinned : Bool) :
    (t.track session key pinned).next = t.next + 1 ∧ (t.track session key pinned).perKey = t.perKey ∧
      (t.track session key pinned).capacity = t.capacity := by
  obtain ⟨next, perKey, capacity⟩ := untrack_limits t session
  exact ⟨congrArg (· + 1) next, perKey, capacity⟩

theorem track_moved : KeyMoved (t.untrack session) (t.track session key pinned) key
    (((t.untrack session).entryOf key).adding (t.next + 1) session pinned) := by
  refine ⟨fun k => ?_⟩
  rw [if_neg (Nat.ne_of_gt (adding_len _ _))]
  change lookup k (insert key _ (t.untrack session).keys) = _
  rw [lookup_insert_if, (untrack_limits t session).1]
  rfl

theorem Exact.track (exact : t.Exact) (session : SessionId) (key : KeyId) (pinned : Bool) :
    (t.track session key pinned).Exact := by
  have cleared := exact.untrack session
  have absent : (t.untrack session).sessions.lookup session = none := by
    rw [untrack_sessions, if_pos rfl]
  have next := (untrack_limits t session).1
  have fresh : ∀ s e, (t.untrack session).sessions.lookup s = some e → e.seq ≠ t.next + 1 := by
    intro s e found same
    have bound := cleared.seqs s e found
    omega
  have sessions : ∀ s, (t.track session key pinned).sessions.lookup s =
      if s = session then some ⟨key, t.next + 1, pinned⟩ else (t.untrack session).sessions.lookup s := by
    intro s
    rw [track_sessions]
    split
    · rfl
    · next other => rw [untrack_sessions, if_neg other]
  refine cleared.moved track_moved sessions ?_ (fun seq s => ?_) ?_ ?_ ?_
  · rintro e (found | found)
    · rw [absent] at found
      cases found
    · cases found
      rfl
  · have placed := cleared.free key seq s
    cases pinned with
    | true =>
      simp only [KeyBindings.adding, if_true, entryOf_free, placed]
      by_cases own : s = session
      · subst own
        simp [absent]
      · simp [own]
    | false =>
      simp only [KeyBindings.adding, Bool.false_eq_true, if_false, entryOf_free, lookup_insert_if]
      by_cases newest : seq = t.next + 1
      · subst newest
        rw [if_pos rfl]
        by_cases own : s = session
        · simp [own]
        · simp only [some.injEq, own, if_false, Ne.symm own, false_iff]
          exact fun found => fresh s _ found rfl
      · rw [if_neg newest, placed]
        by_cases own : s = session
        · subst own
          simp [absent, Ne.symm newest]
        · simp [own]
  · rw [absent]
    cases pinned <;> simp [KeyBindings.adding, entryOf_pinned, weight]
  · exact Nat.le_succ _
  · rintro e made
    cases made
    exact ⟨(track_limits t session key pinned).1.ge, fun s e' _ found => fresh s e' found⟩

end Track

section SetPinned

variable {t : EnvelopeBindings} {session : SessionId} {key : KeyId} {pinned : Bool}

def repin (key : KeyId) (pinned : Bool) (e : EnvelopeBinding) : EnvelopeBinding :=
  if e.key = key then { e with pinned := pinned } else e

theorem setPinned_sessions (s : SessionId) :
    (t.setPinned session key pinned).sessions.lookup s =
      if s = session then (t.sessions.lookup session).map (repin key pinned) else t.sessions.lookup s := by
  unfold setPinned
  cases held : t.sessions.lookup session with
  | none =>
    by_cases own : s = session
    · subst own
      simp [held]
    · simp [own]
  | some e =>
    dsimp only
    split
    · next same =>
      have unchanged : repin key pinned e = e := by
        fun_cases repin
        · next own =>
          rcases same with other | same
          · exact absurd own other
          · subst same
            rfl
        · rfl
      by_cases own : s = session
      · subst own
        simp [held, unchanged]
      · simp [own]
    · next differs =>
      have changed : repin key pinned e = { e with pinned := pinned } := by
        simp only [repin, ite_eq_left_iff]
        intro other
        exact absurd (.inl other) differs
      cases t.keys.lookup key with
      | none =>
        simp only [map_some, changed]
        exact lookup_insert_if ..
      | some kb =>
        simp only [map_some, changed]
        exact lookup_insert_if ..

theorem setPinned_limits (t : EnvelopeBindings) (session : SessionId) (key : KeyId) (pinned : Bool) :
    (t.setPinned session key pinned).next = t.next ∧ (t.setPinned session key pinned).perKey = t.perKey ∧
      (t.setPinned session key pinned).capacity = t.capacity := by
  unfold setPinned
  cases t.sessions.lookup session with
  | none => exact ⟨rfl, rfl, rfl⟩
  | some e =>
    dsimp only
    split
    · exact ⟨rfl, rfl, rfl⟩
    · cases t.keys.lookup key <;> exact ⟨rfl, rfl, rfl⟩

theorem setPinned_same (held : t.sessions.lookup session = some e)
    (same : e.key ≠ key ∨ e.pinned = pinned) : t.setPinned session key pinned = t := by
  simp only [setPinned, held, if_pos same]

theorem repinned_len (kb : KeyBindings) (seq : Nat) : 0 < (kb.repinned seq session pinned).len := by
  cases pinned with
  | true =>
    simp only [KeyBindings.repinned, if_true, KeyBindings.len]
    omega
  | false =>
    simp only [KeyBindings.repinned, Bool.false_eq_true, if_false, KeyBindings.len]
    rw [size_eq_keys_length, keys_insert, List.length_cons]
    omega

theorem repinned_free {kb : KeyBindings} (exact : t.Exact)
    (freed : e.pinned = false → kb.free.lookup e.seq = some session)
    (held : t.sessions.lookup session = some e)
    (differs : e.pinned ≠ pinned)
    (placed : ∀ seq s, kb.free.lookup seq = some s ↔ t.sessions.lookup s = some ⟨e.key, seq, false⟩)
    (seq : Nat)
    (s : SessionId) :
    (kb.repinned e.seq session pinned).free.lookup seq = some s ↔
      (if s = session then some { e with pinned := pinned } else t.sessions.lookup s) =
        some ⟨e.key, seq, false⟩ := by
  cases pinned with
  | true =>
    have free : e.pinned = false := by simpa using differs
    have cut : (kb.repinned e.seq session true).free = (kb.without e).free := by
      simp [KeyBindings.repinned, KeyBindings.without, free]
    rw [cut, without_free freed held placed]
    by_cases own : s = session <;> simp [own]
  | false =>
    have isPinned : e.pinned = true := by simpa using differs
    simp only [KeyBindings.repinned, Bool.false_eq_true, if_false, lookup_insert_if]
    by_cases same : seq = e.seq
    · subst same
      rw [if_pos rfl]
      by_cases own : s = session
      · simp [own]
      · simp only [some.injEq, Ne.symm own, if_neg own, false_iff]
        exact fun found => own (exact.unique s session _ e found held rfl)
    · rw [if_neg same, placed]
      by_cases own : s = session
      · subst own
        rw [held, if_pos rfl]
        constructor
        · intro found
          rw [some.inj found] at isPinned
          cases isPinned
        · intro found
          exact absurd (congrArg EnvelopeBinding.seq (some.inj found)).symm same
      · rw [if_neg own]

theorem Exact.setPinned (exact : t.Exact) (session : SessionId) (key : KeyId) (pinned : Bool) :
    (t.setPinned session key pinned).Exact := by
  cases held : t.sessions.lookup session with
  | none =>
    have same : t.setPinned session key pinned = t := by simp only [EnvelopeBindings.setPinned, held]
    rwa [same]
  | some e =>
    by_cases same : e.key ≠ key ∨ e.pinned = pinned
    · rwa [setPinned_same held same]
    · obtain ⟨rfl, differs⟩ : e.key = key ∧ e.pinned ≠ pinned := by
        simpa only [not_or, not_not] using same
      obtain ⟨kb, keyed, freed, pinnedOne⟩ := exact.keyed held
      have sessions : ∀ s, (t.setPinned session e.key pinned).sessions.lookup s =
          if s = session then some { e with pinned := pinned } else t.sessions.lookup s := by
        intro s
        rw [setPinned_sessions, held]
        simp only [map_some, repin, if_true]
      have moved : KeyMoved t (t.setPinned session e.key pinned) e.key
          (kb.repinned e.seq session pinned) := by
        refine ⟨fun k => ?_⟩
        rw [if_neg (Nat.ne_of_gt (repinned_len _ _))]
        simp only [EnvelopeBindings.setPinned, held, if_neg same, keyed]
        exact lookup_insert_if ..
      have placed := exact.free e.key
      rw [freeOf_of_lookup keyed] at placed
      refine exact.moved moved sessions ?_ (repinned_free exact freed held differs placed) ?_
        (setPinned_limits t session e.key pinned).1.ge ?_
      · rintro e' (found | found)
        · cases held.symm.trans found
          rfl
        · cases found
          rfl
      · rw [held, pinnedOf_of_lookup keyed]
        cases pinned with
        | true =>
          have free : e.pinned = false := by simpa using differs
          simp [KeyBindings.repinned, weight, free]
        | false =>
          have isPinned : e.pinned = true := by simpa using differs
          have one := pinnedOne isPinned
          simp only [KeyBindings.repinned, Bool.false_eq_true, if_false, elim_some,
            weight, isPinned, and_self, if_true, and_false]
          omega
      · rintro e' made
        cases made
        refine ⟨?_, fun s e' other found same => other (exact.unique s session e' e found held same)⟩
        rw [(setPinned_limits t session e.key pinned).1]
        exact exact.seqs session e held

end SetPinned

section Victim

variable {t : EnvelopeBindings} {s : SessionId} {key : KeyId} {kb : KeyBindings}

theorem oldest_free (found : kb.oldest = some s) :
    ∃ seq, kb.free.lookup seq = some s ∧ ∀ n s', kb.free.lookup n = some s' → seq ≤ n := by
  obtain ⟨seq, chosen, held⟩ := bind_eq_some_iff.mp found
  refine ⟨seq, held, fun n s' there => le_of_least (r := id) (fun a b => ?_) chosen n ?_⟩
  · simp only [decide_eq_true_eq, id]
    split <;> omega
  · exact lookup_isSome.mp (there ▸ rfl)

theorem oldest_isSome (filled : 0 < size kb.free) : kb.oldest.isSome := by
  unfold KeyBindings.oldest
  cases found : least (fun a b => decide (a < b)) kb.free.keys with
  | none =>
    rw [size_eq_keys_length, least_eq_none.mp found] at filled
    cases filled
  | some seq => exact lookup_isSome.mpr (least_mem found)

theorem mem_givers (listed : kb ∈ t.givers key n) :
    ∃ k, t.keys.lookup k = some kb ∧ k ≠ key ∧ n ≤ kb.len ∧ 0 < size kb.free := by
  obtain ⟨k, -, found⟩ := List.mem_filterMap.mp listed
  obtain ⟨held, other⟩ := filter_eq_some_iff.mp found
  simp only [decide_eq_true_eq] at other
  exact ⟨k, held, other⟩

theorem Exact.oldest (exact : t.Exact) (held : t.keys.lookup key = some kb) (oldest : kb.oldest = some s) :
    ∃ seq, t.sessions.lookup s = some ⟨key, seq, false⟩ ∧
      ∀ s' b, t.sessions.lookup s' = some b → b.key = key → b.pinned = false → seq ≤ b.seq := by
  obtain ⟨seq, free, first⟩ := oldest_free oldest
  rw [← freeOf_of_lookup held] at free first
  refine ⟨seq, (exact.free key seq s).mp free, ?_⟩
  rintro s' ⟨_, n, _⟩ found rfl rfl
  exact first n s' ((exact.free _ n s').mpr found)

/-- What is evicted is the oldest free entry of a key: of the key itself when it is at its share,
otherwise of one that holds at least two more. -/
theorem Exact.victim (exact : t.Exact) (found : t.victim key = some s) :
    ∃ e, t.sessions.lookup s = some e ∧ e.pinned = false ∧
      (∀ s' b, t.sessions.lookup s' = some b → b.key = e.key → b.pinned = false → e.seq ≤ b.seq) ∧
      ((t.perKey ≤ t.heldBy key ∧ e.key = key) ∨
        (t.heldBy key < t.perKey ∧ e.key ≠ key ∧ t.heldBy key + 2 ≤ t.heldBy e.key)) := by
  simp only [EnvelopeBindings.victim] at found
  split at found
  · next full =>
    obtain ⟨kb, held, oldest⟩ := bind_eq_some_iff.mp found
    obtain ⟨seq, tracked, first⟩ := exact.oldest held oldest
    exact ⟨_, tracked, rfl, first, .inl ⟨full, rfl⟩⟩
  · next below =>
    obtain ⟨kb, chosen, oldest⟩ := bind_eq_some_iff.mp found
    obtain ⟨k, held, other, many, -⟩ := mem_givers (least_mem chosen)
    obtain ⟨seq, tracked, first⟩ := exact.oldest held oldest
    refine ⟨_, tracked, rfl, first, .inr ⟨Nat.lt_of_not_le below, other, ?_⟩⟩
    have size : t.heldBy k = kb.len := by simp [heldBy, held]
    simpa [size] using many

theorem victim_isSome (full : t.perKey ≤ t.heldBy key) (filled : 0 < size (t.freeOf key)) :
    (t.victim key).isSome := by
  simp only [EnvelopeBindings.victim, if_pos full]
  cases held : t.keys.lookup key with
  | none => simp [freeOf, held] at filled
  | some kb =>
    rw [freeOf_of_lookup held] at filled
    exact oldest_isSome filled

end Victim

end Oac.EnvelopeBindings
