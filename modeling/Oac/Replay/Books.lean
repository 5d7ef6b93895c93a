import Oac.Foundation.Transition
import Oac.Replay.StoreProofs

/-! The books of the duplicate store over whole runs: the index, the counts per key and the shares,
the reservations that are not settled, and the receipts of duplicates. A run keeps the reservations
given out, and remembers every entry that was added and every receipt that was allowed. -/

namespace Oac

open Transition List Oac.Inner Table

namespace Inner

def entriesOf (s : Inner) (keyId : String) : Nat :=
  sum (fun k _ => if k.keyId = keyId then 1 else 0) s.entries

/-- The count of a key id is the number of its entries, and no count is zero. -/
structure Counted (s : Inner) : Prop where
  exact : ∀ keyId, s.heldBy keyId = s.entriesOf keyId
  positive : ∀ keyId, s.perKey.lookup keyId ≠ some 0

section Counting

variable {s t : Inner} {key : DuplicateKey}

theorem empty_counted : empty.Counted := by
  constructor
  · intro keyId
    rfl
  · intro keyId
    simp [empty]

theorem entriesOf_update (changed : ∀ k, t.entries.lookup k = if k = key then e
    else s.entries.lookup k) (keyId : String) :
    t.entriesOf keyId + (s.entry key).elim 0 (fun _ => if key.keyId = keyId then 1 else 0) =
      s.entriesOf keyId + e.elim 0 fun _ => if key.keyId = keyId then 1 else 0 :=
  sum_update (f := fun (k : DuplicateKey) _ => if k.keyId = keyId then 1 else 0) changed

theorem insert_entriesOf (absent : s.entry key = none) (deadline : Int) (phase : Phase) (keyId : String) :
    (s.insert key deadline phase).entriesOf keyId = s.entriesOf keyId + if key.keyId = keyId then 1 else 0 := by
  have changed := entriesOf_update (fun k => insert_entry s key k deadline phase) keyId
  rw [absent] at changed
  exact changed

theorem isSome_of_fewer (fewer : ∀ k, s.entry k = none → t.entry k = none) (k : DuplicateKey)
    (present : (t.entries.lookup k).isSome) : (s.entries.lookup k).isSome := by
  refine Option.isSome_iff_ne_none.mpr fun absent => ?_
  have gone : t.entries.lookup k = none := fewer k absent
  rw [gone] at present
  cases present

/-- A store with no entry for a key that had none holds no more. -/
theorem places_of_fewer (fewer : ∀ k, s.entry k = none → t.entry k = none) :
    size t.entries ≤ size s.entries ∧ ∀ keyId, t.entriesOf keyId ≤ s.entriesOf keyId :=
  ⟨size_le_of_keys (isSome_of_fewer fewer), fun _ => sum_le_of_keys (isSome_of_fewer fewer)⟩

theorem counted_iff : s.Counted ↔ ∀ keyId, s.perKey.lookup keyId = positive (s.entriesOf keyId) := by
  constructor
  · intro counted keyId
    rw [← counted.exact, heldBy]
    cases count : s.perKey.lookup keyId with
    | none => rfl
    | some n =>
      cases n with
      | zero => exact absurd count (counted.positive keyId)
      | succ n => rfl
  · intro counts
    constructor
    · intro keyId
      rw [heldBy, counts]
      cases s.entriesOf keyId <;> rfl
    · intro keyId
      rw [counts]
      cases s.entriesOf keyId <;> simp

theorem Counted.remove (counted : s.Counted) (key : DuplicateKey) : (s.remove key).Counted := by
  cases held : s.entry key with
  | none =>
    rw [remove_absent held]
    exact counted
  | some e =>
    have counts := counted_iff.mp counted
    have fewer : ∀ keyId, (s.remove key).entriesOf keyId +
        (if key.keyId = keyId then 1 else 0) = s.entriesOf keyId := by
      intro keyId
      have changed := entriesOf_update (s.remove_entry key) keyId
      rw [held] at changed
      exact changed
    have mine := fewer key.keyId
    rw [if_pos rfl] at mine
    refine counted_iff.mpr fun keyId => ?_
    have after : (s.remove key).perKey.lookup keyId =
        if keyId = key.keyId then Table.positive ((s.remove key).entriesOf key.keyId)
          else s.perKey.lookup keyId := by
      have found : s.entries.lookup key = some e := held
      have count := counts key.keyId
      rw [← mine, positive_succ] at count
      rw [← lookup_decrement]
      generalize (s.remove key).entriesOf key.keyId = n at count ⊢
      simp only [Inner.remove, found, count, Nat.add_sub_cancel]
    rw [after]
    split
    · next same => rw [same]
    · next other => rw [counts, ← fewer keyId, if_neg (Ne.symm other), Nat.add_zero]

theorem Counted.evict (counted : s.Counted) (now : Int) : (s.evict now).Counted :=
  foldlRecOn _ _ counted fun _ counted item _ => counted.remove item.2

theorem Counted.insert (counted : s.Counted) (absent : s.entry key = none)
    (deadline : Int) (phase : Phase) : (s.insert key deadline phase).Counted := by
  refine counted_iff.mpr fun keyId => (lookup_insert_if _ _ _ _).trans ?_
  rw [insert_entriesOf absent]
  split
  · next same => rw [same, if_pos rfl, counted.exact, positive_succ]
  · next other => rw [if_neg (Ne.symm other), counted_iff.mp counted, Nat.add_zero]

theorem Counted.same (counted : s.Counted) (entries : ∀ k, t.entry k = none ↔ s.entry k = none)
    (counts : t.perKey = s.perKey) : t.Counted := by
  refine counted_iff.mpr fun keyId => ?_
  rw [counts, counted_iff.mp counted]
  congr 1
  exact Nat.le_antisymm ((places_of_fewer fun k => (entries k).mp).2 keyId)
    ((places_of_fewer fun k => (entries k).mpr).2 keyId)

end Counting

variable (limits : StoreLimits) (s : Inner) (now deadline : Int) (key : DuplicateKey) in
/-- What seeding an entry does. -/
inductive Seeded : Inner × Except SecurityRejection Unit → Prop where
  | there {e : Entry} (held : (s.evict now).entry key = some e) :
      Seeded (s.evict now, .ok ())
  | full (absent : (s.evict now).entry key = none)
      (noRoom : (s.evict now).hasRoom key.keyId limits.capacity limits.perKeyShare = false) :
      Seeded (s.evict now, .error full)
  | added (absent : (s.evict now).entry key = none)
      (room : (s.evict now).hasRoom key.keyId limits.capacity limits.perKeyShare = true) :
      Seeded ((s.evict now).insert key deadline .handedOff, .ok ())

theorem insertHandedOff_seeded (limits : StoreLimits) (now deadline : Int) (s : Inner) (key : DuplicateKey) :
    Seeded limits s now deadline key (s.insertHandedOff limits now key deadline) := by
  unfold insertHandedOff
  dsimp only
  cases held : (s.evict now).entries.lookup key with
  | some e => exact .there held
  | none =>
    cases room : (s.evict now).hasRoom key.keyId limits.capacity limits.perKeyShare with
    | true => exact .added held room
    | false => exact .full held room

section Evicting

variable {s : Inner}

theorem evict_sub (indexed : s.Indexed) (now : Int) (held : (s.evict now).entry key = some e) :
    s.entry key = some e := by
  rw [evict_entry indexed] at held
  exact (Option.filter_eq_some_iff.mp held).1

theorem evict_fewer (indexed : s.Indexed) (now : Int) (key : DuplicateKey)
    (absent : s.entry key = none) : (s.evict now).entry key = none := by
  rw [evict_entry indexed, absent]
  rfl

theorem evict_taken (indexed : s.Indexed) (now : Int) (held : s.entry key = some e) :
    (s.evict now).entry key = some e ∨ (s.evict now).entry key = none ∧
      e.phase = .handedOff ∧ e.deadline ≤ now := by
  rw [evict_entry indexed, held]
  by_cases evictable : e.evictable now = true
  · right
    simp only [Entry.evictable, Bool.and_eq_true, beq_iff_eq, decide_eq_true_eq] at evictable
    refine ⟨?_, evictable⟩
    simp [Entry.evictable, evictable]
  · left
    simp [evictable]

end Evicting

end Inner

/-- A store in use: the keys of the reservations that are not settled, every key an entry was added
for, and for every duplicate receipt allowed the key and how many entries had been added for it. -/
structure Books where
  store : Inner
  reservations : List DuplicateKey
  added : List DuplicateKey
  receipts : List (DuplicateKey × Nat)

/-- A call that takes the store's lock. An admission that waits decides again each time it is
woken. -/
inductive StoreCall where
  | tryAdmit (key : DuplicateKey) (deadline now : Int)
  | settle (key : DuplicateKey) (handedOff : Bool)
  | drop (key : DuplicateKey)
  | evictExpired (now : Int)
  | insertHandedOff (key : DuplicateKey) (deadline now : Int)
  | whenSettled (key : DuplicateKey) (notify : SettleCallback)

def StoreCall.clock : StoreCall → Option Int
  | .tryAdmit _ _ now | .evictExpired now | .insertHandedOff _ _ now => some now
  | .settle _ _ | .drop _ | .whenSettled _ _ => none

/-- The key a call may add an entry for, and its clock reading. -/
def StoreCall.adds : StoreCall → Option (DuplicateKey × Int)
  | .tryAdmit key _ now | .insertHandedOff key _ now => some (key, now)
  | .settle _ _ | .drop _ | .evictExpired _ | .whenSettled _ _ => none

namespace Books

def empty : Books := ⟨.empty, [], [], []⟩

def tryAdmit (limits : StoreLimits) (b : Books) (key : DuplicateKey) (deadline now : Int) : Books :=
  let decided := b.store.decideAdmission limits now key deadline
  match decided.2 with
  | some (.ok .admitted) =>
    { b with store := decided.1, reservations := key :: b.reservations, added := key :: b.added }
  | some (.ok (.duplicate true)) =>
    { b with store := decided.1, receipts := (key, b.added.count key) :: b.receipts }
  | _ => { b with store := decided.1 }

def insertHandedOff (limits : StoreLimits) (b : Books) (key : DuplicateKey) (deadline now : Int) : Books :=
  let seeded := b.store.insertHandedOff limits now key deadline
  match (b.store.evict now).entries.lookup key, seeded.2 with
  | none, .ok () => { b with store := seeded.1, added := key :: b.added }
  | _, _ => { b with store := seeded.1 }

/-- Only the holder of a reservation settles it, and it is gone then. -/
def settle (b : Books) (key : DuplicateKey) (handedOff : Bool) : Option Books :=
  if key ∈ b.reservations then
    some { b with store := (b.store.settle key handedOff).1, reservations := b.reservations.erase key }
  else none

def step (limits : StoreLimits) : StoreCall → Books → Option Books
  | .tryAdmit key deadline now, b => some (b.tryAdmit limits key deadline now)
  | .settle key handedOff, b => b.settle key handedOff
  | .drop key, b => b.settle key true
  | .evictExpired now, b => some { b with store := b.store.evict now }
  | .insertHandedOff key deadline now, b => some (b.insertHandedOff limits key deadline now)
  | .whenSettled key notify, b => some { b with store := (b.store.whenSettled key notify).1 }

variable (limits : StoreLimits) (b : Books) (call : StoreCall) in
/-- What a call makes of the books. -/
inductive Change : Books → Prop where
  | evicted (now) (clock : call.clock = some now) : Change { b with store := b.store.evict now }
  | answered (key e now) (clock : call.clock = some now)
      (held : (b.store.evict now).entry key = some e) (settled : e.phase = .handedOff) :
      Change { b with
        store := { b.store.evict now with
          entries := (b.store.evict now).entries.insert key { e with duplicateReceiptSent := true } }
        receipts := if e.duplicateReceiptSent then b.receipts else (key, b.added.count key) :: b.receipts }
  | added (key now deadline phase) (clock : call.clock = some now)
      (adds : call.adds = some (key, now)) (absent : (b.store.evict now).entry key = none)
      (room : (b.store.evict now).hasRoom key.keyId limits.capacity limits.perKeyShare = true) :
      Change { b with
        store := (b.store.evict now).insert key deadline phase
        reservations := if phase = .inFlight then key :: b.reservations else b.reservations
        added := key :: b.added }
  | settled (key handedOff) (reserved : key ∈ b.reservations)
      (named : handedOff = false → call = .settle key false) :
      Change { b with
        store := (b.store.settle key handedOff).1, reservations := b.reservations.erase key }
  | registered (key notify) : Change { b with store := (b.store.whenSettled key notify).1 }

theorem settle_change (settled : b.settle key handedOff = some b')
    (named : handedOff = false → call = .settle key false) : Change limits b call b' := by
  revert settled
  fun_cases settle <;> rintro ⟨⟩
  · next reserved => exact .settled key handedOff reserved named

theorem step_change (stepped : step limits call b = some b') :
    Change limits b call b' := by
  cases call with
  | tryAdmit key deadline now =>
    cases stepped
    have ruled := decideAdmission_ruled limits now deadline b.store key
    unfold tryAdmit
    generalize b.store.decideAdmission limits now key deadline = decided at ruled
    cases ruled with
    | waiting | full => exact .evicted now rfl
    | @duplicate e held settled =>
      have answered : Change limits b (.tryAdmit key deadline now) _ := .answered key e now rfl held settled
      cases sent : e.duplicateReceiptSent with
      | true =>
        simp only [sent, if_true] at answered
        exact answered
      | false =>
        simp only [sent, Bool.false_eq_true, if_false] at answered
        exact answered
    | admitted absent room => exact .added key now deadline .inFlight rfl rfl absent room
  | settle key handedOff => exact settle_change stepped fun not => by rw [not]
  | drop key => exact settle_change stepped (by rintro ⟨⟩)
  | evictExpired now =>
    cases stepped
    exact .evicted now rfl
  | insertHandedOff key deadline now =>
    cases stepped
    have seeded := insertHandedOff_seeded limits now deadline b.store key
    unfold insertHandedOff
    generalize b.store.insertHandedOff limits now key deadline = result at seeded
    cases seeded with
    | there held =>
      have looked : (b.store.evict now).entries.lookup key = some _ := held
      simp only [looked]
      exact .evicted now rfl
    | full absent _ =>
      have looked : (b.store.evict now).entries.lookup key = none := absent
      simp only [looked]
      exact .evicted now rfl
    | added absent room =>
      have looked : (b.store.evict now).entries.lookup key = none := absent
      simp only [looked]
      exact .added key now deadline .handedOff rfl rfl absent room
  | whenSettled key notify =>
    cases stepped
    exact .registered key notify

/-- What every run keeps. -/
structure Kept (limits : StoreLimits) (b : Books) : Prop where
  indexed : b.store.Indexed
  counted : b.store.Counted
  size : size b.store.entries ≤ limits.capacity
  share : ∀ keyId, b.store.entriesOf keyId ≤ limits.perKeyShare
  inFlight : ∀ key, (∃ e, b.store.entry key = some e ∧ e.phase = .inFlight) ↔ key ∈ b.reservations
  reserved : b.reservations.Nodup
  allowed : b.receipts.Nodup
  past : ∀ key n, (key, n) ∈ b.receipts → n ≤ b.added.count key ∧
    (n = b.added.count key → ∀ e, b.store.entry key = some e → e.duplicateReceiptSent = true)

namespace Kept

variable {limits : StoreLimits} {b b' : Books} {key : DuplicateKey}

theorem empty (limits : StoreLimits) : Kept limits .empty where
  indexed := empty_indexed
  counted := empty_counted
  size := Nat.zero_le _
  share _ := Nat.zero_le _
  inFlight key := by simp [Books.empty, Inner.empty, Inner.entry]
  reserved := nodup_nil
  allowed := nodup_nil
  past key n mem := by cases mem

/-- The entries of the store that is left come from entries with the same answer to a duplicate. -/
theorem fewer (kept : Kept limits b) (indexed : s.Indexed) (counted : s.Counted)
    (sub : ∀ k e, s.entry k = some e →
      ∃ e', b.store.entry k = some e' ∧ e'.duplicateReceiptSent = e.duplicateReceiptSent)
    (inFlight : ∀ key, (∃ e, s.entry key = some e ∧ e.phase = .inFlight) ↔ key ∈ unsettled)
    (reserved : unsettled.Nodup) : Kept limits { b with store := s, reservations := unsettled } := by
  have places := places_of_fewer fun k absent => by
    refine Option.eq_none_iff_forall_ne_some.mpr fun e held => ?_
    obtain ⟨e', before, -⟩ := sub k e held
    rw [absent] at before
    cases before
  refine ⟨indexed, counted, places.1.trans kept.size,
    fun keyId => (places.2 keyId).trans (kept.share keyId), inFlight,
    reserved, kept.allowed, fun key n mem => ?_⟩
  obtain ⟨most, current⟩ := kept.past key n mem
  refine ⟨most, fun same e held => ?_⟩
  obtain ⟨e', before, sent⟩ := sub key e held
  exact sent ▸ current same e' before

theorem evict (kept : Kept limits b) (now : Int) : Kept limits { b with store := b.store.evict now } := by
  refine kept.fewer (kept.indexed.evict now) (kept.counted.evict now)
    (fun k e held => ⟨e, evict_sub kept.indexed now held, rfl⟩) (fun key => ?_) kept.reserved
  rw [← kept.inFlight key]
  constructor
  · rintro ⟨e, held, running⟩
    exact ⟨e, evict_sub kept.indexed now held, running⟩
  · rintro ⟨e, held, running⟩
    rcases evict_taken kept.indexed now held with stays | ⟨_, settled, _⟩
    · exact ⟨e, stays, running⟩
    · rw [settled] at running
      cases running

theorem room {s : Inner} (counted : s.Counted) (keyId : String)
    (found : s.hasRoom keyId limits.capacity limits.perKeyShare = true) :
    s.entriesOf keyId < limits.perKeyShare ∧ Table.size s.entries < limits.capacity := by
  simp only [hasRoom, Bool.and_eq_true, decide_eq_true_eq] at found
  rw [counted.exact] at found
  omega

theorem insert (kept : Kept limits b) (absent : b.store.entry key = none)
    (found : b.store.hasRoom key.keyId limits.capacity limits.perKeyShare = true)
    (deadline : Int) (phase : Phase) :
    Kept limits { b with
      store := b.store.insert key deadline phase
      reservations := if phase = .inFlight then key :: b.reservations else b.reservations
      added := key :: b.added } := by
  obtain ⟨below, free⟩ := room kept.counted key.keyId found
  have unreserved : key ∉ b.reservations := by
    intro mem
    obtain ⟨e, held, _⟩ := (kept.inFlight key).mpr mem
    rw [absent] at held
    cases held
  refine ⟨kept.indexed.insert absent deadline phase, kept.counted.insert absent deadline phase,
    ?_, ?_, ?_, ?_, kept.allowed, ?_⟩
  · have more := size_insert_of_lookup_none ⟨deadline, phase, false⟩ absent
    change Table.size (b.store.entries.insert key _) ≤ _
    omega
  · intro keyId
    have before := kept.share keyId
    rw [insert_entriesOf absent]
    split
    · next same => rwa [← same, Nat.succ_le_iff]
    · exact before
  · intro other
    rw [insert_entry]
    by_cases same : other = key
    · subst same
      cases phase with
      | inFlight => simp
      | handedOff => simp [unreserved]
    · rw [if_neg same, kept.inFlight other]
      cases phase with
      | inFlight => simp [same]
      | handedOff => simp
  · cases phase with
    | inFlight => exact nodup_cons.mpr ⟨unreserved, kept.reserved⟩
    | handedOff => exact kept.reserved
  · intro other n mem
    obtain ⟨most, current⟩ := kept.past other n mem
    rw [count_cons]
    by_cases same : key = other
    · subst same
      rw [if_pos (beq_self_eq_true key)]
      refine ⟨by omega, fun equal => ?_⟩
      omega
    · rw [if_neg (by simpa using same), insert_entry, if_neg (Ne.symm same)]
      exact ⟨most, current⟩

theorem duplicate (kept : Kept limits b) (held : b.store.entry key = some e)
    (settled : e.phase = .handedOff) :
    Kept limits { b with
      store := { b.store with entries := b.store.entries.insert key { e with duplicateReceiptSent := true } }
      receipts := if e.duplicateReceiptSent then b.receipts else (key, b.added.count key) :: b.receipts } := by
  have looked : ∀ k, AList.lookup k (b.store.entries.insert key { e with duplicateReceiptSent := true }) =
      if k = key then some { e with duplicateReceiptSent := true } else b.store.entries.lookup k :=
    fun k => lookup_insert_if key k _ _
  have overwritten : ∀ k, (Inner.mk (b.store.entries.insert key { e with duplicateReceiptSent := true })
      b.store.byDeadline b.store.perKey b.store.waiters).entry k =
      if k = key then some { e with duplicateReceiptSent := true } else b.store.entry k := looked
  have same : ∀ k, (Inner.mk (b.store.entries.insert key { e with duplicateReceiptSent := true })
      b.store.byDeadline b.store.perKey b.store.waiters).entry k = none ↔ b.store.entry k = none := by
    intro k
    rw [overwritten]
    split
    · next here => simp [here, held]
    · rfl
  have sameDeadline : ({ e with duplicateReceiptSent := true } : Entry).deadline = e.deadline := rfl
  have places := places_of_fewer fun k => (same k).mpr
  refine ⟨kept.indexed.overwrite held sameDeadline rfl rfl, kept.counted.same same rfl,
    places.1.trans kept.size,
    fun keyId => (places.2 keyId).trans (kept.share keyId), ?_, kept.reserved, ?_, ?_⟩
  · intro other
    rw [← kept.inFlight other]
    rw [overwritten]
    by_cases same : other = key
    · subst same
      simp [held, settled]
    · rw [if_neg same]
  · cases sent : e.duplicateReceiptSent with
    | true => exact kept.allowed
    | false =>
      refine nodup_cons.mpr ⟨fun mem => ?_, kept.allowed⟩
      have already := (kept.past key _ mem).2 rfl e held
      rw [sent] at already
      cases already
  · intro other n mem
    have before : (other, n) ∈ b.receipts ∨ other = key ∧ n = b.added.count key := by
      cases sent : e.duplicateReceiptSent with
      | true =>
        rw [sent] at mem
        exact .inl mem
      | false =>
        rw [sent] at mem
        rcases mem_cons.mp mem with here | earlier
        · exact .inr (Prod.mk.inj here)
        · exact .inl earlier
    rw [overwritten]
    by_cases same : other = key
    · subst same
      rw [if_pos rfl]
      refine ⟨?_, fun _ e' found => ?_⟩
      · rcases before with mem | ⟨_, same⟩
        · exact (kept.past other n mem).1
        · exact same.le
      · cases found
        rfl
    · rw [if_neg same]
      rcases before with mem | ⟨here, _⟩
      · exact kept.past other n mem
      · exact absurd here same

theorem settle (kept : Kept limits b) (reserved : key ∈ b.reservations) (handedOff : Bool) :
    Kept limits { b with
      store := (b.store.settle key handedOff).1, reservations := b.reservations.erase key } := by
  obtain ⟨e, held, running⟩ := (kept.inFlight key).mpr reserved
  have entry := fun k => b.store.settle_entry key k handedOff
  have absent : key ∉ b.reservations.erase key := fun mem =>
    (Nodup.mem_erase_iff kept.reserved).mp mem |>.1 rfl
  have sub : ∀ k e', (b.store.settle key handedOff).1.entry k = some e' →
      ∃ e, b.store.entry k = some e ∧ e.duplicateReceiptSent = e'.duplicateReceiptSent := by
    intro k e' found
    rw [entry] at found
    split at found
    · next same =>
      split at found
      · rw [held] at found
        cases found
        exact ⟨e, same ▸ held, rfl⟩
      · cases found
    · exact ⟨e', found, rfl⟩
  refine kept.fewer (kept.indexed.settle key handedOff) ?_ sub ?_ (kept.reserved.erase key)
  · cases handedOff with
    | true =>
      refine kept.counted.same (fun k => ?_) rfl
      rw [entry]
      split
      · next same => simp [same, held]
      · rfl
    | false =>
      have removed := kept.counted.remove key
      exact ⟨removed.exact, removed.positive⟩
  · intro other
    rw [entry]
    by_cases same : other = key
    · subst same
      rw [if_pos rfl, held]
      refine iff_of_false ?_ absent
      rintro ⟨e', found, still⟩
      cases handedOff with
      | true =>
        cases found
        cases still
      | false => cases found
    · rw [if_neg same, kept.inFlight other, mem_erase_of_ne same]

theorem step (kept : Kept limits b) (stepped : Books.step limits call b = some b') :
    Kept limits b' := by
  cases step_change stepped with
  | evicted now _ => exact kept.evict now
  | answered key e now _ held settled => exact (kept.evict now).duplicate held settled
  | added key now deadline phase _ _ absent room => exact (kept.evict now).insert absent room deadline phase
  | settled key handedOff reserved _ => exact kept.settle reserved handedOff
  | registered key notify =>
    have same := fun k => b.store.whenSettled_entry key k notify
    have counts : (b.store.whenSettled key notify).1.perKey = b.store.perKey := by
      fun_cases whenSettled <;> rfl
    refine kept.fewer (kept.indexed.whenSettled key notify) (kept.counted.same (fun k => by rw [same]) counts)
      (fun k e held => ⟨e, (same k).symm.trans held, rfl⟩) (fun other => ?_) kept.reserved
    rw [same]
    exact kept.inFlight other

end Kept

section Leaving

variable {limits : StoreLimits} {b b' : Books} {call : StoreCall} {key : DuplicateKey} {e : Entry}

/-- The entry of `key` is still there: with its deadline, and no other was added for the key
since. -/
def Stays (b b' : Books) (key : DuplicateKey) (e : Entry) : Prop :=
  ∃ e', b'.store.entry key = some e' ∧ e'.deadline = e.deadline ∧ b'.added.count key = b.added.count key

theorem stays_or_due (indexed : b.store.Indexed) (now : Int) (held : b.store.entry key = some e)
    (keeps : (b.store.evict now).entry key = some e → Stays b b' key e) :
    Stays b b' key e ∨ e.deadline ≤ now := by
  rcases evict_taken indexed now held with stays | ⟨_, _, due⟩
  · exact .inl (keeps stays)
  · exact .inr due

/-- An entry leaves when the copy was not handed off, or when a call that evicts reads a clock at or
after its deadline. -/
theorem step_stays (indexed : b.store.Indexed) (stepped : step limits call b = some b')
    (held : b.store.entry key = some e) :
    Stays b b' key e ∨ call = .settle key false ∨ ∃ now, call.clock = some now ∧ e.deadline ≤ now := by
  have clocked : ∀ now, call.clock = some now → ((b.store.evict now).entry key = some e → Stays b b' key e) →
      Stays b b' key e ∨ call = .settle key false ∨ ∃ now, call.clock = some now ∧ e.deadline ≤ now :=
    fun now clock keeps => (stays_or_due indexed now held keeps).imp_right fun due => .inr ⟨now, clock, due⟩
  cases step_change stepped with
  | evicted now clock => exact clocked now clock fun stays => ⟨e, stays, rfl, rfl⟩
  | answered other found now clock there _ =>
    refine clocked now clock fun stays => ?_
    by_cases same : key = other
    · subst same
      rw [stays] at there
      cases there
      exact ⟨_, (lookup_insert_if _ _ _ _).trans (if_pos rfl), rfl, rfl⟩
    · exact ⟨e, (lookup_insert_if _ _ _ _).trans ((if_neg same).trans stays), rfl, rfl⟩
  | added other now deadline phase clock _ absent _ =>
    refine clocked now clock fun stays => ?_
    have different : key ≠ other := by
      rintro rfl
      rw [stays] at absent
      cases absent
    refine ⟨e, ?_, rfl, count_cons_of_ne (Ne.symm different)⟩
    exact (insert_entry _ _ _ _ _).trans ((if_neg different).trans stays)
  | settled other handedOff _ named =>
    have entry := b.store.settle_entry other key handedOff
    by_cases same : key = other
    · subst same
      rw [if_pos rfl, held] at entry
      cases handedOff with
      | true => exact .inl ⟨_, entry, rfl, rfl⟩
      | false => exact .inr (.inl (named rfl))
    · rw [if_neg same, held] at entry
      exact .inl ⟨e, entry, rfl, rfl⟩
  | registered other notify =>
    exact .inl ⟨e, (b.store.whenSettled_entry other key notify).trans held, rfl, rfl⟩

end Leaving

section Refusing

variable {limits : StoreLimits} {b : Books}

/-- A key id with no entry finds no room only where no place is free. -/
theorem Kept.full_of_no_room (kept : Kept limits b) (share : 0 < limits.perKeyShare)
    (nothing : b.store.entriesOf keyId = 0) (now : Int)
    (noRoom : (b.store.evict now).hasRoom keyId limits.capacity limits.perKeyShare = false) :
    Table.size (b.store.evict now).entries = limits.capacity := by
  have evicted := kept.evict now
  have none_ : (b.store.evict now).heldBy keyId = 0 := by
    rw [evicted.counted.exact]
    exact Nat.le_zero.mp (nothing ▸ (places_of_fewer (evict_fewer kept.indexed now)).2 keyId)
  have size := evicted.size
  simp only [hasRoom, none_, Bool.and_eq_false_iff, decide_eq_false_iff_not] at noRoom
  dsimp only at size
  omega

end Refusing

/-- The books of a duplicate store in every state a run reaches: the index and the counts are exact,
the store and each key id are within their limits, the entries in flight are those with a
reservation that is not settled, one reservation each, and no entry has allowed two receipts. From
there an entry leaves before its deadline only when its copy was not handed off, and a key id that
holds nothing is refused only by a full store. -/
theorem duplicate_store_books (capacity share : Nat) (last : Books)
    (run : Reaches (step (.withLimits capacity share)) anyMove .empty last) :
    let limits := StoreLimits.withLimits capacity share
    ((∀ d key, (d, key) ∈ last.store.byDeadline ↔ ∃ e, last.store.entry key = some e ∧ e.deadline = d) ∧
      last.store.byDeadline.Nodup) ∧
    (∀ keyId, last.store.heldBy keyId = last.store.entriesOf keyId ∧ last.store.perKey.lookup keyId ≠ some 0) ∧
    (size last.store.entries ≤ limits.capacity ∧ ∀ keyId, last.store.entriesOf keyId ≤ limits.perKeyShare) ∧
    ((∀ key, (∃ e, last.store.entry key = some e ∧ e.phase = .inFlight) ↔ key ∈ last.reservations) ∧
      last.reservations.Nodup) ∧
    last.receipts.Nodup ∧
    (∀ call next key e, step limits call last = some next → last.store.entry key = some e →
      Stays last next key e ∨ call = .settle key false ∨ ∃ now, call.clock = some now ∧ e.deadline ≤ now) ∧
    (∀ key deadline now, last.store.entriesOf key.keyId = 0 →
      ((∃ why, (last.store.decideAdmission limits now key deadline).2 = some (.error why)) ∨
        ∃ why, (last.store.insertHandedOff limits now key deadline).2 = .error why) →
      size (last.store.evict now).entries = limits.capacity) := by
  intro limits
  have kept : Kept limits last :=
    run.invariant (fun _ _ _ _ stepped kept => Kept.step kept stepped) (Kept.empty limits)
  have positive : 0 < limits.perKeyShare := Nat.lt_of_lt_of_le Nat.zero_lt_one (Nat.le_max_left _ _)
  refine ⟨⟨kept.indexed.exact, kept.indexed.nodup⟩,
    fun keyId => ⟨kept.counted.exact keyId, kept.counted.positive keyId⟩, ⟨kept.size, kept.share⟩,
    ⟨kept.inFlight, kept.reserved⟩, kept.allowed,
    fun call next key e stepped held => step_stays kept.indexed stepped held, ?_⟩
  intro key deadline now nothing refused
  rcases refused with ⟨why, refused⟩ | ⟨why, refused⟩
  · have ruled := decideAdmission_ruled limits now deadline last.store key
    generalize last.store.decideAdmission limits now key deadline = decided at ruled refused
    cases ruled with
    | waiting | duplicate => cases refused
    | full _ noRoom => exact kept.full_of_no_room positive nothing now noRoom
    | admitted _ _ => cases refused
  · have seeded := insertHandedOff_seeded limits now deadline last.store key
    generalize last.store.insertHandedOff limits now key deadline = result at seeded refused
    cases seeded with
    | there _ => cases refused
    | full _ noRoom => exact kept.full_of_no_room positive nothing now noRoom
    | added _ _ => cases refused

theorem duplicate_store_books_sample :
    ∃ last, Reaches (step (.withLimits 4 1)) anyMove .empty last ∧
      last.reservations = [⟨"k", "n"⟩] ∧ last.receipts = [(⟨"k", "n"⟩, 1)] ∧ last.receipts.Nodup := by
  have performed : (perform (step (.withLimits 4 1))
      [.tryAdmit ⟨"k", "n"⟩ 5 0, .tryAdmit ⟨"k", "n"⟩ 5 1, .settle ⟨"k", "n"⟩ true, .tryAdmit ⟨"k", "n"⟩ 5 2,
        .tryAdmit ⟨"k", "n"⟩ 5 3, .tryAdmit ⟨"k", "n"⟩ 9 5] .empty).map (fun b => (b.reservations, b.receipts)) =
      some ([⟨"k", "n"⟩], [(⟨"k", "n"⟩, 1)]) := by decide +kernel
  obtain ⟨last, reached, found⟩ := reached_of_map _ performed
  simp only [Prod.mk.injEq] at found
  exact ⟨last, reached, found.1, found.2, (duplicate_store_books 4 1 last reached).2.2.2.2.1⟩

end Books

end Oac
