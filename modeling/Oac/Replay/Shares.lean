import Oac.Replay.Books

/-! How much of the duplicate store a number of key ids can take. A copy is admitted while its key
id holds fewer entries than places are free; what the key ids that came before hold is not
compared. -/

namespace Oac

open Transition List

/-- No other key id holds more than an equal split of the capacity among `k + 1`, or more than one
entry beyond what the key id of the call holds. -/
def StoreCall.evenly (limits : StoreLimits) (k : Nat) (call : StoreCall) (b : Books) : Bool :=
  call.adds.all fun (key, now) =>
    let s := b.store.evict now
    s.perKey.entries.all fun e =>
      e.1 == key.keyId || decide (e.2 ≤ max (s.heldBy key.keyId + 1) (limits.capacity / (k + 1)))

/-- Key ids by their last admission, the latest first: each found as many places free as it
holds. -/
def Spread (capacity : Nat) (held : String → Nat) : List String → Prop
  | [] => True
  | keyId :: older => (older.map held).sum + 2 * held keyId ≤ capacity + 1 ∧ Spread capacity held older

theorem Spread.fewer (less : ∀ keyId ∈ ids', held' keyId ≤ held keyId) (sub : ids'.Sublist ids)
    (spread : Spread capacity held ids) : Spread capacity held' ids' := by
  induction sub with
  | slnil => trivial
  | cons keyId _ ih => exact ih less spread.2
  | @cons_cons older' older keyId sub ih =>
    obtain ⟨here, rest⟩ := forall_mem_cons.mp less
    refine ⟨?_, ih rest spread.2⟩
    have kept : (older'.map held').sum ≤ (older'.map held).sum := sum_le_sum rest
    have listed : (older'.map held).sum ≤ (older.map held).sum :=
      (sub.map held).sum_le_sum fun _ _ => Nat.zero_le _
    have room := spread.1
    omega

/-- Each key id leaves at least half of the places it found. -/
theorem Spread.doubles (spread : Spread capacity held ids) :
    capacity + 1 ≤ 2 ^ ids.length * (capacity + 1 - (ids.map held).sum) := by
  induction ids with
  | nil => simp
  | cons keyId older ih =>
    refine (ih spread.2).trans ?_
    rw [length_cons, pow_succ, Nat.mul_assoc, map_cons, sum_cons]
    refine Nat.mul_le_mul_left _ ?_
    have room := spread.1
    omega

namespace Books

variable {limits : StoreLimits} {b b' : Books} {call : StoreCall}

theorem evenly_heldBy (even : call.evenly limits k b = true) (adds : call.adds = some (key, now))
    (other : keyId ≠ key.keyId) :
    (b.store.evict now).heldBy keyId ≤
      max ((b.store.evict now).heldBy key.keyId + 1) (limits.capacity / (k + 1)) := by
  simp only [StoreCall.evenly, adds, Option.all_some, all_eq_true, Bool.or_eq_true, beq_iff_eq,
    decide_eq_true_eq] at even
  cases count : (b.store.evict now).perKey.lookup keyId with
  | none =>
    have nothing : (b.store.evict now).heldBy keyId = 0 := by simp [Inner.heldBy, count]
    omega
  | some n =>
    have holds : (b.store.evict now).heldBy keyId = n := by simp [Inner.heldBy, count]
    rw [holds]
    exact (even ⟨keyId, n⟩ (AList.mem_lookup_iff.mp count)).resolve_left other

/-- A call adds no entry, or the one entry that the evicted store had room for. -/
theorem step_places (kept : Kept limits b) (stepped : step limits call b = some b') :
    (b'.added = b.added ∧ ∀ key, b.store.entry key = none → b'.store.entry key = none) ∨
    ∃ key now deadline phase, call.adds = some (key, now) ∧ (b.store.evict now).entry key = none ∧
      (b.store.evict now).hasRoom key.keyId limits.capacity limits.perKeyShare = true ∧
      b'.added = key :: b.added ∧ b'.store = (b.store.evict now).insert key deadline phase := by
  have evicted := Inner.evict_fewer kept.indexed
  cases step_change stepped with
  | evicted now _ => exact .inl ⟨rfl, evicted now⟩
  | answered key e now _ held _ =>
    refine .inl ⟨rfl, fun k absent => ?_⟩
    have gone := evicted now k absent
    refine (Table.lookup_insert_if _ _ _ _).trans ((if_neg ?_).trans gone)
    rintro rfl
    rw [held] at gone
    cases gone
  | added key now deadline phase _ adds absent room =>
    exact .inr ⟨key, now, deadline, phase, adds, absent, room, rfl, rfl⟩
  | settled key handedOff _ _ =>
    refine .inl ⟨rfl, fun k absent => ?_⟩
    rw [Inner.settle_entry]
    split
    · next same => simp [← same, absent]
    · exact absent
  | registered key notify =>
    exact .inl ⟨rfl, fun k absent => (b.store.whenSettled_entry key k notify).trans absent⟩

def Noted (b : Books) : Prop := ∀ key e, b.store.entry key = some e → key ∈ b.added

theorem step_noted (kept : Kept limits b) (noted : b.Noted)
    (stepped : step limits call b = some b') : b'.Noted := by
  intro key e held
  rcases step_places kept stepped with ⟨same, fewer⟩ | ⟨new, now, deadline, phase, _, _, _, added, placed⟩
  · rw [same]
    cases before : b.store.entry key with
    | none =>
      rw [fewer key before] at held
      cases held
    | some e => exact noted key e before
  · rw [placed, Inner.insert_entry] at held
    rw [added]
    split at held
    · next same => exact same ▸ mem_cons_self
    · exact mem_cons_of_mem _ (noted key e (Inner.evict_sub kept.indexed now held))

/-- The free places after an entry was added for a key id none of the others is much ahead of. -/
theorem split_left (room : size + n ≤ capacity) (spread : size ≤ k * max (n + 1) (capacity / (k + 1))) :
    capacity / (k + 1) + size ≤ capacity := by
  by_contra exceeds
  have below : n + 1 ≤ capacity / (k + 1) := by omega
  rw [max_eq_right below] at spread
  have split := Nat.mul_div_le capacity (k + 1)
  rw [Nat.succ_mul] at split
  omega

/-- What the calls leave free while entries are added for the key ids of a list only. -/
structure Split (limits : StoreLimits) (k : Nat) (ids : List String) (b : Books) : Prop where
  kept : Kept limits b
  noted : b.Noted
  free : (∀ key ∈ b.added, key.keyId ∈ ids) →
    limits.capacity / (k + 1) + Table.size b.store.entries ≤ limits.capacity

theorem Split.step (few : ids.length ≤ k) (even : call.evenly limits k b = true) (split : Split limits k ids b)
    (stepped : Books.step limits call b = some b') : Split limits k ids b' := by
  have kept := split.kept.step stepped
  have noted := step_noted split.kept split.noted stepped
  refine ⟨kept, noted, fun only => ?_⟩
  rcases step_places split.kept stepped with ⟨same, fewer⟩ | ⟨key, now, deadline,
    phase, adds, absent, room, added, placed⟩
  · have smaller := (Inner.places_of_fewer fewer).1
    have free := split.free (same ▸ only)
    omega
  · have evicted := (split.kept.evict now).counted
    have size : Table.size b'.store.entries = Table.size (b.store.evict now).entries + 1 := by
      rw [placed]
      exact Table.size_insert_of_lookup_none _ absent
    simp only [Inner.hasRoom, Bool.and_eq_true, decide_eq_true_eq] at room
    refine split_left (n := (b.store.evict now).heldBy key.keyId) (by omega) ?_
    have listed : ∀ e ∈ b'.store.entries.entries, e.1.keyId ∈ ids := fun e mem =>
      only _ (noted e.1 e.2 (AList.mem_lookup_iff.mpr mem))
    refine Nat.le_trans (Table.size_le_mul_of_classes DuplicateKey.keyId listed fun keyId => ?_)
      (Nat.mul_le_mul_right _ few)
    change b'.store.entriesOf keyId ≤ _
    rw [placed, Inner.insert_entriesOf absent, ← evicted.exact]
    by_cases same : key.keyId = keyId
    · rw [if_pos same, ← same]
      exact Nat.le_max_left _ _
    · rw [if_neg same]
      exact evenly_heldBy even adds (Ne.symm same)

/-- Let entries be added for `k` key ids at most, and each only while no other key id holds more
than an equal split of the capacity or than one entry beyond what its own holds. Then an equal split
is always free, and a key id that holds less than that, and less than its share, finds room. -/
theorem equal_split_stays_free (capacity share k : Nat) (ids : List String)
    (few : ids.length ≤ k) (last : Books) (run : Reaches (step (.withLimits capacity share))
      (fun call b => call.evenly (.withLimits capacity share) k b = true) .empty last)
    (only : ∀ key ∈ last.added, key.keyId ∈ ids) :
    let limits := StoreLimits.withLimits capacity share
    capacity / (k + 1) + Table.size last.store.entries ≤ capacity ∧
    ∀ keyId, last.store.heldBy keyId < min limits.perKeyShare (capacity / (k + 1)) →
      last.store.hasRoom keyId capacity limits.perKeyShare = true := by
  intro limits
  have first : Split limits k ids .empty := by
    refine ⟨Kept.empty limits, fun key e held => ?_, fun _ => Nat.div_le_self _ _⟩
    simp [empty, Inner.empty, Inner.entry] at held
  have split := run.invariant (fun _ _ _ even stepped split => Split.step few even split stepped) first
  have free : capacity / (k + 1) + Table.size last.store.entries ≤ capacity := split.free only
  refine ⟨free, fun keyId less => ?_⟩
  simp only [Inner.hasRoom, Bool.and_eq_true, decide_eq_true_eq]
  omega

theorem equal_split_stays_free_sample :
    ∃ last, Reaches (step (.withLimits 6 6))
        (fun call b => call.evenly (.withLimits 6 6) 2 b = true) .empty last ∧
      last.added = [⟨"b", "0"⟩, ⟨"a", "1"⟩, ⟨"a", "0"⟩] ∧ 2 + Table.size last.store.entries ≤ 6 := by
  have performed : (performWithin (step (.withLimits 6 6))
      (fun call b => call.evenly (.withLimits 6 6) 2 b = true)
      [.tryAdmit ⟨"a", "0"⟩ 5 0, .tryAdmit ⟨"a", "1"⟩ 5 0, .tryAdmit ⟨"b", "0"⟩ 5 0] .empty).map Books.added =
      some [⟨"b", "0"⟩, ⟨"a", "1"⟩, ⟨"a", "0"⟩] := by decide +kernel
  obtain ⟨last, reached, added⟩ := reachedWithin_of_map _ performed
  refine ⟨last, reached, added, (equal_split_stays_free 6 6 2 ["a", "b"] (by decide) last reached ?_).1⟩
  rw [added]
  decide

/-- Two key ids fill a store of three places: the first takes two of them, and the second the
last. -/
theorem two_keys_fill_store :
    ∃ last, Reaches (step (.withLimits 3 3)) anyMove .empty last ∧
      (∀ key ∈ last.added, key.keyId ∈ ["a", "b"]) ∧ ¬ 3 / (2 + 1) + Table.size last.store.entries ≤ 3 ∧
      last.store.heldBy "c" = 0 ∧ last.store.hasRoom "c" 3 3 = false := by
  have performed : (perform (step (.withLimits 3 3))
      [.tryAdmit ⟨"a", "0"⟩ 5 0, .tryAdmit ⟨"a", "1"⟩ 5 0, .tryAdmit ⟨"b", "0"⟩ 5 0] .empty).map
        (fun b => (b.added.map DuplicateKey.keyId, Table.size b.store.entries, b.store.heldBy "c",
          b.store.hasRoom "c" 3 3)) = some (["b", "a", "a"], 3, 0, false) := by decide +kernel
  obtain ⟨last, reached, found⟩ := reached_of_map _ performed
  simp only [Prod.mk.injEq] at found
  refine ⟨last, reached, fun key mem => ?_, ?_, found.2.2.1, found.2.2.2⟩
  · have listed := mem_map_of_mem (f := DuplicateKey.keyId) mem
    rw [found.1] at listed
    simpa [or_comm] using listed
  · rw [found.2.1]
    decide

/-- Every key id with an entry is in a list that spreads over the store. -/
structure Ranked (limits : StoreLimits) (b : Books) : Prop where
  kept : Kept limits b
  ranks : ∃ ids, ids.Nodup ∧ Spread limits.capacity b.store.entriesOf ids ∧
    ∀ key e, b.store.entry key = some e → key.keyId ∈ ids

theorem Ranked.step (ranked : Ranked limits b) (stepped : Books.step limits call b = some b') :
    Ranked limits b' := by
  refine ⟨ranked.kept.step stepped, ?_⟩
  obtain ⟨ids, nodup, spread, listed⟩ := ranked.ranks
  rcases step_places ranked.kept
    stepped with ⟨-, fewer⟩ | ⟨key, now, deadline, phase, -, absent, room, -, placed⟩
  · refine ⟨ids, nodup, spread.fewer (fun keyId _ => (Inner.places_of_fewer fewer).2 keyId)
      (.refl _), fun key e held => ?_⟩
    cases before : b.store.entry key with
    | none =>
      rw [fewer key before] at held
      cases held
    | some e => exact listed key e before
  · have more := Inner.insert_entriesOf absent deadline phase
    have others : ∀ keyId ∈ ids.filter (· ≠ key.keyId),
        b'.store.entriesOf keyId = (b.store.evict now).entriesOf keyId := by
      intro keyId mem
      have other : key.keyId ≠ keyId := (of_decide_eq_true (mem_filter.mp mem).2).symm
      rw [placed, more, if_neg other, Nat.add_zero]
    have distinct : (key.keyId :: ids.filter (· ≠ key.keyId)).Nodup := by simp [nodup.filter]
    refine ⟨_, distinct, ⟨?_, spread.fewer (fun keyId mem => ?_) filter_sublist⟩, fun k e held => ?_⟩
    · have within := Table.sum_classes_le DuplicateKey.keyId (b.store.evict now).entries distinct
      simp only [Inner.hasRoom, Bool.and_eq_true, decide_eq_true_eq,
        (ranked.kept.evict now).counted.exact] at room
      rw [map_congr_left others, placed, more, if_pos rfl]
      change (b.store.evict now).entriesOf key.keyId + (map (b.store.evict now).entriesOf _).sum ≤ _ at within
      omega
    · rw [others keyId mem]
      exact (Inner.places_of_fewer (Inner.evict_fewer ranked.kept.indexed now)).2 keyId
    · rw [placed, Inner.insert_entry] at held
      split at held
      · next same => simp [same]
      · have before := listed k e (Inner.evict_sub ranked.kept.indexed now held)
        by_cases same : k.keyId = key.keyId
        · simp [same]
        · simp [same, before]

/-- The key ids that hold an entry. -/
def keyIds (b : Books) : List String := (b.store.entries.keys.map DuplicateKey.keyId).dedup

/-- A store of capacity `c` that is full holds entries of `m` key ids with `c ≤ 2 ^ m - 1`. -/
theorem full_store_key_ids (limits : StoreLimits) (last : Books)
    (run : Reaches (step limits) anyMove .empty last)
    (full : Table.size last.store.entries = limits.capacity) :
    limits.capacity ≤ 2 ^ last.keyIds.length - 1 := by
  have first : Ranked limits .empty := ⟨Kept.empty limits, [], .nil, trivial, fun key e held => by
    simp [empty, Inner.empty, Inner.entry] at held⟩
  obtain ⟨-, ids, nodup, spread, listed⟩ :=
    run.invariant (fun _ _ _ _ stepped ranked => Ranked.step ranked stepped) first
  -- Only the key ids that still hold an entry count.
  have kept : (ids.filter (· ∈ last.keyIds)).Sublist ids := filter_sublist
  have total := Table.sum_classes_eq DuplicateKey.keyId last.store.entries (nodup.sublist kept) fun e mem => by
    have holds : e.1.keyId ∈ last.keyIds := mem_dedup.mpr (mem_map_of_mem (mem_map_of_mem mem))
    exact mem_filter.mpr ⟨listed e.1 e.2 (AList.mem_lookup_iff.mpr mem), decide_eq_true holds⟩
  have few : (ids.filter (· ∈ last.keyIds)).length ≤ last.keyIds.length :=
    (subperm_of_subset (nodup.sublist kept) fun _ mem => of_decide_eq_true (mem_filter.mp mem).2).length_le
  have doubles := (spread.fewer (fun _ _ => Nat.le_refl _) kept).doubles
  change (map last.store.entriesOf _).sum = _ at total
  rw [total, full, Nat.add_sub_cancel_left] at doubles
  have more := Nat.pow_le_pow_right Nat.two_pos few
  omega

theorem full_store_key_ids_sample :
    ∃ last, Reaches (step (.withLimits 3 3)) anyMove .empty last ∧
      Table.size last.store.entries = 3 ∧ 3 ≤ 2 ^ last.keyIds.length - 1 := by
  have performed : (perform (step (.withLimits 3 3))
      [.tryAdmit ⟨"a", "0"⟩ 5 0, .tryAdmit ⟨"a", "1"⟩ 5 0, .tryAdmit ⟨"b", "0"⟩ 5 0] .empty).map
        (fun b => Table.size b.store.entries) = some 3 := by decide +kernel
  obtain ⟨last, reached, full⟩ := reached_of_map _ performed
  exact ⟨last, reached, full, full_store_key_ids (.withLimits 3 3) last reached full⟩

end Books

end Oac
