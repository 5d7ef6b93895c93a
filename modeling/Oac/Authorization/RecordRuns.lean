import Oac.Authorization.Decisions

/-! Record books over whole runs: the indexes and the caps, what a push takes from other partitions,
and which records of its own partition it takes first. -/

namespace Oac.RecordBook

open Transition Table Dated List

section Fades

variable {K R : Type} [DecidableEq K] [Dated R] {b b' : RecordBook K R}

def live (now : Timestamp) (r : R) : Bool := withinReplyPeriod (createdAt r) now

theorem live_eq_false {r : R} : live now r = false ↔ periodEnd (createdAt r) ≤ now.unixNanos := by
  simp only [live, withinReplyPeriod, periodEnd, decide_eq_false_iff_not, not_lt]

/-- Only records that no longer count are gone. -/
structure Fades (now : Timestamp) (b b' : RecordBook K R) : Prop extends Trims b b' where
  live : ∀ k, (b'.partition k).filter (live now) = (b.partition k).filter (live now)

variable {now : Timestamp} {key : K} {r : R}

theorem Indexed.fades_self (indexed : b.Indexed) : Fades now b b :=
  ⟨indexed.trims_self, fun _ => rfl⟩

theorem Fades.trans (first : Fades now b b') (second : Fades now b' c) : Fades now b c :=
  ⟨first.toTrims.trans second.toTrims, fun k => (second.live k).trans (first.live k)⟩

theorem Indexed.popExpired_fades (indexed : b.Indexed) (now : Timestamp) (key : K) (fuel : Nat) :
    Fades now b (RecordBook.popExpired now.unixNanos key fuel b) := by
  induction fuel generalizing b with
  | zero => exact indexed.fades_self
  | succ fuel ih =>
    simp only [RecordBook.popExpired]
    cases front : (b.partition key).head? with
    | none => exact indexed.fades_self
    | some first =>
      dsimp only
      split
      · next expired =>
        obtain ⟨trims, popped⟩ := indexed.popFront key
        have faded : Fades now b (b.popFront key) := by
          refine ⟨trims, fun k => ?_⟩
          rw [popped]
          split
          · next same =>
            subst same
            obtain ⟨rest, listed⟩ := head?_eq_some_iff.mp front
            have gone : RecordBook.live now first = false := live_eq_false.mpr expired
            rw [listed, tail_cons, filter_cons_of_neg (by simp [gone])]
          · rfl
        exact faded.trans (ih trims.indexed)
      · exact indexed.fades_self

/-- There is room for one more record, in its partition, in all and for a new partition. -/
structure BelowCaps (b : RecordBook K R) (key : K) : Prop where
  records : (b.partition key).length < maxRecordsPerPartition
  partitions : size b.parts < b.maxPartitions
  total : b.total < maxRecordsTotal

theorem BelowCaps.trims (indexed : b.Indexed) (below : BelowCaps b key) (trims : Trims b b') :
    BelowCaps b' key where
  records := (trims.sublist key).length_le.trans_lt below.records
  partitions := by
    rw [trims.maxPartitions]
    exact (size_le_of_keys (trims.present indexed)).trans_lt below.partitions
  total := trims.total.trans_lt below.total

theorem popAtCap_of_room (room : (b.partition key).length < maxRecordsPerPartition) : b.popAtCap key = b := by
  unfold RecordBook.popAtCap
  cases held : b.parts.lookup key with
  | none => simp
  | some p =>
    rw [partition_of_lookup held] at room
    simp [room]

variable [Ord K]

theorem Indexed.sweep_fades (indexed : b.Indexed) (now : Timestamp) : Fades now b (b.sweep now.unixNanos) := by
  obtain ⟨trims, contents⟩ := indexed.sweep now.unixNanos
  refine ⟨trims, fun k => ?_⟩
  rcases contents k with same | ⟨empty, expired⟩
  · rw [same]
  · have none_ : (b.partition k).filter (RecordBook.live now) = [] :=
      filter_eq_nil_iff.mpr fun r mem => by simp [live_eq_false.mpr (expired r mem)]
    rw [empty, none_]
    rfl

theorem popLargest_of_room (room : b.total < maxRecordsTotal) : b.popLargest = b := by
  unfold RecordBook.popLargest
  rw [if_neg (Nat.not_le.mpr room)]

/-- Below the caps a push takes out what no longer counts and adds the record at the end. -/
theorem Indexed.push_below (indexed : b.Indexed) (below : BelowCaps b key) (r : R)
    (now : Timestamp) : ∃ made, Fades now b made ∧ Grown made (b.push key r now).2 key r := by
  have swept := indexed.sweep_fades now
  have sweptBelow := below.trims indexed swept.toTrims
  have expired := swept.indexed.popExpired_fades now key ((b.sweep now.unixNanos).partition key).length
  have room := sweptBelow.trims swept.indexed expired.toTrims
  refine ⟨_, swept.trans expired, ?_⟩
  have pushed : (b.push key r now).2 = (RecordBook.popExpired now.unixNanos key
      ((b.sweep now.unixNanos).partition key).length (b.sweep now.unixNanos)).append key r := by
    unfold RecordBook.push
    rw [if_neg (by simp [Nat.not_le.mpr sweptBelow.partitions])]
    unfold RecordBook.makeRoom
    rw [popAtCap_of_room room.records, popLargest_of_room room.total]
  rw [pushed]
  exact expired.indexed.append key r

/-- A record pushed below the caps and then searched for by a test that none of the others meets is
taken out again. -/
theorem Indexed.push_removeFirst (indexed : b.Indexed) (below : BelowCaps b key) (matched : matching r = true)
    (others : ∀ x ∈ b.partition key, matching x = false) (indexed' : b'.Indexed)
    (pushed : ∀ k, b'.partition k = (b.push key r now).2.partition k) (k : K) :
    ((b'.removeFirst key matching).2.partition k).filter (live now) = (b.partition k).filter (live now) := by
  obtain ⟨made, faded, grown⟩ := indexed.push_below below r now
  obtain ⟨-, contents⟩ := indexed'.removeFirst key matching
  rw [contents, ← faded.live]
  split
  · next same =>
    subst same
    have unmatched : ∀ x ∈ made.partition k, ¬matching x = true := fun x mem => by
      simp [others x ((faded.sublist k).subset mem)]
    rw [pushed, grown.partition, if_pos rfl, eraseP_append_right _ unmatched,
      eraseP_cons_of_pos matched, append_nil]
  · next other => rw [pushed, grown.partition, if_neg other]

end Fades

section Runs

variable {K R : Type} [DecidableEq K] [Dated R] {b b' : RecordBook K R}

/-- The calls that change a record book. -/
inductive Call (K R : Type) where
  | push (key : K) (r : R) (now : Timestamp)
  | retain (keep : R → Bool)
  | dropPartitions (matching : K → Bool)
  | removeFirst (key : K) (matching : R → Bool)
  | sweep (now : Int)

variable [Ord K]

def step : Call K R → RecordBook K R → Option (RecordBook K R)
  | .push key r now, b => some (b.push key r now).2
  | .retain keep, b => some (b.retain keep)
  | .dropPartitions matching, b => some (b.dropPartitions matching)
  | .removeFirst key matching, b => some (b.removeFirst key matching).2
  | .sweep now, b => some (b.sweep now)

/-- A call takes records away, or pushes one onto what is left. -/
theorem Indexed.step_cases (indexed : b.Indexed) (bounded : b.Bounded)
    (stepped : step call b = some b') :
    Trims b b' ∨ ∃ key r now made, call = .push key r now ∧ Trims b made ∧ Grown made b' key r := by
  cases call with
  | push key r now =>
    obtain ⟨swept, -⟩ := indexed.sweep now.unixNanos
    cases stepped
    fun_cases RecordBook.push
    · exact .inl swept
    · obtain ⟨made, -⟩ := swept.indexed.makeRoom (swept.bounded indexed bounded) key now.unixNanos
      exact .inr ⟨key, r, now, _, rfl, swept.trans made, made.indexed.append key r⟩
  | retain keep =>
    cases stepped
    exact .inl (indexed.retain keep).1
  | dropPartitions matching =>
    cases stepped
    exact .inl (indexed.dropPartitions matching).1
  | removeFirst key matching =>
    cases stepped
    exact .inl (indexed.removeFirst key matching).1
  | sweep now =>
    cases stepped
    exact .inl (indexed.sweep now).1

/-- The indexes of a book made for `limit` partitions, and its caps. -/
structure Kept (limit : Nat) (indexSenders : Bool) (b : RecordBook K R) : Prop where
  indexed : b.Indexed
  bounded : b.Bounded
  maxPartitions : b.maxPartitions = limit
  enabled : b.senders.enabled = indexSenders

omit [Ord K] in
theorem new_kept (limit : Nat) (indexSenders : Bool) :
    Kept limit indexSenders (withMaxPartitions limit indexSenders : RecordBook K R) := by
  refine ⟨new_indexed limit indexSenders, ⟨fun k => ?_, Nat.zero_le _, Nat.zero_le _⟩, rfl, rfl⟩
  simp [withMaxPartitions, partition]

omit [Ord K] in
theorem Kept.trims (kept : Kept limit indexSenders b) (trims : Trims b b') : Kept limit indexSenders b' :=
  ⟨trims.indexed, trims.bounded kept.indexed kept.bounded,
    trims.maxPartitions.trans kept.maxPartitions, trims.logs.enabled.trans kept.enabled⟩

theorem Kept.step (kept : Kept limit indexSenders b) (stepped : step call b = some b') :
    Kept limit indexSenders b' := by
  rcases kept.indexed.step_cases kept.bounded stepped with trims | ⟨key, r, now, made, rfl, trims, grown⟩
  · exact kept.trims trims
  · cases stepped
    have fewer := kept.trims trims
    exact ⟨grown.indexed, (kept.indexed.push kept.bounded key r now).1.bounded,
      grown.maxPartitions.trans fewer.maxPartitions, grown.logs.enabled.trans fewer.enabled⟩

theorem reached_kept {guard : Call K R → RecordBook K R → Prop}
    (run : Reaches step guard (withMaxPartitions limit indexSenders) b) : Kept limit indexSenders b :=
  run.invariant (fun _ _ _ _ stepped kept => kept.step stepped) (new_kept limit indexSenders)

theorem Indexed.largest_most (indexed : b.Indexed) (found : b.largest = some k) (j : K) :
    (b.partition j).length ≤ (b.partition k).length := by
  obtain ⟨⟨n, _⟩, most, rfl⟩ := Option.map_eq_some_iff.mp found
  obtain ⟨p, held, sized⟩ := (indexed.sizes _ _).mp (least_mem most)
  rw [partition_of_lookup held, sized]
  cases other : b.parts.lookup j with
  | none =>
    rw [(indexed.partition_eq_nil j).mpr other]
    exact Nat.zero_le _
  | some q =>
    rw [partition_of_lookup other]
    exact most_of_least most _ ((indexed.sizes _ j).mpr ⟨q, other, rfl⟩)

omit [Ord K] in
theorem Indexed.popAtCap_other (indexed : b.Indexed) (other : k ≠ key) :
    (b.popAtCap key).partition k = b.partition k := by
  unfold RecordBook.popAtCap
  split
  · exact ((indexed.popFront key).2 k).trans (if_neg other)
  · rfl

/-- Past the total, the largest partition loses its oldest record. -/
theorem Indexed.popLargest_partition (indexed : b.Indexed) (k : K) :
    b.popLargest.partition k = b.partition k ∨
    maxRecordsTotal ≤ b.total ∧ (∀ j, (b.partition j).length ≤ (b.partition k).length) ∧
      b.popLargest.partition k = (b.partition k).tail := by
  unfold RecordBook.popLargest
  split
  · next full =>
    cases found : b.largest with
    | none => exact .inl rfl
    | some j =>
      rw [(indexed.popFront j).2 k]
      split
      · next same =>
        subst same
        exact .inr ⟨full, indexed.largest_most found, rfl⟩
      · exact .inl rfl
  · exact .inl rfl

/-- What a push leaves of another partition. -/
theorem Kept.push_other (kept : Kept limit indexSenders b) (key : K) (r : R)
    (now : Timestamp) (other : k ≠ key) :
    let swept := b.sweep now.unixNanos
    let own := (popExpired now.unixNanos key (swept.partition key).length swept).popAtCap key
    EndedOnly now.unixNanos b (b.push key r now).2 k ∨
    maxRecordsTotal ≤ own.total ∧ (∀ j, (own.partition j).length ≤ (own.partition k).length) ∧
      (b.push key r now).2.partition k = (b.partition k).tail := by
  intro swept own
  obtain ⟨trims, ended⟩ := kept.indexed.sweep now.unixNanos
  obtain ⟨expired, frame⟩ := trims.indexed.popExpired now.unixNanos key (swept.partition key).length
  have capped := (expired.indexed.popAtCap ((kept.trims trims).trims expired).bounded key).1
  have same : own.partition k = swept.partition k :=
    (expired.indexed.popAtCap_other other).trans (frame k other)
  unfold EndedOnly RecordBook.push
  dsimp only
  split
  · exact .inl (ended k)
  · have room := (capped.indexed.popLargest (((kept.trims trims).trims expired).trims capped).bounded).1
    have grown := room.indexed.append key r
    have after : ((swept.makeRoom key now.unixNanos).append key r).partition k = own.popLargest.partition k :=
      (grown.partition k).trans (if_neg other)
    rw [after]
    rcases capped.indexed.popLargest_partition k with stays | ⟨full, most, tail⟩
    · rw [stays, same]
      exact .inl (ended k)
    · rcases ended k with kept | ⟨gone, all⟩
      · exact .inr ⟨full, most, tail.trans (congrArg List.tail (same.trans kept))⟩
      · rw [tail, same, gone]
        exact .inl (.inr ⟨rfl, all⟩)

/-- After any calls the indexes of a record book are exact and its caps hold. A sweep removes only
partitions whose records have all ended their reply period; a push that is refused does no more than
that; and a push takes from another partition such a whole partition, or, once the total cap is
reached after its own partition gave up what it had to, the oldest record of a partition that none
exceeds. -/
theorem record_book_exact_and_isolated (limit : Nat) (indexSenders : Bool) (b : RecordBook K R)
    (run : Reaches step anyMove (withMaxPartitions limit indexSenders) b) :
    Kept limit indexSenders b ∧
    (∀ now k, EndedOnly now b (b.sweep now) k) ∧
    ∀ key r now, ((b.push key r now).1 = false → (b.push key r now).2 = b.sweep now.unixNanos) ∧
      ∀ k, k ≠ key →
        let swept := b.sweep now.unixNanos
        let own := (popExpired now.unixNanos key (swept.partition key).length swept).popAtCap key
        EndedOnly now.unixNanos b (b.push key r now).2 k ∨
        maxRecordsTotal ≤ own.total ∧ (∀ j, (own.partition j).length ≤ (own.partition k).length) ∧
          (b.push key r now).2.partition k = (b.partition k).tail := by
  have kept := reached_kept run
  refine ⟨kept, fun now => (kept.indexed.sweep now).2, fun key r now => ⟨fun refused => ?_, fun k other => ?_⟩⟩
  · unfold RecordBook.push at refused ⊢
    dsimp only at refused ⊢
    split at refused
    · next bound => rw [if_pos bound]
    · cases refused
  · exact kept.push_other key r now other

def Call.inOrder : Call K R → RecordBook K R → Bool
  | .push key r _, b =>
    (b.partition key).all fun x => decide ((createdAt x).unixNanos ≤ (createdAt r).unixNanos)
  | _, _ => true

/-- The records of each partition stand in the order of their `created_at`. -/
def InOrder (b : RecordBook K R) : Prop :=
  ∀ k, (b.partition k).Pairwise fun x y => (createdAt x).unixNanos ≤ (createdAt y).unixNanos

theorem InOrder.step (kept : Kept limit indexSenders b) (ordered : b.InOrder)
    (inOrder : call.inOrder b = true) (stepped : RecordBook.step call b = some b') : b'.InOrder := by
  intro k
  rcases kept.indexed.step_cases kept.bounded stepped with trims | ⟨key, r, now, made, rfl, trims, grown⟩
  · exact (ordered k).sublist (trims.sublist k)
  · have before := (ordered k).sublist (trims.sublist k)
    rw [grown.partition]
    split
    · next same =>
      subst same
      simp only [Call.inOrder, all_eq_true, decide_eq_true_eq] at inOrder
      refine pairwise_append.mpr ⟨before, pairwise_singleton _ _, fun x mem y last => ?_⟩
      cases mem_singleton.mp last
      exact inOrder x ((trims.sublist k).subset mem)
    · exact before

omit [Ord K] in
theorem Indexed.length_le_total (indexed : b.Indexed) (key : K) : (b.partition key).length ≤ b.total := by
  cases held : b.parts.lookup key with
  | none =>
    rw [(indexed.partition_eq_nil key).mpr held]
    exact Nat.zero_le _
  | some p =>
    rw [partition_of_lookup held, indexed.total, sum_erase held]
    exact Nat.le_add_right _ _

omit [Ord K] in
/-- With its oldest record expired, a partition gives up one at least. -/
theorem Indexed.popExpired_front (indexed : b.Indexed) (listed : b.partition key = front :: rest)
    (expired : periodEnd (createdAt front) ≤ now) :
    ((RecordBook.popExpired now key (b.partition key).length b).partition key).length <
      (b.partition key).length ∧
      (RecordBook.popExpired now key (b.partition key).length b).total < b.total := by
  have filled : b.partition key ≠ [] := by simp [listed]
  have positive := indexed.length_le_total key
  obtain ⟨popped, contents⟩ := indexed.popFront key
  have total := indexed.popFront_total filled
  obtain ⟨more, -⟩ := popped.indexed.popExpired now key rest.length
  have shorter := (more.sublist key).length_le
  have fewer := more.total
  rw [contents, if_pos rfl, listed, tail_cons] at shorter
  rw [listed, length_cons] at positive
  simp only [listed, length_cons, RecordBook.popExpired, head?_cons, expired, if_true]
  omega

/-- Where the records of each partition came in the order of their `created_at`, a push onto a
partition that holds an expired record, full or not, takes no record of it that is within its reply
period. -/
theorem expired_records_go_first (limit : Nat) (indexSenders : Bool) (b : RecordBook K R)
    (run : Reaches step (fun call b => call.inOrder b = true) (withMaxPartitions limit indexSenders) b)
    (key : K) (r x : R) (now : Timestamp) (held : x ∈ b.partition key) (ended : live now x = false) :
    ((b.partition key).filter (live now)).Sublist ((b.push key r now).2.partition key) := by
  have kept := reached_kept run
  have ordered : b.InOrder := by
    have both := run.invariant (P := fun b => Kept limit indexSenders b ∧ b.InOrder)
      (fun _ _ _ inOrder stepped both => ⟨both.1.step stepped, both.2.step both.1 inOrder stepped⟩)
      ⟨new_kept limit indexSenders, fun k => by simp [withMaxPartitions, partition]⟩
    exact both.2
  obtain ⟨trims, contents⟩ := kept.indexed.sweep now.unixNanos
  have fades := kept.indexed.sweep_fades now
  rw [← fades.live key]
  fun_cases RecordBook.push
  · exact filter_sublist
  · have expired := trims.indexed.popExpired_fades now key ((b.sweep now.unixNanos).partition key).length
    rcases contents key with same | ⟨gone, _⟩
    · cases listed : b.partition key with
      | nil =>
        rw [listed] at held
        cases held
      | cons front rest =>
        have first : periodEnd (createdAt front) ≤ now.unixNanos := by
          have late := live_eq_false.mp ended
          have order := ordered key
          rw [listed] at order held
          rcases mem_cons.mp held with rfl | later
          · exact late
          · have before := (pairwise_cons.mp order).1 x later
            unfold periodEnd at late ⊢
            omega
        obtain ⟨shorter, fewer⟩ := trims.indexed.popExpired_front (same.trans listed) first
        have bounded := (kept.trims trims).bounded
        have room := shorter.trans_le (bounded.records key)
        have below := fewer.trans_le bounded.total
        unfold makeRoom
        rw [popAtCap_of_room room, popLargest_of_room below,
          (expired.indexed.append key r).partition, if_pos rfl, ← expired.live key]
        exact filter_sublist.trans (sublist_append_left _ _)
    · rw [gone]
      exact nil_sublist _

/-- A push onto a book with one partition, all of whose records count, appends its record. -/
theorem Kept.push_alone (kept : Kept 2 indexSenders b) (alone : ∀ k, k ≠ key → b.partition k = [])
    (counts : ∀ x ∈ b.partition key, live now x = true)
    (room : (b.partition key).length < maxRecordsPerPartition)
    (few : b.total < maxRecordsTotal) (r : R) :
    (b.push key r now).2.partition key = b.partition key ++ [r] ∧
      (∀ k, k ≠ key → (b.push key r now).2.partition k = []) ∧ (b.push key r now).2.total ≤ b.total + 1 := by
  have one : size b.parts ≤ size (∅ : Table K Unit) + 1 := by
    refine size_le_succ_of_keys (k := key) fun k present => ?_
    by_contra other
    rw [not_or] at other
    rw [(kept.indexed.partition_eq_nil k).mp (alone k other.1)] at present
    cases present
  have below : b.BelowCaps key := ⟨room, one.trans_lt (kept.maxPartitions ▸ Nat.one_lt_two), few⟩
  obtain ⟨made, faded, grown⟩ := kept.indexed.push_below below r now
  have same : made.partition key = b.partition key := by
    refine (faded.sublist key).eq_of_length_le ?_
    have all := faded.live key
    rw [filter_eq_self.mpr counts] at all
    rw [← all]
    exact length_filter_le _ _
  refine ⟨?_, fun k other => ?_, ?_⟩
  · rw [grown.partition, if_pos rfl, same]
  · rw [grown.partition, if_neg other]
    exact eq_nil_of_sublist_nil (alone k other ▸ faded.sublist k)
  · rw [grown.total]
    exact Nat.add_le_add_right faded.total 1

/-- Any records that all count can fill a partition, in any order. -/
theorem reaches_filled (key : K) (now : Timestamp) (records : List R)
    (counts : ∀ x ∈ records, live now x = true) (few : records.length ≤ maxRecordsPerPartition) :
    ∃ b : RecordBook K R, Reaches step anyMove (withMaxPartitions 2 false) b ∧
      b.partition key = records ∧ (∀ k, k ≠ key → b.partition k = []) ∧ b.total ≤ records.length := by
  induction records using reverseRecOn with
  | nil => exact ⟨_, .refl, rfl, fun _ _ => rfl, Nat.le_refl 0⟩
  | append_singleton records r ih =>
    rw [length_append, length_singleton] at few ⊢
    obtain ⟨b, run, listed, alone, total⟩ := ih (fun x mem => counts x (mem_append_left _ mem)) (by omega)
    have cap : maxRecordsPerPartition ≤ maxRecordsTotal := by decide
    have live : ∀ x ∈ b.partition key, live now x = true := fun x mem =>
      counts x (mem_append_left _ (listed ▸ mem))
    obtain ⟨pushed, others, more⟩ :=
      (reached_kept run).push_alone alone live (by rw [listed]; omega) (by omega) r
    exact ⟨_, run.tail ⟨.push key r now, trivial, rfl⟩, by rw [pushed, listed], others, by omega⟩

/-- A full partition whose oldest record counts gives that record up. -/
theorem Kept.push_full (kept : Kept limit indexSenders b) (listed : b.partition key = front :: rest)
    (counts : live now front = true) (full : (front :: rest).length = maxRecordsPerPartition)
    (few : b.total < maxRecordsTotal) (r : R) :
    (b.push key r now).1 = true ∧ (b.push key r now).2.partition key = rest ++ [r] := by
  obtain ⟨trims, contents⟩ := kept.indexed.sweep now.unixNanos
  have unexpired : ¬periodEnd (createdAt front) ≤ now.unixNanos := by
    intro ended
    rw [live_eq_false.mpr ended] at counts
    cases counts
  have same : (b.sweep now.unixNanos).partition key = front :: rest := by
    rcases contents key with same | ⟨_, ended⟩
    · exact same.trans listed
    · exact absurd (ended front (listed ▸ mem_cons_self)) unexpired
  obtain ⟨popped, left⟩ := trims.indexed.popFront key
  have few : ((b.sweep now.unixNanos).popFront key).total < maxRecordsTotal :=
    (popped.total.trans trims.total).trans_lt few
  cases held : (b.sweep now.unixNanos).parts.lookup key with
  | none => simp [partition, held] at same
  | some p =>
    have capped : (b.sweep now.unixNanos).popAtCap key = (b.sweep now.unixNanos).popFront key := by
      have records := (partition_of_lookup held).symm.trans same
      simp [RecordBook.popAtCap, held, records, full]
    have room : (b.sweep now.unixNanos).makeRoom key now.unixNanos = (b.sweep now.unixNanos).popFront key := by
      unfold makeRoom
      simp only [same, length_cons, RecordBook.popExpired, head?_cons, if_neg unexpired]
      rw [capped, popLargest_of_room few]
    unfold RecordBook.push
    simp only [held, Option.isNone_some, Bool.false_and, Bool.false_eq_true, if_false, room, true_and]
    rw [(popped.indexed.append key r).partition, if_pos rfl, left, if_pos rfl, same, tail_cons]

end Runs

section Samples

open AuthorizationEngine

def secondSecond : Timestamp := ⟨"1970-01-01T00:00:01Z", 1000000000, by decide +kernel⟩

def secondDay : Timestamp := ⟨"1970-01-02T00:00:00Z", 86400000000000, by decide +kernel⟩

def sentAt (createdAt : Timestamp) : SentRecord :=
  ⟨sampleMessageId, sampleSession 1, sampleSession 2, samplePeerKey, createdAt, none, none⟩

/-- A book of one partition refuses a second one until the first has ended. -/
theorem record_book_exact_and_isolated_sample :
    let b := ((withMaxPartitions 1 true : RecordBook SessionId SentRecord).push (sampleSession 1)
      (sentAt .epoch) .epoch).2
    let second := fun now => b.push (sampleSession 2) (sentAt now) now
    Kept 1 true b ∧ (second secondSecond).1 = false ∧
      (second secondSecond).2 = b.sweep secondSecond.unixNanos ∧ (second secondDay).1 = true ∧
      EndedOnly secondDay.unixNanos b (b.sweep secondDay.unixNanos) (sampleSession 1) := by
  intro b second
  obtain ⟨kept, swept, pushed⟩ := record_book_exact_and_isolated 1 true b
    (.tail .refl ⟨.push (sampleSession 1) (sentAt .epoch) .epoch, trivial, rfl⟩)
  have refused : (second secondSecond).1 = false := by decide +kernel
  exact ⟨kept, refused, (pushed _ _ _).1 refused, by decide +kernel, swept _ _⟩

theorem expired_records_go_first_sample :
    ∃ b : RecordBook SessionId SentRecord, b.partition (sampleSession 1) = [sentAt .epoch, sentAt secondSecond] ∧
      [sentAt secondSecond].Sublist ((b.push (sampleSession 1) (sentAt secondDay) secondDay).2.partition
        (sampleSession 1)) := by
  have performed : (performWithin step (fun call b => call.inOrder b = true)
      [.push (sampleSession 1) (sentAt .epoch) secondSecond,
        .push (sampleSession 1) (sentAt secondSecond) secondSecond]
      (withMaxPartitions 2 false)).map (·.partition (sampleSession 1)) =
      some [sentAt .epoch, sentAt secondSecond] := by decide +kernel
  obtain ⟨b, reached, listed⟩ := reachedWithin_of_map _ performed
  have first := expired_records_go_first 2 false b reached (sampleSession 1)
    (sentAt secondDay) (sentAt .epoch) secondDay (listed ▸ mem_cons_self) (by decide +kernel)
  rw [listed] at first
  have counting : [sentAt .epoch, sentAt secondSecond].filter (live secondDay) = [sentAt secondSecond] := by
    decide +kernel
  exact ⟨b, listed, counting ▸ first⟩

/-- A partition whose oldest record came with a later `created_at` than the 4095 after it: a push on
the next day takes that record, which still counts, and keeps the others, which do not. -/
theorem live_record_goes_first :
    ∃ b : RecordBook SessionId SentRecord,
      Reaches step anyMove (withMaxPartitions 2 false) b ∧
      (b.partition (sampleSession 1)).length = maxRecordsPerPartition ∧
      sentAt secondSecond ∈ b.partition (sampleSession 1) ∧ live secondDay (sentAt secondSecond) = true ∧
      sentAt .epoch ∈ b.partition (sampleSession 1) ∧ live secondDay (sentAt .epoch) = false ∧
      (b.push (sampleSession 1) (sentAt secondDay) secondDay).1 = true ∧
      sentAt secondSecond ∉ (b.push (sampleSession 1) (sentAt secondDay) secondDay).2.partition
        (sampleSession 1) ∧
      sentAt .epoch ∈ (b.push (sampleSession 1) (sentAt secondDay) secondDay).2.partition (sampleSession 1) := by
  have early : live secondSecond (sentAt .epoch) = true ∧ live secondSecond (sentAt secondSecond) = true := by
    decide +kernel
  have late : live secondDay (sentAt secondSecond) = true ∧ live secondDay (sentAt .epoch) = false ∧
      sentAt secondSecond ≠ sentAt .epoch ∧ sentAt secondSecond ≠ sentAt secondDay := by decide +kernel
  have full : (sentAt secondSecond :: replicate 4095 (sentAt .epoch)).length = maxRecordsPerPartition := by
    rw [length_cons, length_replicate]
    rfl
  obtain ⟨b, run, listed, -, total⟩ := reaches_filled (sampleSession 1) secondSecond _
    (fun x mem => by
      rcases mem_cons.mp mem with rfl | later
      · exact early.2
      · exact (eq_of_mem_replicate later) ▸ early.1) full.le
  have few : b.total < maxRecordsTotal := (full ▸ total).trans_lt (by decide)
  obtain ⟨added, left⟩ := (reached_kept run).push_full listed late.1 full few (sentAt secondDay)
  have among : sentAt .epoch ∈ replicate 4095 (sentAt .epoch) := mem_replicate.mpr ⟨by decide, rfl⟩
  refine ⟨b, run, listed ▸ full, listed ▸ mem_cons_self, late.1,
    listed ▸ mem_cons_of_mem _ among, late.2.1, added, ?_, ?_⟩
  · rw [left, mem_append, mem_singleton]
    rintro (kept | last)
    · exact late.2.2.1 (eq_of_mem_replicate kept)
    · exact late.2.2.2 last
  · rw [left]
    exact mem_append_left _ among

end Samples

end Oac.RecordBook
