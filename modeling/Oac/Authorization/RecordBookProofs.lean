import Mathlib.Data.List.Perm.Basic
import Mathlib.Tactic.ByContra
import Oac.Authorization.RecordBook

/-! Every operation of a record book keeps its indexes exact, and the log of sender changes says
how the set of senders with a record moved. -/

namespace Oac

open Table List RecordBook Option

section Least

variable {α N K : Type}

theorem least_eq_none : least before l = none ↔ l = [] := by
  cases l with
  | nil => simp [least]
  | cons a rest =>
    simp only [least, reduceCtorEq, iff_false]
    cases least before rest with
    | none => simp
    | some b =>
      dsimp only
      split <;> simp

theorem least_mem (found : least before l = some a) : a ∈ l := by
  induction l generalizing a with
  | nil => simp [least] at found
  | cons b rest ih =>
    simp only [least] at found
    cases chosen : least before rest with
    | none => simp_all
    | some c =>
      rw [chosen] at found
      dsimp only at found
      split at found
      · exact mem_cons_of_mem _ (ih (found ▸ chosen))
      · simp_all

/-- The element chosen ranks lowest, in a preorder that the comparison respects. -/
theorem le_of_least [Preorder N] {r : α → N}
    (ranks : ∀ a b, if before b a = true then r b ≤ r a else r a ≤ r b)
    (found : least before l = some a) : ∀ x ∈ l, r a ≤ r x := by
  induction l generalizing a with
  | nil => cases found
  | cons b rest ih =>
    simp only [least] at found
    rw [forall_mem_cons]
    cases chosen : least before rest with
    | none =>
      rw [chosen] at found
      cases found
      simp [least_eq_none.mp chosen]
    | some c =>
      rw [chosen] at found
      have compared := ranks b c
      dsimp only at found
      split at found
      · next earlier =>
        cases found
        rw [if_pos earlier] at compared
        exact ⟨compared, ih chosen⟩
      · next later =>
        cases found
        rw [if_neg later] at compared
        exact ⟨le_rfl, fun x mem => compared.trans (ih chosen x mem)⟩

theorem most_of_least [LinearOrder N] [Ord K] {l : List (N × K)}
    (found : least (fun x y => pairBefore y x) l = some a) : ∀ x ∈ l, x.1 ≤ a.1 := by
  refine le_of_least (r := fun x => OrderDual.toDual x.1) (fun a b => ?_) found
  simp only [pairBefore, Bool.or_eq_true, Bool.and_eq_true, decide_eq_true_eq, OrderDual.toDual_le_toDual]
  split
  · next before => exact before.elim le_of_lt fun tie => tie.1.le
  · next first => exact not_lt.mp fun less => first (.inl less)

/-- The list holds every key that has a value, with that value, and nothing else. -/
def Tracks (l : List (N × K)) (value : K → Option N) : Prop := ∀ n k, (n, k) ∈ l ↔ value k = some n

section Tracks

variable [DecidableEq K] {l : List (N × K)} {value : K → Option N} {key : K} {n old : N}

theorem Tracks.self (tracks : Tracks l value) (held : value key = some n) :
    Tracks l fun k => if k = key then some n else value k := by
  convert tracks using 2
  split
  · next same => rw [same, held]
  · rfl

variable [DecidableEq N]

theorem Tracks.erase (tracks : Tracks l value) (held : value key = some n) :
    Tracks (l.filter (· ≠ (n, key))) fun k => if k = key then none else value k := by
  intro m k
  rw [mem_filter, tracks]
  by_cases same : k = key
  · subst same
    simp [held, @eq_comm N m]
  · simp [same]

theorem Tracks.insert (tracks : Tracks l value) (absent : value key = none) :
    Tracks (l.insert (n, key)) fun k => if k = key then some n else value k := by
  intro m k
  rw [mem_insert_iff, tracks]
  by_cases same : k = key
  · subst same
    simp [absent, eq_comm]
  · simp [same]

theorem Tracks.replace (tracks : Tracks l value) (held : value key = some old) :
    Tracks ((l.filter (· ≠ (old, key))).insert (n, key)) fun k => if k = key then some n else value k := by
  convert (tracks.erase held).insert (if_pos rfl) using 2
  split <;> rfl

end Tracks

end Least

variable {K R : Type} [DecidableEq K]

/-- What a log of changes leaves of a fact about one partition and sender. -/
def noted (key : K) (sender : SessionId) (before : Bool) (log : List (K × SessionId × Bool)) : Bool :=
  log.foldl (fun held c => if c.1 = key ∧ c.2.1 = sender then c.2.2 else held) before

theorem noted_append (key : K) (sender : SessionId) (before : Bool)
    (first second : List (K × SessionId × Bool)) :
    noted key sender before (first ++ second) = noted key sender (noted key sender before first) second :=
  foldl_append

variable {index : SenderIndex K}

namespace SenderIndex

def held (index : SenderIndex K) (key : K) (sender : SessionId) : Bool :=
  (index.counts.lookup (key, sender)).isSome

/-- The second index follows from the first; the changes logged in between account for every
sender that came or went, and are all about the given senders. -/
structure Logs (about : K → SessionId → Prop) (before after : SenderIndex K) : Prop where
  enabled : after.enabled = before.enabled
  changes : ∃ log, after.changes = before.changes ++ log ∧ (∀ c ∈ log, about c.1 c.2.1) ∧
    ∀ key sender, after.held key sender = noted key sender (before.held key sender) log

theorem Logs.refl (index : SenderIndex K) : Logs about index index :=
  ⟨rfl, [], by simp, by simp, fun _ _ => rfl⟩

theorem Logs.mono {about about' : K → SessionId → Prop}
    (wider : ∀ k s, about k s → about' k s) (logs : Logs about a b) : Logs about' a b := by
  obtain ⟨log, changes, only, held⟩ := logs.changes
  exact ⟨logs.enabled, log, changes, fun c mem => wider _ _ (only c mem), held⟩

theorem Logs.trans {about : K → SessionId → Prop} (first : Logs about a b)
    (second : Logs about b c) : Logs about a c := by
  obtain ⟨firstLog, firstChanges, firstOnly, firstHeld⟩ := first.changes
  obtain ⟨secondLog, secondChanges, secondOnly, secondHeld⟩ := second.changes
  refine ⟨second.enabled.trans first.enabled, firstLog ++ secondLog, ?_, ?_, fun key sender => ?_⟩
  · rw [secondChanges, firstChanges, append_assoc]
  · intro change mem
    rcases mem_append.mp mem with mem | mem
    · exact firstOnly change mem
    · exact secondOnly change mem
  · rw [secondHeld, firstHeld, noted_append]

theorem noted_single (key key' : K) (sender sender' : SessionId) (before now : Bool) :
    noted key' sender' before [(key, sender, now)] = if (key', sender') = (key, sender) then now
      else before := by
  simp only [noted, foldl_cons, foldl_nil, Prod.mk.injEq, eq_comm]

theorem add_logs (index : SenderIndex K) (key : K) (sender : SessionId) :
    Logs (fun k s => k = key ∧ s = sender) index (index.add key sender) := by
  unfold add
  split
  · exact .refl index
  · by_cases first : (index.counts.lookup (key, sender)).getD 0 + 1 = 1
    · refine ⟨rfl, [(key, sender, true)], if_pos first, by simp, fun key' sender' => ?_⟩
      simp only [held, lookup_insert_if, noted_single]
      split <;> rfl
    · refine ⟨rfl, [], (if_neg first).trans (append_nil _).symm, by simp, fun key' sender' => ?_⟩
      simp only [held, lookup_insert_if, noted, foldl_nil]
      split
      · next same =>
        -- a count above one was already held
        cases counted : index.counts.lookup (key, sender) with
        | none => simp [counted] at first
        | some n => rw [same, counted]; rfl
      · rfl

theorem remove_logs (index : SenderIndex K) (key : K) (sender : SessionId) :
    Logs (fun k s => k = key ∧ s = sender) index (index.remove key sender) := by
  unfold remove
  cases counted : index.counts.lookup (key, sender) with
  | none => exact .refl index
  | some n =>
    dsimp only
    split
    · refine ⟨rfl, [(key, sender, false)], rfl, by simp, fun key' sender' => ?_⟩
      simp only [held, lookup_erase_if, noted_single]
      split <;> rfl
    · refine ⟨rfl, [], by simp, by simp, fun key' sender' => ?_⟩
      simp only [held, lookup_insert_if, noted, foldl_nil]
      split
      · next same => rw [same, counted]; rfl
      · rfl

theorem remove_counts (counted : index.counts.lookup (key, sender) = positive (n + 1))
    (at' : K × SessionId) :
    (index.remove key sender).counts.lookup at' =
      if at' = (key, sender) then positive n else index.counts.lookup at' := by
  rw [← lookup_decrement]
  unfold remove
  rw [counted]
  simp only [positive_succ, Nat.add_sub_cancel]
  split <;> rfl

theorem add_counts (enabled : index.enabled = true)
    (counted : index.counts.lookup (key, sender) = positive n) (at' : K × SessionId) :
    (index.add key sender).counts.lookup at' =
      if at' = (key, sender) then positive (n + 1) else index.counts.lookup at' := by
  unfold add
  rw [counted]
  cases n with
  | zero | succ => simp [enabled, lookup_insert_if]

theorem remove_absent
    (absent : index.counts.lookup (key, sender) = none) : index.remove key sender = index := by
  unfold remove
  rw [absent]

end SenderIndex

namespace RecordBook

variable {b : RecordBook K R}

theorem partition_of_lookup
    (held : b.parts.lookup k = some p) : b.partition k = p.records := by
  simp [partition, held]

def leftover (p : Partition R) (kept : List R) : Option (Partition R) :=
  if kept = [] then none else some { p with records := kept }

theorem leftover_eq_some : leftover p kept = some q ↔ kept ≠ [] ∧ q = { p with records := kept } := by
  unfold leftover
  by_cases empty : kept = []
  · simp [empty]
  · simp [empty, eq_comm]

theorem leftover_records (p : Partition R) (kept : List R) : (leftover p kept).elim [] (·.records) = kept := by
  by_cases empty : kept = []
  · simp [leftover, empty]
  · simp [leftover, empty]

theorem mem_keys [Ord K] (k : K) : k ∈ b.keys ↔ (b.parts.lookup k).isSome := by
  unfold keys sortedKeys
  rw [(perm_insertionSort _ _).mem_iff]
  exact AList.lookup_isSome.symm

theorem mem_iter [Ord K] (r : R) : r ∈ b.iter ↔ ∃ k, r ∈ b.partition k := by
  unfold iter
  simp only [mem_flatMap, mem_keys]
  constructor
  · rintro ⟨k, -, mem⟩
    exact ⟨k, mem⟩
  · rintro ⟨k, mem⟩
    refine ⟨k, ?_, mem⟩
    cases held : b.parts.lookup k with
    | some p => rfl
    | none => simp [partition, held] at mem

variable [Dated R]

def countFrom (records : List R) (sender : SessionId) : Nat :=
  records.countP fun r => decide (Dated.sender r = sender)

theorem unlist_logs (index : SenderIndex K) (key : K) (records : List R) :
    SenderIndex.Logs (fun k s => k = key ∧ ∃ r ∈ records, Dated.sender r = s)
      index (unlist index key records) := by
  induction records generalizing index with
  | nil => exact .refl index
  | cons r rest ih =>
    refine .trans ((index.remove_logs key (Dated.sender r)).mono ?_) ((ih _).mono ?_)
    · rintro k s ⟨rfl, rfl⟩
      exact ⟨rfl, r, mem_cons_self, rfl⟩
    · rintro k s ⟨rfl, x, mem, rfl⟩
      exact ⟨rfl, x, mem_cons_of_mem _ mem, rfl⟩

theorem unlist_counts {records : List R} {others : SessionId → Nat}
    (counted : ∀ s, index.counts.lookup (key, s) = positive (countFrom records s + others s)) (k : K)
    (s : SessionId) :
    (unlist index key records).counts.lookup (k, s) =
      if k = key then positive (others s) else index.counts.lookup (k, s) := by
  induction records generalizing index with
  | nil =>
    by_cases same : k = key
    · subst same
      simpa [unlist, countFrom] using counted s
    · simp [unlist, same]
  | cons r rest ih =>
    have here : index.counts.lookup (key, Dated.sender r) =
        positive (countFrom rest (Dated.sender r) + others (Dated.sender r) + 1) := by
      rw [counted]
      simp only [countFrom, countP_cons_of_pos, decide_true]
      congr 1
      omega
    have after : ∀ s, (index.remove key (Dated.sender r)).counts.lookup (key, s) =
        positive (countFrom rest s + others s) := by
      intro s
      rw [SenderIndex.remove_counts here]
      by_cases same : s = Dated.sender r
      · simp [same]
      · have other : Dated.sender r ≠ s := fun h => same h.symm
        simp [same, counted, countFrom, other]
    have step := ih after
    simp only [unlist, foldl_cons] at step ⊢
    rw [step, SenderIndex.remove_counts here]
    by_cases same : k = key
    · simp [same]
    · simp [same]

theorem unlist_empty (empty : ∀ at', index.counts.lookup at' = none)
    (key : K) (records : List R) : unlist index key records = index := by
  induction records with
  | nil => rfl
  | cons r rest ih =>
    simp only [unlist, foldl_cons]
    rw [SenderIndex.remove_absent (empty _)]
    exact ih

/-- The size index, the expiry index, the total and the counts per sender are exact. -/
structure Indexed (b : RecordBook K R) : Prop where
  nonempty : ∀ k p, b.parts.lookup k = some p → p.records ≠ []
  sizes : ∀ n k, (n, k) ∈ b.bySize ↔ ∃ p, b.parts.lookup k = some p ∧ p.records.length = n
  ends : ∀ e k, (e, k) ∈ b.byEnd ↔ ∃ p, b.parts.lookup k = some p ∧ p.ends = e
  covers : ∀ k p r, b.parts.lookup k = some p → r ∈ p.records → periodEnd (Dated.createdAt r) ≤ p.ends
  total : b.total = sum (fun _ p => p.records.length) b.parts
  counts : ∀ k s, b.senders.counts.lookup (k, s) =
    if b.senders.enabled then positive (countFrom (b.partition k) s) else none

theorem new_indexed (max : Nat) (enabled : Bool) :
    Indexed (withMaxPartitions max enabled : RecordBook K R) where
  nonempty k p held := by simp [withMaxPartitions] at held
  sizes n k := by simp [withMaxPartitions]
  ends e k := by simp [withMaxPartitions]
  covers k p r held := by simp [withMaxPartitions] at held
  total := rfl
  counts k s := by cases enabled <;> rfl

def Sends (b : RecordBook K R) (k : K) (s : SessionId) : Prop :=
  ∃ r ∈ b.partition k, Dated.sender r = s

theorem Indexed.holdsSender (indexed : b.Indexed)
    (enabled : b.senders.enabled = true) (k : K) (s : SessionId) : b.holdsSender k s = true ↔ b.Sends k s := by
  unfold RecordBook.holdsSender Sends
  rw [indexed.counts, enabled, if_pos rfl, positive_isSome]
  simp [countFrom, countP_pos_iff]

/-- Nothing is in the second book that was not in the first, the indexes stay exact and the sender
log accounts for what went. -/
structure Trims (b b' : RecordBook K R) : Prop where
  indexed : b'.Indexed
  sublist : ∀ k, (b'.partition k).Sublist (b.partition k)
  total : b'.total ≤ b.total
  logs : SenderIndex.Logs b.Sends b.senders b'.senders
  maxPartitions : b'.maxPartitions = b.maxPartitions

variable {b' : RecordBook K R}

theorem Trims.sends (trims : Trims b b') (k : K) (s : SessionId)
    (sends : b'.Sends k s) : b.Sends k s := by
  obtain ⟨r, mem, sent⟩ := sends
  exact ⟨r, (trims.sublist k).subset mem, sent⟩

theorem Indexed.trims_self (indexed : b.Indexed) : Trims b b :=
  ⟨indexed, fun _ => .refl _, Nat.le_refl _, .refl _, rfl⟩

theorem Trims.trans {a b c : RecordBook K R} (first : Trims a b) (second : Trims b c) : Trims a c :=
  ⟨second.indexed, fun k => (second.sublist k).trans (first.sublist k),
    second.total.trans first.total, first.logs.trans (second.logs.mono first.sends),
    second.maxPartitions.trans first.maxPartitions⟩

theorem Indexed.partition_eq_nil (indexed : b.Indexed) (k : K) :
    b.partition k = [] ↔ b.parts.lookup k = none := by
  unfold partition
  cases held : b.parts.lookup k with
  | none => simp
  | some p => simpa using indexed.nonempty k p held

def lengths (b : RecordBook K R) (k : K) : Option Nat := (b.parts.lookup k).map (·.records.length)

def lasts (b : RecordBook K R) (k : K) : Option Int := (b.parts.lookup k).map (·.ends)

theorem Indexed.tracks (indexed : b.Indexed) :
    Tracks b.bySize b.lengths ∧ Tracks b.byEnd b.lasts :=
  ⟨fun n k => (indexed.sizes n k).trans map_eq_some_iff.symm,
    fun e k => (indexed.ends e k).trans map_eq_some_iff.symm⟩

/-- The second book is the first with partition `key` cut down by `f`. -/
def Cuts (f : List R → List R) (b b' : RecordBook K R) (key : K) : Prop :=
  Trims b b' ∧ ∀ k, b'.partition k = if k = key then f (b.partition key) else b.partition k

theorem Cuts.self {key : K} {f : List R → List R} (indexed : b.Indexed)
    (same : f (b.partition key) = b.partition key) : Cuts f b b key := by
  refine ⟨indexed.trims_self, fun k => ?_⟩
  split
  · next here => rw [here, same]
  · rfl

/-- Cutting one partition after the other, with a cut that a second pass leaves as it is. -/
theorem Cuts.foldl (cuts : ∀ b key, b.Indexed → Cuts f b (op b key) key)
    (again : ∀ l, f (f l) = f l) (indexed : b.Indexed) (keys : List K) :
    Trims b (keys.foldl op b) ∧
      ∀ k, (keys.foldl op b).partition k = if k ∈ keys then f (b.partition k) else b.partition k := by
  induction keys generalizing b with
  | nil => exact ⟨indexed.trims_self, fun k => by simp⟩
  | cons key rest ih =>
    obtain ⟨first, here⟩ := cuts b key indexed
    obtain ⟨more, contents⟩ := ih first.indexed
    refine ⟨first.trans more, fun k => ?_⟩
    rw [foldl_cons, contents, here]
    by_cases same : k = key
    · subst same
      simp [again]
    · simp [same]

/-- The second book is the first with `q` as its partition `key`. -/
structure Replaced (b b' : RecordBook K R) (key : K) (q : Option (Partition R)) : Prop where
  parts : ∀ k, b'.parts.lookup k = if k = key then q else b.parts.lookup k
  sizes : Tracks b'.bySize fun k => if k = key then q.map (·.records.length) else b.lengths k
  ends : Tracks b'.byEnd fun k => if k = key then q.map (·.ends) else b.lasts k
  total : b'.total = b.total + (q.elim [] (·.records)).length - (b.partition key).length
  maxPartitions : b'.maxPartitions = b.maxPartitions

section Replaced

variable {key : K} {p : Partition R} {q : Option (Partition R)} {kept removed : List R}

omit [Dated R] in
theorem Replaced.partition (replaced : Replaced b b' key q) (k : K) :
    b'.partition k = if k = key then q.elim [] (·.records) else b.partition k := by
  unfold RecordBook.partition
  rw [replaced.parts]
  by_cases same : k = key
  · cases q <;> simp [same]
  · simp [same]

theorem Replaced.indexed (indexed : b.Indexed) (replaced : Replaced b b' key q)
    (sound : ∀ p ∈ q, p.records ≠ [] ∧ ∀ r ∈ p.records, periodEnd (Dated.createdAt r) ≤ p.ends)
    (counts : ∀ k s, b'.senders.counts.lookup (k, s) =
      if b'.senders.enabled then positive (countFrom (b'.partition k) s) else none) : b'.Indexed := by
  refine ⟨fun k p held => ?_, fun n k => ?_, fun e k => ?_, fun k p r held => ?_, ?_, counts⟩
  · rw [replaced.parts] at held
    split at held
    · exact (sound p held).1
    · exact indexed.nonempty k p held
  · rw [replaced.sizes, replaced.parts, ← Option.map_eq_some_iff, apply_ite (Option.map _)]
    rfl
  · rw [replaced.ends, replaced.parts, ← Option.map_eq_some_iff, apply_ite (Option.map _)]
    rfl
  · rw [replaced.parts] at held
    split at held
    · exact (sound p held).2 r
    · exact indexed.covers k p r held
  · have moved := sum_update (f := fun _ p => p.records.length) replaced.parts
    have before : (b.parts.lookup key).elim 0 (fun p => p.records.length) = (b.partition key).length := by
      unfold RecordBook.partition
      cases b.parts.lookup key <;> rfl
    have after : q.elim 0 (fun p => p.records.length) = (q.elim [] (·.records)).length := by cases q <;> rfl
    have total := replaced.total
    rw [indexed.total] at total
    omega

/-- Partition `key` is cut from `p` down to `kept`, and the index forgets the senders of the
rest. -/
theorem Replaced.cuts (indexed : b.Indexed) (held : b.parts.lookup key = some p)
    (sublist : kept.Sublist p.records)
    (split : (kept ++ removed).Perm p.records) (replaced : Replaced b b' key (leftover p kept))
    (senders : b'.senders = unlist b.senders key removed) (cuts : f p.records = kept) : Cuts f b b' key := by
  have partition := replaced.partition
  have total := replaced.total
  rw [leftover_records] at partition
  rw [leftover_records, partition_of_lookup held] at total
  refine ⟨⟨replaced.indexed indexed ?_ ?_, fun k => ?_, ?_, ?_, replaced.maxPartitions⟩, ?_⟩
  · intro q some
    obtain ⟨filled, rfl⟩ := leftover_eq_some.mp some
    exact ⟨filled, fun r mem => indexed.covers key p r held (sublist.subset mem)⟩
  · intro k s
    rw [senders, partition, (unlist_logs b.senders key removed).enabled]
    cases on : b.senders.enabled with
    | false =>
      have none : ∀ at', b.senders.counts.lookup at' = none := fun at' => by
        rw [indexed.counts at'.1 at'.2, on]
        rfl
      rw [unlist_empty none]
      simpa using none (k, s)
    | true =>
      have here : ∀ s, b.senders.counts.lookup (key, s) =
          positive (countFrom removed s + countFrom kept s) := fun s => by
        rw [indexed.counts, on, partition_of_lookup held, countFrom, ← split.countP_eq,
          countP_append, Nat.add_comm]
        rfl
      rw [unlist_counts here]
      by_cases same : k = key
      · simp [same]
      · simp [same, indexed.counts, on]
  · rw [partition]
    split
    · next same => rw [same, partition_of_lookup held]; exact sublist
    · exact .refl _
  · have shorter := sublist.length_le
    omega
  · rw [senders]
    refine (unlist_logs _ _ _).mono ?_
    rintro k s ⟨rfl, r, mem, sent⟩
    refine ⟨r, ?_, sent⟩
    rw [partition_of_lookup held]
    exact split.subset (mem_append_right kept mem)
  · rw [partition_of_lookup held, cuts]
    exact partition

theorem Indexed.resized (indexed : b.Indexed) (held : b.parts.lookup key = some p)
    (shorter : kept.length ≤ p.records.length) (senders : SenderIndex K) :
    Replaced b ({ b with parts := b.parts.insert key { p with records := kept }, senders := senders }.resized key
      p.records.length kept.length) key (leftover p kept) := by
  obtain ⟨sizes, ends⟩ := indexed.tracks
  have length : b.lengths key = some p.records.length := by simp [lengths, held]
  have last : b.lasts key = some p.ends := by simp [lasts, held]
  have filled : p.records ≠ [] := indexed.nonempty key p held
  unfold RecordBook.resized
  rcases eq_or_ne kept [] with rfl | some
  · rw [if_neg (by simpa using filled)]
    simp only [length_nil, gt_iff_lt, Nat.lt_irrefl, if_false, AList.lookup_insert]
    refine ⟨fun k => ?_, sizes.erase length, ends.erase last, ?_, rfl⟩
    · simp only [lookup_erase_if, lookup_insert_if, leftover, if_true]
      split <;> rfl
    · simp [leftover, partition_of_lookup held]
  · have left : leftover p kept = .some { p with records := kept } := if_neg some
    have positive : kept.length > 0 := length_pos_of_ne_nil some
    rw [left]
    split
    · next same =>
      refine ⟨fun k => lookup_insert_if .., sizes.self (by rw [length, same]), ends.self last, ?_, rfl⟩
      simp [partition_of_lookup held, same]
    · refine ⟨fun k => lookup_insert_if .., sizes.replace length, ends.self last, ?_, rfl⟩
      simp only [partition_of_lookup held, elim_some]
      omega

omit [Dated R] in
theorem resized_senders (b : RecordBook K R) (n m : Nat) : (b.resized key n m).senders = b.senders := by
  fun_cases resized <;> rfl

theorem Indexed.popFront_replaced (indexed : b.Indexed) (held : b.parts.lookup key = some p)
    (listed : p.records = r :: rest) : Replaced b (b.popFront key) key (leftover p rest) := by
  have shorter : rest.length ≤ p.records.length := by simp [listed]
  have replaced := indexed.resized held shorter (b.senders.remove key (Dated.sender r))
  simpa only [popFront, held, listed, length_cons, Nat.add_sub_cancel] using replaced

theorem Indexed.popFront (indexed : b.Indexed) (key : K) :
    Trims b (b.popFront key) ∧ ∀ k, (b.popFront key).partition k =
      if k = key then (b.partition key).tail else b.partition k := by
  cases held : b.parts.lookup key with
  | none =>
    simp only [RecordBook.popFront, held]
    exact Cuts.self indexed (by rw [(indexed.partition_eq_nil key).mpr held]; rfl)
  | some p =>
    obtain ⟨r, rest, listed⟩ := exists_cons_of_ne_nil (indexed.nonempty key p held)
    have split : (rest ++ [r]).Perm p.records := listed ▸ perm_append_comm
    refine (indexed.popFront_replaced held listed).cuts indexed held ?_ split ?_ ?_
    · simp [listed]
    · simp only [RecordBook.popFront, held, listed]
      exact resized_senders ..
    · rw [listed]
      rfl

theorem Indexed.dropping (indexed : b.Indexed) (held : b.parts.lookup key = some p)
    (same : l.filter (· ≠ (p.ends, key)) = b.byEnd.filter (· ≠ (p.ends, key))) :
    Cuts (fun _ => []) b ({ b with byEnd := l }.dropPartition key) key := by
  obtain ⟨sizes, ends⟩ := indexed.tracks
  simp only [dropPartition, held, forgetPartition, same]
  refine Replaced.cuts indexed held (nil_sublist _) (.refl p.records)
    ⟨fun k => lookup_erase_if .., sizes.erase ?_, ends.erase ?_, ?_, rfl⟩ rfl rfl
  · simp [lengths, held]
  · simp [lasts, held]
  · simp [leftover, partition_of_lookup held]

theorem Indexed.dropPartition (indexed : b.Indexed) (key : K) :
    Trims b (b.dropPartition key) ∧ ∀ k, (b.dropPartition key).partition k =
      if k = key then [] else b.partition k := by
  cases held : b.parts.lookup key with
  | none =>
    simp only [RecordBook.dropPartition, held]
    exact Cuts.self (f := fun _ => []) indexed ((indexed.partition_eq_nil key).mpr held).symm
  | some p => exact indexed.dropping held rfl

end Replaced

theorem Indexed.popExpired (indexed : b.Indexed) (now : Int) (key : K) (fuel : Nat) :
    Trims b (popExpired now key fuel b) ∧
      ∀ k, k ≠ key → (popExpired now key fuel b).partition k = b.partition k := by
  induction fuel generalizing b with
  | zero => exact ⟨indexed.trims_self, fun _ _ => rfl⟩
  | succ fuel ih =>
    simp only [popExpired]
    cases (b.partition key).head? with
    | none => exact ⟨indexed.trims_self, fun _ _ => rfl⟩
    | some front =>
      dsimp only
      split
      · obtain ⟨trims, popped⟩ := indexed.popFront key
        obtain ⟨more, frame⟩ := ih trims.indexed
        refine ⟨trims.trans more, fun k other => ?_⟩
        rw [frame k other, popped k, if_neg other]
      · exact ⟨indexed.trims_self, fun _ _ => rfl⟩

/-- Partition `k` is as it was, or gone with the reply period of all its records ended. -/
def EndedOnly (now : Int) (b b' : RecordBook K R) (k : K) : Prop :=
  b'.partition k = b.partition k ∨ b'.partition k = [] ∧ ∀ r ∈ b.partition k,
    periodEnd (Dated.createdAt r) ≤ now

section Ordered

variable [Ord K]

/-- A sweep drops whole partitions, each of them past the reply period of all its records. -/
theorem Indexed.sweepFrom (indexed : b.Indexed) (now : Int) (fuel : Nat) :
    Trims b (sweepFrom now fuel b) ∧ ∀ k, EndedOnly now b (sweepFrom now fuel b) k := by
  induction fuel generalizing b with
  | zero => exact ⟨indexed.trims_self, fun k => .inl rfl⟩
  | succ fuel ih =>
    simp only [sweepFrom]
    cases first : least pairBefore b.byEnd with
    | none => exact ⟨indexed.trims_self, fun k => .inl rfl⟩
    | some entry =>
      obtain ⟨ends, key⟩ := entry
      dsimp only
      split
      · next due =>
        obtain ⟨p, held, rfl⟩ := (indexed.ends ends key).mp (least_mem first)
        obtain ⟨trims, dropped⟩ := indexed.dropping (l := b.byEnd.filter (· ≠ (p.ends, key))) held (by simp)
        obtain ⟨more, contents⟩ := ih trims.indexed
        refine ⟨trims.trans more, fun k => ?_⟩
        have here := dropped k
        by_cases same : k = key
        · subst same
          have left := more.sublist k
          rw [here, if_pos rfl] at left
          refine .inr ⟨eq_nil_of_sublist_nil left, fun r mem => ?_⟩
          rw [partition_of_lookup held] at mem
          exact (indexed.covers k p r held mem).trans due
        · rw [if_neg same] at here
          unfold EndedOnly
          rw [← here]
          exact contents k
      · exact ⟨indexed.trims_self, fun k => .inl rfl⟩

theorem Indexed.sweep (indexed : b.Indexed) (now : Int) :
    Trims b (b.sweep now) ∧ ∀ k, EndedOnly now b (b.sweep now) k :=
  indexed.sweepFrom now _

end Ordered

structure Bounded (b : RecordBook K R) : Prop where
  records : ∀ k, (b.partition k).length ≤ maxRecordsPerPartition
  partitions : size b.parts ≤ b.maxPartitions
  total : b.total ≤ maxRecordsTotal

theorem Trims.present (indexed : b.Indexed) (trims : Trims b b') (k : K)
    (held : (b'.parts.lookup k).isSome) : (b.parts.lookup k).isSome := by
  have filled : b'.partition k ≠ [] := fun empty => by
    rw [(trims.indexed.partition_eq_nil k).mp empty] at held
    cases held
  cases present : b.parts.lookup k with
  | some p => rfl
  | none =>
    have below := trims.sublist k
    rw [(indexed.partition_eq_nil k).mpr present] at below
    exact absurd (eq_nil_of_sublist_nil below) filled

theorem Trims.bounded (indexed : b.Indexed) (bounded : b.Bounded)
    (trims : Trims b b') : b'.Bounded where
  records k := (trims.sublist k).length_le.trans (bounded.records k)
  partitions := by
    rw [trims.maxPartitions]
    exact (size_le_of_keys (trims.present indexed)).trans bounded.partitions
  total := trims.total.trans bounded.total

structure Grown (b b' : RecordBook K R) (key : K) (r : R) : Prop where
  indexed : b'.Indexed
  partition : ∀ k, b'.partition k = if k = key then b.partition key ++ [r] else b.partition k
  total : b'.total = b.total + 1
  logs : SenderIndex.Logs (fun k s => k = key ∧ s = Dated.sender r) b.senders b'.senders
  maxPartitions : b'.maxPartitions = b.maxPartitions

section Append

variable {key : K} {r : R}

theorem Indexed.append_replaced (indexed : b.Indexed) (key : K) (r : R) : Replaced b (b.append key r) key
    (some ⟨b.partition key ++ [r], max (b.target key r).ends (periodEnd (Dated.createdAt r))⟩) := by
  obtain ⟨sizes, ends⟩ := indexed.tracks
  cases held : b.parts.lookup key with
  | none =>
    have empty := (indexed.partition_eq_nil key).mpr held
    simp only [append, target, held, empty, getD_none, length_nil, gt_iff_lt, Nat.lt_irrefl, if_false]
    refine ⟨fun k => lookup_insert_if .., sizes.insert ?_, ends.insert ?_, ?_, rfl⟩
    · simp [lengths, held]
    · simp [lasts, held]
    · simp [empty]
  | some p =>
    have filled : p.records.length > 0 := length_pos_of_ne_nil (indexed.nonempty key p held)
    have last : b.lasts key = some p.ends := by simp [lasts, held]
    simp only [append, target, held, partition_of_lookup held, getD_some, if_pos filled]
    refine ⟨fun k => lookup_insert_if .., ?_, ?_, ?_, rfl⟩
    · simpa using sizes.replace (by simp [lengths, held])
    · split
      · exact ends.replace last
      · next unmoved => exact ends.self (by rw [last, not_not.mp unmoved])
    · simp [partition_of_lookup held]
      omega

theorem Indexed.append (indexed : b.Indexed) (key : K) (r : R) : Grown b (b.append key r) key r := by
  have replaced := indexed.append_replaced key r
  refine ⟨replaced.indexed indexed ?_ ?_, replaced.partition, rfl, b.senders.add_logs key _, rfl⟩
  · rintro _ ⟨⟩
    refine ⟨by simp, fun x mem => ?_⟩
    rcases mem_append.mp mem with mem | mem
    · cases held : b.parts.lookup key with
      | none => simp [partition, held] at mem
      | some p =>
        rw [partition_of_lookup held] at mem
        simp only [target, held, getD_some]
        exact (indexed.covers key p x held mem).trans (le_max_left _ _)
    · cases mem_singleton.mp mem
      exact le_max_right _ _
  · intro k s
    rw [replaced.partition]
    change (b.senders.add key (Dated.sender r)).counts.lookup (k, s) =
      if (b.senders.add key (Dated.sender r)).enabled then _ else _
    rw [(b.senders.add_logs key (Dated.sender r)).enabled]
    cases on : b.senders.enabled with
    | false =>
      have unchanged : b.senders.add key (Dated.sender r) = b.senders := by
        simp [SenderIndex.add, on]
      rw [unchanged, indexed.counts, on]
      rfl
    | true =>
      have here := indexed.counts key (Dated.sender r)
      rw [on] at here
      rw [SenderIndex.add_counts on here, indexed.counts, on]
      by_cases same : k = key
      · subst same
        by_cases sent : s = Dated.sender r
        · simp [sent, countFrom, countP_append]
        · have other : Dated.sender r ≠ s := fun h => sent h.symm
          simp [sent, other, countFrom, countP_append]
      · simp [same]

end Append

section Push

variable {key : K} {r : R} {now : Timestamp}

theorem Indexed.popFront_total (indexed : b.Indexed) (filled : b.partition key ≠ []) :
    (b.popFront key).total = b.total - 1 := by
  cases held : b.parts.lookup key with
  | none => exact absurd ((indexed.partition_eq_nil key).mpr held) filled
  | some p =>
    rw [partition_of_lookup held] at filled
    obtain ⟨r, rest, listed⟩ := exists_cons_of_ne_nil filled
    have total := (indexed.popFront_replaced held listed).total
    rw [leftover_records, partition_of_lookup held, listed, length_cons] at total
    omega

theorem Indexed.popAtCap (indexed : b.Indexed) (bounded : b.Bounded) (key : K) :
    Trims b (b.popAtCap key) ∧ ((b.popAtCap key).partition key).length < maxRecordsPerPartition := by
  have bound := bounded.records key
  unfold RecordBook.popAtCap
  split
  · obtain ⟨popped, contents⟩ := indexed.popFront key
    refine ⟨popped, ?_⟩
    rw [contents key, if_pos rfl, length_tail]
    unfold maxRecordsPerPartition at bound ⊢
    omega
  · next room =>
    refine ⟨indexed.trims_self, ?_⟩
    cases held : b.parts.lookup key with
    | none =>
      rw [(indexed.partition_eq_nil key).mpr held]
      exact Nat.succ_pos _
    | some p =>
      rw [partition_of_lookup held]
      simpa [held] using room

variable [Ord K]

theorem Indexed.largest (indexed : b.Indexed) (filled : 0 < b.total) :
    ∃ k, b.largest = some k ∧ b.partition k ≠ [] := by
  unfold RecordBook.largest
  cases found : least (fun x y => pairBefore y x) b.bySize with
  | none =>
    -- with no partition listed the table is empty, and so is the total
    have unlisted := least_eq_none.mp found
    have none : ∀ k, b.parts.lookup k = none := by
      intro k
      cases held : b.parts.lookup k with
      | none => rfl
      | some p =>
        have listed := (indexed.sizes p.records.length k).mpr ⟨p, held, rfl⟩
        rw [unlisted] at listed
        cases listed
    have zero : sum (fun _ p => p.records.length) b.parts = 0 := sum_congr_lookup (u := ∅) none
    rw [indexed.total, zero] at filled
    cases filled
  | some entry =>
    obtain ⟨n, k⟩ := entry
    obtain ⟨p, held, -⟩ := (indexed.sizes n k).mp (least_mem found)
    refine ⟨k, rfl, ?_⟩
    rw [partition_of_lookup held]
    exact indexed.nonempty k p held

theorem Indexed.popLargest (indexed : b.Indexed) (bounded : b.Bounded) :
    Trims b b.popLargest ∧ b.popLargest.total < maxRecordsTotal := by
  have total := bounded.total
  unfold RecordBook.popLargest
  split
  · next full =>
    have positive : 0 < b.total := lt_of_lt_of_le (by decide) full
    obtain ⟨k, found, filled⟩ := indexed.largest positive
    rw [found]
    refine ⟨(indexed.popFront k).1, ?_⟩
    rw [indexed.popFront_total filled]
    omega
  · next below => exact ⟨indexed.trims_self, Nat.lt_of_not_le below⟩

theorem Indexed.makeRoom (indexed : b.Indexed) (bounded : b.Bounded) (key : K) (now : Int) :
    Trims b (b.makeRoom key now) ∧ ((b.makeRoom key now).partition key).length <
      maxRecordsPerPartition ∧ (b.makeRoom key now).total < maxRecordsTotal := by
  obtain ⟨expired, -⟩ := indexed.popExpired now key (b.partition key).length
  obtain ⟨capped, room⟩ := expired.indexed.popAtCap (expired.bounded indexed bounded) key
  have trims := expired.trans capped
  obtain ⟨largest, below⟩ := capped.indexed.popLargest (trims.bounded indexed bounded)
  exact ⟨trims.trans largest, (largest.sublist key).length_le.trans_lt room, below⟩

/-- What a push leaves: the records that were there, fewer perhaps, and the one it adds. -/
structure Pushed (b b' : RecordBook K R) (key : K) (r : R) : Prop where
  indexed : b'.Indexed
  bounded : b'.Bounded
  mem : ∀ k x, x ∈ b'.partition k → x ∈ b.partition k ∨ (k = key ∧ x = r)
  logs : SenderIndex.Logs (fun k s => b.Sends k s ∨ (k = key ∧ s = Dated.sender r)) b.senders b'.senders

theorem Indexed.push (indexed : b.Indexed) (bounded : b.Bounded) (key : K) (r : R) (now : Timestamp) :
    Pushed b (b.push key r now).2 key r ∧
      ((b.push key r now).1 = true → r ∈ (b.push key r now).2.partition key) := by
  obtain ⟨swept, -⟩ := indexed.sweep now.unixNanos
  have sweptBounded := swept.bounded indexed bounded
  unfold RecordBook.push
  dsimp only
  split
  · exact ⟨⟨swept.indexed, sweptBounded, fun k x mem => .inl ((swept.sublist k).subset mem),
      swept.logs.mono fun _ _ => .inl⟩,
      fun added => by cases added⟩
  · next fits =>
    obtain ⟨made, room, below⟩ := swept.indexed.makeRoom sweptBounded key now.unixNanos
    have grown := made.indexed.append key r
    have madeBounded := made.bounded swept.indexed sweptBounded
    have trims := swept.trans made
    refine ⟨⟨grown.indexed, ⟨?_, ?_, ?_⟩, ?_,
      (trims.logs.mono fun _ _ => .inl).trans (grown.logs.mono fun _ _ => .inr)⟩, fun _ => ?_⟩
    · intro k
      rw [grown.partition]
      split
      · rw [length_append, length_singleton]
        omega
      · exact madeBounded.records k
    · rw [grown.maxPartitions]
      cases held : ((b.sweep now.unixNanos).makeRoom key now.unixNanos).parts.lookup key with
      | some p =>
        refine le_trans (size_le_of_keys fun k found => ?_) madeBounded.partitions
        rw [(made.indexed.append_replaced _ _).parts] at found
        split at found
        · next same => rw [same, held]; rfl
        · exact found
      | none =>
        have one : size (((b.sweep now.unixNanos).makeRoom key now.unixNanos).append key r).parts =
            size ((b.sweep now.unixNanos).makeRoom key now.unixNanos).parts + 1 :=
          size_insert_of_lookup_none _ held
        rw [one]
        cases before : (b.sweep now.unixNanos).parts.lookup key with
        | some p =>
          have fewer := size_lt_of_keys (made.present swept.indexed) held (by simp [before])
          have cap := sweptBounded.partitions
          rw [made.maxPartitions]
          omega
        | none =>
          have fewer := size_le_of_keys (made.present swept.indexed)
          simp only [before, isNone_none, Bool.true_and, decide_eq_true_eq] at fits
          rw [made.maxPartitions]
          omega
    · rw [grown.total]
      omega
    · intro k x mem
      rw [grown.partition] at mem
      split at mem
      · next same =>
        subst same
        rcases mem_append.mp mem with mem | mem
        · exact .inl ((trims.sublist k).subset mem)
        · exact .inr ⟨rfl, mem_singleton.mp mem⟩
      · exact .inl ((trims.sublist k).subset mem)
    · rw [grown.partition]
      simp

end Push

section Removal

theorem Indexed.retainIn (indexed : b.Indexed) (keep : R → Bool) (key : K) :
    Cuts (·.filter keep) b (retainIn keep b key) key := by
  unfold RecordBook.retainIn
  cases held : b.parts.lookup key with
  | none => exact .self indexed (by rw [(indexed.partition_eq_nil key).mpr held]; rfl)
  | some p =>
    have kept : (p.records.filter keep).Sublist p.records := filter_sublist
    exact (indexed.resized held kept.length_le _).cuts indexed held kept (filter_append_perm _ _)
      (resized_senders ..) rfl

theorem Indexed.removeFirst (indexed : b.Indexed) (key : K) (matching : R → Bool) :
    Trims b (b.removeFirst key matching).2 ∧ ∀ k, (b.removeFirst key matching).2.partition k =
      if k = key then (b.partition key).eraseP matching else b.partition k := by
  unfold RecordBook.removeFirst
  cases held : b.parts.lookup key with
  | none => exact Cuts.self indexed (by rw [(indexed.partition_eq_nil key).mpr held]; rfl)
  | some p =>
    dsimp only
    cases found : p.records.find? matching with
    | none =>
      refine Cuts.self indexed ?_
      rw [partition_of_lookup held]
      exact eraseP_of_forall_not (find?_eq_none.mp found)
    | some r =>
      have kept : (p.records.eraseP matching).Sublist p.records := eraseP_sublist
      have replaced := indexed.resized held kept.length_le (b.senders.remove key (Dated.sender r))
      rw [length_eraseP_of_mem (mem_of_find?_eq_some found) (find?_some found)] at replaced
      obtain ⟨matched, before, after, listed, unmatched⟩ := find?_eq_some_iff_append.mp found
      have rest : p.records.eraseP matching = before ++ after := by
        rw [listed, eraseP_append_right _ (by simpa using unmatched), eraseP_cons_of_pos matched]
      have split : (p.records.eraseP matching ++ [r]).Perm p.records := by
        rw [rest, listed, append_assoc]
        exact perm_append_comm.append_left before
      exact replaced.cuts indexed held kept split (resized_senders ..) rfl

variable [Ord K]

theorem Indexed.retain (indexed : b.Indexed) (keep : R → Bool) :
    Trims b (b.retain keep) ∧ ∀ k, (b.retain keep).partition k = (b.partition k).filter keep := by
  obtain ⟨trims, contents⟩ := Cuts.foldl (fun b key indexed => Indexed.retainIn indexed keep key)
    (by simp) indexed b.keys
  refine ⟨trims, fun k => (contents k).trans ?_⟩
  split
  · rfl
  · next absent =>
    rw [mem_keys, Bool.not_eq_true, isSome_eq_false_iff, isNone_iff_eq_none] at absent
    rw [(indexed.partition_eq_nil k).mpr absent]
    rfl

theorem Indexed.dropPartitions (indexed : b.Indexed) (matching : K → Bool) :
    Trims b (b.dropPartitions matching) ∧ ∀ k, (b.dropPartitions matching).partition k =
      if matching k then [] else b.partition k := by
  obtain ⟨trims, contents⟩ := Cuts.foldl (f := fun _ => [])
    (fun b key indexed => Indexed.dropPartition indexed key) (fun _ => rfl) indexed (b.keys.filter matching)
  refine ⟨trims, fun k => (contents k).trans ?_⟩
  simp only [mem_filter, mem_keys]
  by_cases matched : matching k = true
  · simp only [matched, and_true, if_true, ite_eq_left_iff, Bool.not_eq_true,
      isSome_eq_false_iff, isNone_iff_eq_none]
    exact (indexed.partition_eq_nil k).mpr
  · simp [matched]

end Removal

end RecordBook

end Oac
