import Mathlib.Algebra.GroupWithZero.Nat
import Mathlib.Algebra.Order.BigOperators.Group.List
import Mathlib.Algebra.Order.Group.Nat
import Mathlib.Data.List.AList
import Mathlib.Data.List.Dedup

/-! Finite tables with one value per key. A table is Mathlib's association list, whose keys are
distinct by construction; only the operations Mathlib lacks are added here. -/

abbrev Table (K V : Type) := AList (fun _ : K => V)

namespace Table

open AList
open List hiding keys lookup sum

variable {K V : Type}

def size (t : Table K V) : Nat := t.entries.length

@[simp] theorem size_empty : size (∅ : Table K V) = 0 := rfl

theorem size_eq_keys_length (t : Table K V) : size t = t.keys.length := by
  simp [size, keys, List.keys]

def sum (f : K → V → Nat) (t : Table K V) : Nat := (t.entries.map fun e => f e.1 e.2).sum

@[simp] theorem sum_empty (f : K → V → Nat) : sum f (∅ : Table K V) = 0 := rfl

theorem size_eq_sum (t : Table K V) : size t = sum (fun _ _ => 1) t := by
  simp [size, sum]

variable [DecidableEq K]

theorem lookup_insert_if (k k' : K) (v : V) (t : Table K V) :
    lookup k' (t.insert k v) = if k' = k then some v else t.lookup k' := by
  by_cases same : k' = k
  · subst same
    simp
  · simp [same, lookup_insert_ne same]

theorem lookup_erase_if (k k' : K) (t : Table K V) :
    lookup k' (t.erase k) = if k' = k then none else t.lookup k' := by
  by_cases same : k' = k
  · subst same
    simp
  · simp [same, lookup_erase_ne same]

/-- A count, as a table of counts without zeros holds it. -/
def positive (n : Nat) : Option Nat := if n = 0 then none else some n

@[simp] theorem positive_zero : positive 0 = none := rfl

@[simp] theorem positive_succ (n : Nat) : positive (n + 1) = some (n + 1) := rfl

theorem positive_isSome (n : Nat) : (positive n).isSome = decide (0 < n) := by
  cases n with
  | zero => rfl
  | succ n => simp

/-- One less, and no entry for zero. -/
theorem lookup_decrement (k k' : K) (n : Nat) (t : Table K Nat) :
    lookup k' (if n = 0 then t.erase k else t.insert k n) = if k' = k then positive n else t.lookup k' := by
  cases n with
  | zero => exact lookup_erase_if k k' t
  | succ n => exact lookup_insert_if k k' (n + 1) t

variable {t : Table K V}

theorem erase_of_lookup_none (absent : t.lookup k = none) : t.erase k = t := by
  have fresh : k ∉ t.entries.keys := lookup_eq_none.mp absent
  exact ext (kerase_of_notMem_keys fresh)

theorem erase_insert_of_lookup_none (v : V) (absent : t.lookup k = none) :
    erase k (t.insert k v) = t := by
  have cleared : erase k (t.insert k v) = t.erase k := by
    refine ext ?_
    exact kerase_cons_eq rfl
  rw [cleared, erase_of_lookup_none absent]

theorem size_insert_of_lookup_none {k : K} (v : V) (absent : t.lookup k = none) :
    size (t.insert k v) = size t + 1 := by
  have notMem : k ∉ t.keys := lookup_eq_none.mp absent
  rw [size_eq_keys_length, size_eq_keys_length, keys_insert, erase_of_not_mem notMem]
  simp

theorem size_erase_of_lookup_some {k : K} (present : t.lookup k = some v) :
    size (t.erase k) + 1 = size t := by
  have mem : k ∈ t.keys := lookup_isSome.mp (by simp [present])
  have positive : 0 < t.keys.length := length_pos_of_mem mem
  rw [size_eq_keys_length, size_eq_keys_length, keys_erase, length_erase_of_mem mem]
  omega

def modify (k : K) (f : V → V) (t : Table K V) : Table K V :=
  match t.lookup k with
  | some v => t.insert k (f v)
  | none => t

theorem lookup_modify_if (k k' : K) (f : V → V) (t : Table K V) :
    lookup k' (modify k f t) = if k' = k then (t.lookup k).map f else t.lookup k' := by
  unfold modify
  cases held : t.lookup k with
  | none =>
    by_cases same : k' = k
    · subst same
      simp [held]
    · simp [same]
  | some v =>
    rw [lookup_insert_if]
    rfl

theorem sum_le_of_keys {u : Table K W} {f : K → Nat}
    (within : ∀ k, (t.lookup k).isSome → (u.lookup k).isSome) :
    sum (fun k _ => f k) t ≤ sum (fun k _ => f k) u := by
  have subset : t.keys ⊆ u.keys := fun k mem => lookup_isSome.mp (within k (lookup_isSome.mpr mem))
  obtain ⟨part, perm, sub⟩ := subperm_of_subset t.keys_nodup subset
  have listed := (sub.map f).sum_le_sum fun _ _ => Nat.zero_le _
  rw [(perm.map f).sum_nat] at listed
  simpa [sum, keys, List.keys, Function.comp_def] using listed

theorem size_le_of_keys {u : Table K W} (within : ∀ k, (t.lookup k).isSome → (u.lookup k).isSome) :
    size t ≤ size u := by
  rw [size_eq_sum, size_eq_sum]
  exact sum_le_of_keys within

theorem size_erase_le (k : K) (t : Table K V) : size (t.erase k) ≤ size t :=
  size_le_of_keys fun k' present => by
    rw [lookup_erase_if] at present
    split at present
    · cases present
    · exact present

theorem size_le_succ_of_keys {u : Table K W}
    (within : ∀ k', (t.lookup k').isSome → k' = k ∨ (u.lookup k').isSome) : size t ≤ size u + 1 := by
  rw [size_eq_keys_length, size_eq_keys_length]
  have subset : t.keys ⊆ k :: u.keys := by
    intro k' mem
    rcases within k' (lookup_isSome.mpr mem) with same | present
    · exact same ▸ mem_cons_self
    · exact mem_cons_of_mem _ (lookup_isSome.mp present)
  exact (subperm_of_subset t.keys_nodup subset).length_le

theorem size_lt_of_keys {u : Table K W} (within : ∀ k, (t.lookup k).isSome → (u.lookup k).isSome)
    (absent : t.lookup k = none) (present : (u.lookup k).isSome) : size t < size u := by
  rw [size_eq_keys_length, size_eq_keys_length]
  have fresh : k ∉ t.keys := lookup_eq_none.mp absent
  have nodup : (k :: t.keys).Nodup := nodup_cons.mpr ⟨fresh, t.keys_nodup⟩
  have subset : (k :: t.keys) ⊆ u.keys := by
    intro k' mem
    rcases mem_cons.mp mem with rfl | mem
    · exact lookup_isSome.mp present
    · exact lookup_isSome.mp (within k' (lookup_isSome.mpr mem))
  have bound := (subperm_of_subset nodup subset).length_le
  simp only [length_cons] at bound
  omega

variable {f : K → V → Nat}

theorem sum_congr_lookup
    (same : ∀ k, t.lookup k = u.lookup k) : sum f t = sum f u := by
  have perm : t.entries.Perm u.entries :=
    lookup_ext t.nodupKeys u.nodupKeys fun k v => by
      have here := same k
      simp only [lookup] at here
      rw [here]
  exact (perm.map _).sum_nat

theorem sum_insert (f : K → V → Nat) (k : K) (v : V) (t : Table K V) :
    sum f (t.insert k v) = f k v + sum f (t.erase k) := rfl

theorem sum_erase (held : t.lookup k = some v) :
    sum f t = f k v + sum f (t.erase k) := by
  rw [← sum_insert]
  refine sum_congr_lookup fun k' => ?_
  rw [lookup_insert_if]
  split
  · next same => rw [same, held]
  · rfl

/-- Replacing the value of one key, absent before or after included, moves the sum by the
difference of the two measures. -/
theorem sum_update
    (changed : ∀ k', u.lookup k' = if k' = k then w else t.lookup k') :
    sum f u + (t.lookup k).elim 0 (f k) = sum f t + w.elim 0 (f k) := by
  have erased : sum f (u.erase k) = sum f (t.erase k) := by
    refine sum_congr_lookup fun k' => ?_
    rw [lookup_erase_if, lookup_erase_if]
    by_cases same : k' = k
    · simp [same]
    · simp [same, changed k']
  have here : u.lookup k = w := by simpa using changed k
  have total : ∀ x : Table K V, sum f x = (x.lookup k).elim 0 (f k) + sum f (x.erase k) := by
    intro x
    cases held : x.lookup k with
    | none =>
      have kept : sum f (x.erase k) = sum f x := by
        refine sum_congr_lookup fun k' => ?_
        rw [lookup_erase_if]
        split
        · next same => rw [same, held]
        · rfl
      simp [kept]
    | some v => simpa using sum_erase held
  rw [total u, total t, here]
  omega

theorem sum_le_of_lookup
    (within : ∀ k v, t.lookup k = some v → u.lookup k = some v) : sum f t ≤ sum f u := by
  have subset : t.entries ⊆ u.entries := fun e mem =>
    mem_lookup_iff.mp (within e.1 e.2 (mem_lookup_iff.mpr mem))
  obtain ⟨part, perm, sub⟩ := subperm_of_subset t.nodupKeys.nodup subset
  unfold sum
  rw [← (perm.map _).sum_nat]
  exact (sub.map _).sum_le_sum (fun _ _ => Nat.zero_le _)

theorem sum_add_le_of_lookup
    (within : ∀ k v, t.lookup k = some v → u.lookup k = some v) (absent : t.lookup k = none)
    (present : u.lookup k = some v) : sum f t + f k v ≤ sum f u := by
  have rest : sum f t ≤ sum f (u.erase k) := by
    refine sum_le_of_lookup fun k' v' held => ?_
    rw [lookup_erase_if]
    split
    · next same =>
      rw [same, absent] at held
      cases held
    · exact within k' v' held
  rw [sum_erase present]
  omega

theorem sum_modify (t : Table K V) (same : ∀ v, f k (g v) = f k v) : sum f (modify k g t) = sum f t := by
  have changed := sum_update (f := f) fun k' => lookup_modify_if k k' g t
  cases held : t.lookup k with
  | none =>
    rw [held] at changed
    exact changed
  | some v =>
    rw [held] at changed
    simp only [Option.map_some, Option.elim_some, same] at changed
    omega

section Indicator

variable {p : K → V → Prop} [∀ k v, Decidable (p k v)]

omit [DecidableEq K] in
theorem sum_indicator : sum (fun k v => if p k v then 1 else 0) t =
    (t.entries.filter fun e => decide (p e.1 e.2)).length := by
  unfold sum
  rw [← countP_eq_length_filter]
  induction t.entries with
  | nil => rfl
  | cons e rest ih =>
    rw [map_cons, sum_cons, ih, countP_cons]
    by_cases holds : p e.1 e.2
    · simp only [holds, if_true, decide_true]
      omega
    · simp [holds]

section Classes

variable {I : Type} [DecidableEq I] (of : K → I) {classes : List I}

omit [DecidableEq K] in
/-- The entries of several classes, counted class by class. -/
theorem sum_classes (t : Table K V) (nodup : classes.Nodup) :
    (classes.map fun i => sum (fun k _ => if of k = i then 1 else 0) t).sum =
      sum (fun k _ => if of k ∈ classes then 1 else 0) t := by
  induction classes with
  | nil => simp [sum]
  | cons i rest ih =>
    obtain ⟨new, nodup⟩ := nodup_cons.mp nodup
    rw [map_cons, sum_cons, ih nodup, sum, sum, ← sum_map_add]
    refine congrArg List.sum (map_congr_left fun e _ => ?_)
    by_cases here : of e.1 = i
    · simp [here, new]
    · simp [here]

omit [DecidableEq K] in
theorem sum_classes_le (t : Table K V) (nodup : classes.Nodup) :
    (classes.map fun i => sum (fun k _ => if of k = i then 1 else 0) t).sum ≤ size t := by
  rw [sum_classes of t nodup, sum_indicator]
  exact length_filter_le _ _

omit [DecidableEq K] in
theorem sum_classes_eq (t : Table K V) (nodup : classes.Nodup) (listed : ∀ e ∈ t.entries, of e.1 ∈ classes) :
    (classes.map fun i => sum (fun k _ => if of k = i then 1 else 0) t).sum = size t := by
  rw [sum_classes of t nodup, sum_indicator, filter_eq_self.mpr (by simpa using listed), size]

omit [DecidableEq K] in
/-- Keys that fall into the classes of a list, none of which has more than `most` of them. -/
theorem size_le_mul_of_classes (listed : ∀ e ∈ t.entries, of e.1 ∈ classes)
    (few : ∀ i, sum (fun k _ => if of k = i then 1 else 0) t ≤ most) : size t ≤ classes.length * most := by
  rw [← sum_classes_eq of t (nodup_dedup classes) (by simpa using listed)]
  refine (sum_le_card_nsmul _ most (by simpa using fun i _ => few i)).trans ?_
  rw [length_map]
  exact Nat.mul_le_mul_right _ (dedup_sublist _).length_le

end Classes

/-- Entries that satisfy `p` are no more than the elements of a list that has all their keys. -/
theorem sum_indicator_le {l : List K} (listed : ∀ k v, t.lookup k = some v → p k v → k ∈ l) :
    sum (fun k v => if p k v then 1 else 0) t ≤ l.length := by
  have nodup : ((t.entries.filter fun e => decide (p e.1 e.2)).map Sigma.fst).Nodup :=
    t.keys_nodup.sublist (filter_sublist.map Sigma.fst)
  rw [sum_indicator, ← length_map Sigma.fst]
  refine (subperm_of_subset nodup fun k mem => ?_).length_le
  obtain ⟨e, filtered, rfl⟩ := mem_map.mp mem
  obtain ⟨mem, holds⟩ := mem_filter.mp filtered
  exact listed e.1 e.2 (mem_lookup_iff.mpr mem) (by simpa using holds)

/-- A table that indexes the entries that satisfy `p` has as many entries. -/
theorem size_eq_sum_of_index {f : V → I} [DecidableEq I]
    (index : ∀ i k, u.lookup i = some k ↔ ∃ v, t.lookup k = some v ∧ p k v ∧ f v = i) :
    size u = sum (fun k v => if p k v then 1 else 0) t := by
  refine Nat.le_antisymm ?_ ?_
  · rw [sum_indicator, size_eq_keys_length, ← length_map fun e : Sigma fun _ => V => f e.2]
    refine (subperm_of_subset u.keys_nodup fun i mem => ?_).length_le
    obtain ⟨k, held⟩ := Option.isSome_iff_exists.mp (lookup_isSome.mpr mem)
    obtain ⟨v, found, holds, rfl⟩ := (index i k).mp held
    exact mem_map.mpr ⟨⟨k, v⟩, mem_filter.mpr ⟨mem_lookup_iff.mp found, by simpa using holds⟩, rfl⟩
  · rw [size, ← length_map fun e : Sigma fun _ => K => e.2]
    refine sum_indicator_le fun k v found holds => ?_
    exact mem_map.mpr ⟨⟨f v, k⟩, mem_lookup_iff.mp ((index (f v) k).mpr ⟨v, found, holds, rfl⟩), rfl⟩

end Indicator

theorem foldl_max_spec (l : List Nat) (a : Nat) : a ≤ l.foldl max a ∧ (∀ x ∈ l, x ≤ l.foldl max a) ∧
    (l.foldl max a = a ∨ l.foldl max a ∈ l) := by
  induction l generalizing a with
  | nil => exact ⟨Nat.le_refl a, by simp, .inl rfl⟩
  | cons x rest ih =>
    obtain ⟨least, each, reached⟩ := ih (max a x)
    rw [foldl_cons, forall_mem_cons, mem_cons]
    refine ⟨by omega, ⟨by omega, each⟩, ?_⟩
    rcases reached with same | mem
    · omega
    · exact .inr (.inr mem)

end Table
