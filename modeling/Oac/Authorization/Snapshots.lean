import Oac.Authorization.Restart

/-! What the pairing store is given. The keys of a table are written in the order of their texts, so
a snapshot depends on what the tables hold and on nothing else, and restoring a snapshot and taking
it again gives it back. -/

namespace Oac

section TextOrder

open Std

def compareChar : Char → Char → Ordering := compareOn Char.toNat

instance : TransCmp compareChar := inferInstanceAs (TransCmp (compareOn Char.toNat))

instance : LawfulEqCmp compareChar where
  compare_self := (inferInstance : ReflCmp (compareOn Char.toNat)).compare_self
  eq_of_compare same := Char.toNat_inj.mp (Nat.compare_eq_eq.mp same)

theorem compareText_eq_compareLex (s t : List Char) : compareText s t = s.compareLex compareChar t := by
  induction s generalizing t with
  | nil => cases t <;> rfl
  | cons a s ih =>
    cases t with
    | nil => rfl
    | cons b t =>
      rw [compareText, List.compareLex_cons_cons, compareChar, compareOn, Nat.compare_eq_ite_lt, ih]
      split
      · rfl
      · split <;> rfl

instance : TransCmp compareText := by
  have lex : compareText = List.compareLex compareChar :=
    funext fun s => funext fun t => compareText_eq_compareLex s t
  rw [lex]
  infer_instance

instance : LawfulEqCmp compareText := by
  have lex : compareText = List.compareLex compareChar :=
    funext fun s => funext fun t => compareText_eq_compareLex s t
  rw [lex]
  infer_instance

theorem ordered_by_text [Ord K] {text : K → String} (injective : Function.Injective text)
    (order : ∀ a b : K, compare a b = compareText (text a).toList (text b).toList) :
    TransOrd K ∧ LawfulEqOrd K := by
  refine ⟨{ eq_swap := ?_, isLE_trans := ?_ }, { compare_self := ?_, eq_of_compare := ?_ }⟩
  · intro a b
    rw [order, order]
    exact OrientedCmp.eq_swap
  · intro a b c first second
    rw [order] at first second ⊢
    exact TransCmp.isLE_trans first second
  · intro a
    rw [order]
    exact ReflCmp.compare_self
  · intro a b same
    rw [order] at same
    exact injective (String.toList_inj.mp (LawfulEqCmp.eq_of_compare same))

theorem KeyId.ordered : TransOrd KeyId ∧ LawfulEqOrd KeyId :=
  ordered_by_text (fun | ⟨_, _⟩, ⟨_, _⟩, rfl => rfl) fun _ _ => rfl

theorem SessionId.ordered : TransOrd SessionId ∧ LawfulEqOrd SessionId :=
  ordered_by_text (fun | ⟨_, _⟩, ⟨_, _⟩, rfl => rfl) fun _ _ => rfl

instance : TransOrd KeyId := KeyId.ordered.1
instance : LawfulEqOrd KeyId := KeyId.ordered.2
instance : TransOrd SessionId := SessionId.ordered.1
instance : LawfulEqOrd SessionId := SessionId.ordered.2

end TextOrder

section Sorted

open Std

variable {K V : Type} [Ord K] [TransOrd K]

theorem sortedKeys_pairwise (keys : List K) :
    (sortedKeys keys).Pairwise fun a b => (compare a b != .gt) = true := by
  have total : Std.Total fun a b : K => (compare a b != .gt) = true := ⟨fun a b => by
    have swapped : compare b a = (compare a b).swap := OrientedCmp.eq_swap
    rw [swapped]
    cases compare a b <;> simp⟩
  have transitive : IsTrans K fun a b => (compare a b != .gt) = true := ⟨fun a b c first second => by
    have le : ∀ {x y : K}, (compare x y != .gt) = true ↔ (compare x y).isLE = true := by
      intro x y
      cases compare x y <;> simp
    exact le.mpr (TransCmp.isLE_trans (le.mp first) (le.mp second))⟩
  exact List.pairwise_insertionSort _ keys

theorem filterMap_sortedKeys [LawfulEqOrd K] (nodup : keys.Nodup) (nodup' : keys'.Nodup)
    {f : K → Option V} (agree : ∀ k, (f k).isSome → (k ∈ keys ↔ k ∈ keys')) :
    (sortedKeys keys).filterMap f = (sortedKeys keys').filterMap f := by
  have kept : ∀ l : List K, l.filterMap f = (l.filter fun k => (f k).isSome).filterMap f := by
    intro l
    rw [List.filterMap_filter]
    refine List.filterMap_congr fun k _ => ?_
    cases f k <;> rfl
  have antisymmetric : Std.Antisymm fun a b : K => (compare a b != .gt) = true := ⟨fun a b first second => by
    have swapped : compare b a = (compare a b).swap := OrientedCmp.eq_swap
    have equal : compare a b = .eq := by
      cases order : compare a b <;> simp_all
    exact LawfulEqCmp.eq_of_compare equal⟩
  have sorted : ∀ keys : List K, keys.Nodup → (sortedKeys keys).Nodup :=
    fun keys nodup => (List.perm_insertionSort _ keys).nodup_iff.mpr nodup
  rw [kept (sortedKeys keys), kept (sortedKeys keys')]
  congr 1
  refine List.Perm.eq_of_pairwise' ((sortedKeys_pairwise keys).filter _)
    ((sortedKeys_pairwise keys').filter _) ?_
  refine (List.perm_ext_iff_of_nodup ((sorted keys nodup).filter _)
    ((sorted keys' nodup').filter _)).mpr fun k => ?_
  rw [List.mem_filter, List.mem_filter, mem_sortedKeys, mem_sortedKeys]
  exact and_congr_left (agree k)

theorem sortedKeys_congr [LawfulEqOrd K] {keys keys' : List K} (nodup : keys.Nodup) (nodup' : keys'.Nodup)
    (agree : ∀ k, k ∈ keys ↔ k ∈ keys') : sortedKeys keys = sortedKeys keys' := by
  have same := filterMap_sortedKeys nodup nodup' (f := some) fun k _ => agree k
  rwa [List.filterMap_some, List.filterMap_some] at same

variable [LawfulEqOrd K] [DecidableEq K]

theorem filter_valuesInOrder {t t' : Table K V}
    (agree : ∀ k, (t.lookup k).filter test = (t'.lookup k).filter test) :
    (valuesInOrder t).filter test = (valuesInOrder t').filter test := by
  unfold valuesInOrder
  rw [List.filter_filterMap, List.filter_filterMap]
  have same : (fun k => (t'.lookup k).filter test) = fun k => (t.lookup k).filter test :=
    funext fun k => (agree k).symm
  rw [same]
  have listed : ∀ {t : Table K V} {k : K}, ((t.lookup k).filter test).isSome → k ∈ t.keys := by
    intro t k passes
    refine AList.lookup_isSome.mp ?_
    cases held : t.lookup k with
    | none => simp [held] at passes
    | some v => rfl
  refine filterMap_sortedKeys t.keys_nodup t'.keys_nodup fun k passes => ?_
  exact iff_of_true (listed passes) (listed (agree k ▸ passes))

theorem valuesInOrder_congr {t t' : Table K V} (agree : ∀ k, t.lookup k = t'.lookup k) :
    valuesInOrder t = valuesInOrder t' := by
  have same : (valuesInOrder t).filter (fun _ => true) = (valuesInOrder t').filter (fun _ => true) :=
    filter_valuesInOrder fun k => by rw [agree k]
  rwa [List.filter_true, List.filter_true] at same

end Sorted

namespace AuthorizationEngine

variable [Libraries] {own : DeviceIdentity} {e e' : AuthorizationEngine}

/-- Engines of one device whose tables hold the same, the device's own statement apart, give the
store the same. -/
theorem Consistent.snapshot_eq (consistent : Consistent own e) (consistent' : Consistent own e')
    (paired : ∀ k, e'.paired.lookup k = e.paired.lookup k) (grants : e'.grants = e.grants)
    (relay : ∀ s, s ∈ e'.relay ↔ s ∈ e.relay)
    (agreements : ∀ k, k ≠ own.keyId → e'.agreements.lookup k = e.agreements.lookup k) :
    e'.snapshot = e.snapshot := by
  have statements : (valuesInOrder e'.agreements).filter (fun h => decide (h.keyId ≠ e'.ownKey)) =
      (valuesInOrder e.agreements).filter (fun h => decide (h.keyId ≠ e.ownKey)) := by
    rw [consistent.ownKey, consistent'.ownKey]
    refine filter_valuesInOrder fun k => ?_
    by_cases isOwn : k = own.keyId
    · -- what is held for the own key does not pass
      have dropped : ∀ {e : AuthorizationEngine}, Consistent own e →
          (e.agreements.lookup k).filter (fun h => decide (h.keyId ≠ own.keyId)) = none := by
        intro e consistent
        cases found : e.agreements.lookup k with
        | none => rfl
        | some h => simp [(consistent.held k h found).1, isOwn]
      rw [dropped consistent, dropped consistent']
    · rw [agreements k isOwn]
  unfold snapshot
  rw [valuesInOrder_congr paired, grants,
    sortedKeys_congr consistent'.relay consistent.relay relay, statements]

theorem Consistent.snapshot_of_same (consistent : Consistent own e) (sameKey : e'.ownKey = e.ownKey)
    (same : SameTrust e e') : e'.snapshot = e.snapshot :=
  consistent.snapshot_eq (consistent.of_same sameKey same) same.paired same.grants
    (fun s => by rw [same.relay]) fun k _ => same.agreements k

omit [Libraries] in
theorem snapshot_of_trust (same : e'.trust = e.trust) : e'.snapshot = e.snapshot := by
  injection same with ownKey _ paired grants relay agreements
  unfold snapshot
  rw [ownKey, paired, grants, relay, agreements]

theorem Consistent.snapshot_admitting_own (consistent : Consistent own e) {held : HeldStatement}
    (named : held.keyId = e.ownKey) : (e.admitting held).snapshot = e.snapshot := by
  have foreign : held.keyId = own.keyId := named.trans consistent.ownKey
  refine consistent.snapshot_eq (consistent.admitting held fun other => absurd foreign other)
    (fun _ => rfl) rfl (fun _ => Iff.rfl) fun k other => ?_
  exact AList.lookup_insert_ne (by rwa [foreign])

theorem ReachableAs.restore_snapshot (reachable : ReachableAs own e) :
    ∃ e', restore own (.ok e.snapshot) = .ok e' ∧ ReachableAs own e' ∧ e'.snapshot = e.snapshot := by
  obtain ⟨e', restored, -, paired, grants, relay, agreements⟩ := reachable.consistent.restored
  have reached : ReachableAs own e' := ⟨e', .inr ⟨_, restored⟩, .refl⟩
  refine ⟨e', restored, reached, reachable.consistent.snapshot_eq reached.consistent paired grants relay ?_⟩
  intro k foreign
  rw [agreements, if_neg foreign]

end AuthorizationEngine

end Oac
