import Mathlib.Data.List.Sort
import Mathlib.Data.List.Nodup
import Mathlib.Order.Defs.LinearOrder
import Oac.Json.Value

/-! Induction over JSON values, and the order of an object's members: UTF-16 names are compared by
their code units, which tell names apart, so members with distinct names have one order. -/

namespace Oac.Json

open List

section Induction

variable {P : Json → Prop} (null : P .null) (bool : ∀ b, P (.bool b)) (number : ∀ n, P (.number n))
  (string : ∀ s, P (.string s)) (array : ∀ items, (∀ v ∈ items, P v) → P (.array items))
  (object : ∀ members : List (String × Json), (∀ m ∈ members, P m.2) → P (.object members))

include null bool number string array object

set_option linter.unusedSectionVars false in
mutual

theorem induct : (v : Json) → P v
  | .null => null
  | .bool b => bool b
  | .number n => number n
  | .string s => string s
  | .array items => array items (inductItems items)
  | .object members => object members (inductMembers members)

theorem inductItems : (items : List Json) → ∀ v ∈ items, P v
  | [] => fun _ held => nomatch held
  | first :: rest => forall_mem_cons.mpr ⟨induct first, inductItems rest⟩

theorem inductMembers : (members : List (String × Json)) → ∀ m ∈ members, P m.2
  | [] => fun _ held => nomatch held
  | (_, v) :: rest => forall_mem_cons.mpr ⟨induct v, inductMembers rest⟩

end

end Induction

section Utf16

theorem toNat_range (c : Char) : c.toNat < 0xD800 ∨ 0xDFFF < c.toNat ∧ c.toNat < 0x110000 := c.valid

theorem encodeUtf16Char_append (same : encodeUtf16Char c ++ rest = encodeUtf16Char d ++ rest') :
    c = d ∧ rest = rest' := by
  have rangeC := toNat_range c
  have rangeD := toNat_range d
  have equal : c.toNat = d.toNat ∧ rest = rest' := by
    unfold encodeUtf16Char at same
    split at same <;> split at same <;>
      simp only [cons_append, nil_append, cons.injEq] at same
    · exact ⟨same.1, same.2⟩
    · omega
    · omega
    · exact ⟨by omega, same.2.2⟩
  exact ⟨Char.toNat_inj.mp equal.1, equal.2⟩

theorem encodeUtf16_injective (same : encodeUtf16 s = encodeUtf16 t) : s = t := by
  have lists : ∀ a b : List Char, a.flatMap encodeUtf16Char = b.flatMap encodeUtf16Char → a = b := by
    intro a
    induction a with
    | nil =>
      intro b same
      cases b with
      | nil => rfl
      | cons d ds =>
        unfold encodeUtf16Char at same
        rw [flatMap_cons] at same
        split at same <;> cases same
    | cons c cs ih =>
      intro b same
      cases b with
      | nil =>
        unfold encodeUtf16Char at same
        rw [flatMap_cons] at same
        split at same <;> cases same
      | cons d ds =>
        obtain ⟨rfl, rest⟩ := encodeUtf16Char_append same
        rw [ih ds rest]
  exact String.toList_inj.mp (lists s.toList t.toList same)

end Utf16

section Sorting

variable {α β : Type}

/-- The first member's name is not after the second's. -/
def before (a b : String × α) : Prop := encodeUtf16 a.1 ≤ encodeUtf16 b.1

instance : DecidableRel (before (α := α)) := fun a b =>
  inferInstanceAs (Decidable (encodeUtf16 a.1 ≤ encodeUtf16 b.1))

theorem sortMembers_eq (members : List (String × α)) : sortMembers members = members.insertionSort before := by
  have insert : ∀ (m : String × α) l, insertSorted m l = l.orderedInsert before m := by
    intro m l
    induction l with
    | nil => rfl
    | cons n rest ih =>
      rw [insertSorted, orderedInsert_cons, ih]
      by_cases first : before m n
      · rw [if_pos first]
        exact if_pos first
      · rw [if_neg first]
        exact if_neg first
  induction members with
  | nil => rfl
  | cons m rest ih =>
    rw [insertionSort_cons, ← ih, ← insert]
    rfl

theorem sortMembers_perm (members : List (String × α)) : (sortMembers members).Perm members := by
  rw [sortMembers_eq]
  exact perm_insertionSort _ members

theorem sortMembers_sorted (members : List (String × α)) : (sortMembers members).Pairwise before := by
  have total : Std.Total (before (α := α)) := ⟨fun a b => le_total (encodeUtf16 a.1) (encodeUtf16 b.1)⟩
  have trans : IsTrans (String × α) before := ⟨fun a b c => le_trans⟩
  rw [sortMembers_eq]
  exact pairwise_insertionSort before members

theorem sortMembers_map (f : α → β) (members : List (String × α)) :
    sortMembers (members.map fun m => (m.1, f m.2)) = (sortMembers members).map fun m => (m.1, f m.2) := by
  rw [sortMembers_eq, sortMembers_eq]
  exact (map_insertionSort before before (fun m => (m.1, f m.2)) members fun _ _ _ _ => Iff.rfl).symm

theorem sortMembers_names {ms : List (String × α)} {ns : List (String × β)}
    (same : (ms.map (·.1)).Perm (ns.map (·.1))) : (sortMembers ms).map (·.1) = (sortMembers ns).map (·.1) := by
  have sorted : ∀ {γ : Type} (l : List (String × γ)),
      ((sortMembers l).map (·.1)).Pairwise fun a b => encodeUtf16 a ≤ encodeUtf16 b :=
    fun l => pairwise_map.mpr (sortMembers_sorted l)
  refine Perm.eq_of_pairwise ?_ (sorted ms) (sorted ns) ?_
  · intro a b _ _ first second
    exact encodeUtf16_injective (le_antisymm first second)
  · exact (((sortMembers_perm ms).map _).trans same).trans ((sortMembers_perm ns).map _).symm

def ordered (sorted : Bool) (members : List (String × Json)) : List (String × Json) :=
  if sorted then sortMembers members else members

theorem walk_object (sorted : Bool) (members : List (String × Json)) :
    walk sorted (.object members) = .objectStart ::
      ((ordered sorted members).flatMap (fun m => .name m.1 :: walk sorted m.2) ++ [.objectEnd]) := by
  have walked : walkMembers sorted members = members.map fun m => (m.1, walk sorted m.2) := by
    induction members with
    | nil => rfl
    | cons m rest ih => rw [walkMembers, ih, map_cons]
  rw [walk, walked, ordered]
  cases sorted with
  | true => rw [if_pos rfl, if_pos rfl, sortMembers_map, flatMap_map]
  | false => rw [if_neg (by decide), if_neg (by decide), flatMap_map]

theorem walk_array (sorted : Bool) (items : List Json) :
    walk sorted (.array items) = .arrayStart :: (items.flatMap (walk sorted) ++ [.arrayEnd]) := by
  have walked : walkItems sorted items = items.flatMap (walk sorted) := by
    induction items with
    | nil => rfl
    | cons v rest ih => rw [walkItems, ih, flatMap_cons]
  rw [walk, walked]

end Sorting

end Oac.Json
