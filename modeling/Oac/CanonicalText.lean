import Oac.Json.Compact
import Oac.Json.Order

/-! The canonical form by recursion on the value. The source writes the events of a sorted walk with
a stack of open containers; here the text of an array is that of its items, and the text of an
object that of its members in sorted order. -/

namespace Oac

open Libraries Writer List

open Json (walk sortMembers comma)

variable [Libraries]

def canonicalWrite (w : Writer) (events : List Json.Event) : Except CanonicalError Writer :=
  events.foldlM (writeEvent canonicalScalar fun k => jcs (writeString k)) w

theorem canonicalWrite_append (w : Writer) (first second : List Json.Event) :
    canonicalWrite w (first ++ second) = (canonicalWrite w first).bind fun w => canonicalWrite w second := by
  simp only [canonicalWrite, foldlM_append]
  rfl

theorem canonicalWrite_cons (w : Writer) (e : Json.Event) (rest : List Json.Event) :
    canonicalWrite w (e :: rest) = (canonicalWrite w [e]).bind fun w => canonicalWrite w rest :=
  canonicalWrite_append w [e] rest

theorem canonicalWrite_single (w : Writer) (e : Json.Event) :
    canonicalWrite w [e] = w.writeEvent canonicalScalar (fun k => jcs (writeString k)) e := by
  simp only [canonicalWrite, foldlM_cons, foldlM_nil, bind_pure]

theorem canonical_eq (v : Json) : canonical v = (canonicalWrite ⟨[], []⟩ (walk true v)).map (·.out) := by
  cases (walk true v).foldlM (writeEvent canonicalScalar fun k => jcs (writeString k)) ⟨[], []⟩ <;>
    rfl

/-- Texts with commas between them; the first has one before it unless `first`. -/
def joined (first : Bool) : List (List Char) → List Char
  | [] => []
  | text :: rest => comma first ++ text ++ joined false rest

def memberText (m : String × Json) : Except CanonicalError (List Char) := do
  let name ← jcs (writeString m.1)
  let value ← canonical m.2
  .ok (name.toList ++ ':' :: value)

/-- The walk of a value writes its canonical text, after the separator the writer puts before it. -/
def WritesCanonical (v : Json) : Prop :=
  ∀ w, canonicalWrite w (walk true v) = (canonical v).map w.beforeValue.push

section Containers

theorem write_each {l : List α} {spell : α → Except CanonicalError (List Char)}
    (each : ∀ a ∈ l, ∀ first out, canonicalWrite ⟨(kind, first) :: outer, out⟩ (events a) =
      (spell a).map fun text => ⟨(kind, false) :: outer, out ++ comma first ++ text⟩)
      (first : Bool) (out : List Char) :
    canonicalWrite ⟨(kind, first) :: outer, out⟩ (l.flatMap events) =
      (l.mapM spell).map fun texts => ⟨(kind, first && l.isEmpty) :: outer, out ++ joined first texts⟩ := by
  induction l generalizing first out with
  | nil => simp [canonicalWrite, joined, pure, Except.pure, Except.map]
  | cons a rest ih =>
    have others := ih (fun b held => each b (mem_cons_of_mem a held)) false
    rw [flatMap_cons, canonicalWrite_append, each a mem_cons_self, mapM_cons]
    cases spell a with
    | error e => rfl
    | ok text =>
      change canonicalWrite ⟨(kind, false) :: outer, out ++ comma first ++ text⟩ (rest.flatMap events) = _
      rw [others]
      change _ = Except.map _ ((rest.mapM spell).bind fun texts => .ok (text :: texts))
      cases rest.mapM spell with
      | error e => rfl
      | ok texts => simp [Except.map, Except.bind, joined, append_assoc]

theorem write_member (writes : WritesCanonical m.2) (first : Bool)
    (outer : List (Bool × Bool)) (out : List Char) :
    canonicalWrite ⟨(false, first) :: outer, out⟩ (.name m.1 :: walk true m.2) =
      (memberText m).map fun text => ⟨(false, false) :: outer, out ++ comma first ++ text⟩ := by
  have separated : (mk ((false, first) :: outer) out).separate =
      ⟨(false, false) :: outer, out ++ comma first⟩ := by
    cases first <;> simp [separate, comma]
  have named : canonicalWrite ⟨(false, first) :: outer, out⟩ [.name m.1] =
      (jcs (writeString m.1)).map fun name =>
        ⟨(false, false) :: outer, out ++ comma first ++ (name.toList ++ [':'])⟩ := by
    simp only [canonicalWrite_single, writeEvent, separated]
    cases jcs (writeString m.1) with
    | error e => rfl
    | ok name => simp [push, bind, Except.bind, Except.map]
  rw [canonicalWrite_cons, named]
  unfold memberText
  cases jcs (writeString m.1) with
  | error e => rfl
  | ok name =>
    change canonicalWrite ⟨(false, false) :: outer, out ++ comma first ++ (name.toList ++ [':'])⟩
      (walk true m.2) = _
    rw [writes, Json.beforeValue_member _ outer false rfl]
    cases canonical m.2 with
    | error e => rfl
    | ok value => simp [Except.map, push, bind, Except.bind]

theorem write_array (each : ∀ v ∈ items, WritesCanonical v) (w : Writer) :
    canonicalWrite w (walk true (.array items)) =
      (items.mapM canonical).map fun texts => w.beforeValue.push ('[' :: (joined true texts ++ [']'])) := by
  rw [Json.walk_array]
  change canonicalWrite ⟨(true, true) :: w.beforeValue.levels, w.beforeValue.out ++ ['[']⟩
    (items.flatMap (walk true) ++ [.arrayEnd]) = _
  have item : ∀ v ∈ items, ∀ first out,
    canonicalWrite ⟨(true, first) :: w.beforeValue.levels, out⟩ (walk true v) =
      (canonical v).map fun text => ⟨(true, false) :: w.beforeValue.levels, out ++ comma first ++ text⟩ := by
    intro v held first out
    rw [each v held, Json.beforeValue_item]
    rfl
  rw [canonicalWrite_append, write_each item]
  cases items.mapM canonical with
  | error e => rfl
  | ok texts => simp [Except.map, Except.bind, canonicalWrite, writeEvent, push, bind, pure, Except.pure]

theorem write_object {members : List (String × Json)} (each : ∀ m ∈ members, WritesCanonical m.2)
    (w : Writer) :
    canonicalWrite w (walk true (.object members)) = ((sortMembers members).mapM memberText).map fun texts =>
        w.beforeValue.push ('\x7b' :: (joined true texts ++ ['\x7d'])) := by
  have sorted : ∀ m ∈ sortMembers members, WritesCanonical m.2 :=
    fun m held => each m ((Json.sortMembers_perm members).mem_iff.mp held)
  rw [Json.walk_object]
  change canonicalWrite ⟨(false, true) :: w.beforeValue.levels, w.beforeValue.out ++ ['\x7b']⟩
    ((sortMembers members).flatMap (fun m => .name m.1 :: walk true m.2) ++ [.objectEnd]) = _
  rw [canonicalWrite_append, write_each fun m held first => write_member (sorted m held) first _]
  cases (sortMembers members).mapM memberText with
  | error e => rfl
  | ok texts => simp [Except.map, Except.bind, canonicalWrite, writeEvent, push, bind, pure, Except.pure]

theorem write_scalar (scalar : walk true v = [.scalar v]) (w : Writer) :
    canonicalWrite w (walk true v) = (canonicalScalar v).map fun text => w.beforeValue.push text.toList := by
  simp only [scalar, canonicalWrite_single, writeEvent]
  cases canonicalScalar v <;> rfl

end Containers

theorem canonical_scalar (scalar : walk true v = [.scalar v]) :
    canonical v = (canonicalScalar v).map (·.toList) := by
  rw [canonical_eq, write_scalar scalar]
  cases canonicalScalar v <;> rfl

theorem writesCanonical (v : Json) : WritesCanonical v := by
  have leaf : ∀ {v : Json}, walk true v = [.scalar v] → WritesCanonical v := by
    intro v scalar w
    rw [write_scalar scalar, canonical_scalar scalar]
    cases canonicalScalar v <;> rfl
  induction v using Json.induct with
  | null | bool | number | string => exact leaf rfl
  | array items each =>
    intro w
    rw [write_array each, canonical_eq, write_array each]
    cases items.mapM canonical <;> rfl
  | object members each =>
    intro w
    rw [write_object each, canonical_eq, write_object each]
    cases (sortMembers members).mapM memberText <;> rfl

theorem canonical_array (items : List Json) :
    canonical (.array items) = (items.mapM canonical).map fun texts => '[' :: (joined true texts ++ [']']) := by
  rw [canonical_eq, write_array fun v _ => writesCanonical v]
  cases items.mapM canonical <;> rfl

theorem canonical_object (members : List (String × Json)) : canonical (.object members) =
      ((sortMembers members).mapM memberText).map fun texts => '\x7b' :: (joined true texts ++ ['\x7d']) := by
  rw [canonical_eq, write_object fun m _ => writesCanonical m.2]
  cases (sortMembers members).mapM memberText <;> rfl

end Oac
