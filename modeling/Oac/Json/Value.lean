import Mathlib.Algebra.GroupWithZero.Nat
import Mathlib.Data.List.Basic
import Mathlib.Data.List.Lex

/-! JSON values of `core/src/json.rs` and their accessors. -/

namespace Oac

open List

/-- A JSON number, kept as its spelling. -/
structure JsonNumber where
  raw : String
  deriving DecidableEq

/-- A JSON value; an object keeps its members in received order. -/
inductive Json where
  | null
  | bool (value : Bool)
  | number (value : JsonNumber)
  | string (value : String)
  | array (items : List Json)
  | object (members : List (String × Json))

abbrev JsonObject := List (String × Json)

namespace JsonObject

def get (o : JsonObject) (name : String) : Option Json := (o.find? (·.1 == name)).map (·.2)

def contains (o : JsonObject) (name : String) : Bool := (get o name).isSome

def names (o : JsonObject) : List String := o.map (·.1)

/-- Set member `name`, replacing an existing one in place or appending a new one. -/
def insert : JsonObject → String → Json → JsonObject
  | [], name, v => [(name, v)]
  | m :: rest, name, v => if m.1 == name then (m.1, v) :: rest else m :: insert rest name v

def remove (o : JsonObject) (name : String) : Option Json × JsonObject :=
  (get o name, o.eraseP (·.1 == name))

theorem get_insert (o : JsonObject) (name other : String) (v : Json) :
    get (insert o name v) other = if other = name then some v else get o other := by
  unfold get
  induction o with
  | nil =>
    by_cases same : other = name
    · simp [insert, same]
    · simp [insert, same, Ne.symm same]
  | cons m rest ih =>
    rw [insert]
    by_cases here : m.1 = name
    · rw [if_pos (beq_iff_eq.mpr here)]
      by_cases same : other = name
      · simp [here, same]
      · have different : m.1 ≠ other := fun equal => same (equal ▸ here)
        simp [different, same]
    · rw [if_neg (mt beq_iff_eq.mp here)]
      by_cases found : m.1 = other
      · have different : other ≠ name := fun equal => here (found.trans equal)
        simp [found, different]
      · simpa [find?_cons, found] using ih

theorem insert_absent (v : Json) (absent : ∀ m ∈ o, m.1 ≠ name) : insert o name v = o ++ [(name, v)] := by
  induction o with
  | nil => rfl
  | cons m rest ih =>
    obtain ⟨different, others⟩ := forall_mem_cons.mp absent
    rw [insert, if_neg (by simpa using different), ih others, cons_append]

end JsonObject

namespace Json

def asStr : Json → Option String
  | string s => some s
  | _ => none

def asObject : Json → Option JsonObject
  | object o => some o
  | _ => none

def asArray : Json → Option (List Json)
  | array a => some a
  | _ => none

def asNumber : Json → Option JsonNumber
  | number n => some n
  | _ => none

def asBool : Json → Option Bool
  | bool b => some b
  | _ => none

/-- One step of a depth-first walk of a value. -/
inductive Event where
  | scalar (v : Json)
  | arrayStart
  | arrayEnd
  | objectStart
  | name (k : String)
  | objectEnd

def encodeUtf16Char (c : Char) : List Nat :=
  if c.toNat < 0x10000 then [c.toNat]
  else [0xD800 + (c.toNat - 0x10000) / 0x400, 0xDC00 + (c.toNat - 0x10000) % 0x400]

def encodeUtf16 (s : String) : List Nat := s.toList.flatMap encodeUtf16Char

def insertSorted {α : Type} (m : String × α) : List (String × α) → List (String × α)
  | [] => [m]
  | n :: rest => if encodeUtf16 m.1 ≤ encodeUtf16 n.1 then m :: n :: rest else n :: insertSorted m rest

/-- The stable sort of members by the UTF-16 code units of their names. -/
def sortMembers {α : Type} (members : List (String × α)) : List (String × α) :=
  members.foldr insertSorted []

mutual

/-- The depth-first walk of a value. With `sorted`, the members of each object come in the order
of the UTF-16 code units of their names; without it, in stored order. The walk of every member is
formed first and the walks are then put in order. -/
def walk (sorted : Bool) : Json → List Event
  | array items => .arrayStart :: (walkItems sorted items ++ [.arrayEnd])
  | object members =>
    let walked := walkMembers sorted members
    let ordered := if sorted then sortMembers walked else walked
    .objectStart :: (ordered.flatMap (fun m => .name m.1 :: m.2) ++ [.objectEnd])
  | v => [.scalar v]

def walkItems (sorted : Bool) : List Json → List Event
  | [] => []
  | v :: rest => walk sorted v ++ walkItems sorted rest

def walkMembers (sorted : Bool) : List (String × Json) → List (String × List Event)
  | [] => []
  | (k, v) :: rest => (k, walk sorted v) :: walkMembers sorted rest

end

def events (v : Json) : List Event := walk false v

def eventsSorted (v : Json) : List Event := walk true v

def containsNull (v : Json) : Bool :=
  (events v).any fun e => match e with
    | .scalar .null => true
    | _ => false

theorem containsNull_array (items : List Json) : (array items).containsNull = items.any containsNull := by
  simp only [containsNull, events, walk, any_cons, any_append, any_nil, Bool.false_or, Bool.or_false]
  induction items with
  | nil => rfl
  | cons v rest ih =>
    rw [walkItems, any_append, ih]
    rfl

end Json

def JsonNumber.fromU64 (v : Nat) : JsonNumber := ⟨toString v⟩

/-- A non-negative integer written with no sign, fraction or exponent, within `min..=max`. The
spelling has to fit a `u64`. -/
def JsonNumber.plainIntegerIn (n : JsonNumber) (min max : Nat) : Option Nat :=
  let r := n.raw.toList
  let plain := !r.isEmpty && r.all Char.isDigit && (decide (r.length = 1) || r.head? != some '0')
  if !plain then none
  else
    let v := r.foldl (fun a d => a * 10 + (d.toNat - '0'.toNat)) 0
    if decide (v < 2 ^ 64) && decide (min ≤ v) && decide (v ≤ max) then some v else none

end Oac
