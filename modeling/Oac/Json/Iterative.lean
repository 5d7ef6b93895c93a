import Oac.Json.Order
import Oac.Json.RoundTrip

/-! The traversals of `core/src/json.rs` that use an explicit stack in place of recursion: the
iterator of a walk, the copy of a value and the comparison of two values. Each is related to the
recursion on the value that it replaces. -/

namespace Oac.Json

open List

section Iterator

inductive Frame where
  | array (rest : List Json)
  | object (rest : List (String × Json))

/-- A depth-first walk with an explicit stack, the innermost container first. -/
structure Events where
  stack : List Frame
  pending : Option Json
  sorted : Bool

namespace Events

def ofValue (sorted : Bool) (v : Json) : Events := ⟨[], some v, sorted⟩

def visit (sorted : Bool) (stack : List Frame) : Json → Event × Events
  | .array items => (.arrayStart, ⟨.array items :: stack, none, sorted⟩)
  | .object members => (.objectStart, ⟨.object (ordered sorted members) :: stack, none, sorted⟩)
  | v => (.scalar v, ⟨stack, none, sorted⟩)

def next (e : Events) : Option (Event × Events) :=
  match e.pending with
  | some v => some (visit e.sorted e.stack v)
  | none =>
    match e.stack with
    | [] => none
    | .array (v :: rest) :: below => some (visit e.sorted (.array rest :: below) v)
    | .array [] :: below => some (.arrayEnd, ⟨below, none, e.sorted⟩)
    | .object ((k, v) :: rest) :: below => some (.name k, ⟨.object rest :: below, some v, e.sorted⟩)
    | .object [] :: below => some (.objectEnd, ⟨below, none, e.sorted⟩)

/-- The events that repeated calls of `next` yield until there is none. -/
inductive Yields : Events → List Event → Prop where
  | done {e : Events} (ended : e.next = none) : Yields e []
  | more {e e' : Events} {event : Event} {rest : List Event} (found : e.next = some (event, e'))
      (others : Yields e' rest) : Yields e (event :: rest)

theorem Yields.unique (yields : Yields e first) (again : Yields e second) : first = second := by
  induction yields generalizing second with
  | done ended =>
    cases again with
    | done _ => rfl
    | more found _ => exact nomatch ended.symm.trans found
  | more found _ ih =>
    cases again with
    | done ended => exact nomatch ended.symm.trans found
    | more found' others' =>
      cases found.symm.trans found'
      rw [ih others']

/-- Wherever the value is next, its walk is yielded and then what the containers around it yield. -/
def Walks (sorted : Bool) (v : Json) : Prop :=
  ∀ {e : Events} {stack : List Frame} {rest : List Event}, e.next = some (visit sorted stack v) →
    Yields ⟨stack, none, sorted⟩ rest → Yields e (walk sorted v ++ rest)

variable {sorted : Bool} {stack : List Frame} {rest : List Event}

theorem yields_items (each : ∀ v ∈ items, Walks sorted v) (outer : Yields ⟨stack, none, sorted⟩ rest) :
    Yields ⟨.array items :: stack, none, sorted⟩ (items.flatMap (walk sorted) ++ .arrayEnd :: rest) := by
  induction items with
  | nil => exact .more rfl outer
  | cons v items ih =>
    obtain ⟨first, others⟩ := forall_mem_cons.mp each
    rw [flatMap_cons, append_assoc]
    exact first rfl (ih others)

theorem yields_members (each : ∀ m ∈ members, Walks sorted m.2) (outer : Yields ⟨stack, none, sorted⟩ rest) :
    Yields ⟨.object members :: stack, none, sorted⟩
      (members.flatMap (fun m => .name m.1 :: walk sorted m.2) ++ .objectEnd :: rest) := by
  induction members with
  | nil => exact .more rfl outer
  | cons m members ih =>
    obtain ⟨first, others⟩ := forall_mem_cons.mp each
    rw [flatMap_cons, append_assoc]
    exact .more rfl (first rfl (ih others))

theorem walks (sorted : Bool) (v : Json) : Walks sorted v := by
  induction v using Json.induct with
  | null | bool | number | string => exact fun here outer => .more here outer
  | array items each =>
    intro e stack rest here outer
    rw [walk_array, cons_append, append_assoc]
    exact .more here (yields_items each outer)
  | object members each =>
    intro e stack rest here outer
    have inOrder : ∀ m ∈ ordered sorted members, Walks sorted m.2 := by
      intro m held
      unfold ordered at held
      split at held
      · exact each m ((sortMembers_perm members).mem_iff.mp held)
      · exact each m held
    rw [walk_object, cons_append, append_assoc]
    exact .more here (yields_members inOrder outer)

theorem ofValue_yields_iff {events : List Event} :
    Yields (ofValue sorted v) events ↔ events = walk sorted v := by
  have alone := walks sorted v (e := ofValue sorted v) rfl (.done rfl)
  rw [append_nil] at alone
  constructor
  · intro yields
    exact yields.unique alone
  · rintro rfl
    exact alone

end Events

end Iterator

section Copy

inductive Building where
  | array (items : List Json)
  | object (members : List (String × Json)) (name : String)

def Building.finish : Building → Json
  | .array items => .array items
  | .object members _ => .object members

/-- The loop of the copy over the events that remain, with the containers under construction. An
absent result stands for the source's `unreachable!`. -/
def cloneLoop : List Building → List Event → Option Json
  | _, [] => none
  | stack, event :: rest =>
    let complete (stack : List Building) (done : Json) : Option Json :=
      match stack with
      | [] => some done
      | .array items :: below => cloneLoop (.array (items ++ [done]) :: below) rest
      | .object members name :: below => cloneLoop (.object (members ++ [(name, done)]) "" :: below) rest
    match event with
    | .arrayStart => cloneLoop (.array [] :: stack) rest
    | .objectStart => cloneLoop (.object [] "" :: stack) rest
    | .name k =>
      match stack with
      | .object members _ :: below => cloneLoop (.object members k :: below) rest
      | _ => cloneLoop stack rest
    | .scalar v =>
      match v with
      | .array _ | .object _ => none
      | v => complete stack v
    | .arrayEnd | .objectEnd =>
      match stack with
      | [] => none
      | building :: below => complete below building.finish

def clone (v : Json) : Option Json := cloneLoop [] v.events

def place (done : Json) (stack : List Building) (rest : List Event) : Option Json :=
  match stack with
  | [] => some done
  | .array items :: below => cloneLoop (.array (items ++ [done]) :: below) rest
  | .object members name :: below => cloneLoop (.object (members ++ [(name, done)]) "" :: below) rest

/-- The loop puts the copy of a walked value in its place. -/
def Copies (v : Json) : Prop :=
  ∀ (stack : List Building) (rest : List Event), cloneLoop stack (walk false v ++ rest) = place v stack rest

theorem copies_items (each : ∀ v ∈ items, Copies v) (before : List Json)
    (below : List Building) (rest : List Event) :
    cloneLoop (.array before :: below) (items.flatMap (walk false) ++ .arrayEnd :: rest) =
      place (.array (before ++ items)) below rest := by
  induction items generalizing before with
  | nil =>
    rw [append_nil]
    rfl
  | cons v items ih =>
    obtain ⟨first, others⟩ := forall_mem_cons.mp each
    rw [flatMap_cons, append_assoc, first, place, ih others, append_assoc, singleton_append]

theorem copies_members (each : ∀ m ∈ members, Copies m.2) (before : List (String × Json)) (name : String)
    (below : List Building) (rest : List Event) : cloneLoop (.object before name :: below)
        (members.flatMap (fun m => .name m.1 :: walk false m.2) ++ .objectEnd :: rest) =
      place (.object (before ++ members)) below rest := by
  induction members generalizing before name with
  | nil =>
    rw [append_nil]
    rfl
  | cons m members ih =>
    obtain ⟨first, others⟩ := forall_mem_cons.mp each
    rw [flatMap_cons, append_assoc, cons_append]
    change cloneLoop (.object before m.1 :: below) _ = _
    rw [first, place, ih others, append_assoc, singleton_append]

theorem copies (v : Json) : Copies v := by
  induction v using Json.induct with
  | null | bool | number | string => exact fun stack rest => rfl
  | array items each =>
    intro stack rest
    rw [walk_array, cons_append, append_assoc]
    exact copies_items each [] stack rest
  | object members each =>
    intro stack rest
    rw [walk_object, cons_append, append_assoc]
    exact copies_members each [] "" stack rest

/-- The iterative copy is the structural one. -/
theorem clone_eq (v : Json) : clone v = some v := by
  have placed := copies v [] []
  rwa [append_nil] at placed

end Copy

section Compare

def sameScalar : Json → Json → Bool
  | .null, .null => true
  | .bool p, .bool q => p == q
  | .number p, .number q => p == q
  | .string p, .string q => p == q
  | _, _ => false

/-- The loop of the comparison over the events of both walks. -/
def eqLoop : List Event → List Event → Bool
  | [], [] => true
  | .scalar x :: rest, .scalar y :: rest' => sameScalar x y && eqLoop rest rest'
  | .arrayStart :: rest, .arrayStart :: rest' => eqLoop rest rest'
  | .arrayEnd :: rest, .arrayEnd :: rest' => eqLoop rest rest'
  | .objectStart :: rest, .objectStart :: rest' => eqLoop rest rest'
  | .objectEnd :: rest, .objectEnd :: rest' => eqLoop rest rest'
  | .name k :: rest, .name k' :: rest' => k == k' && eqLoop rest rest'
  | _, _ => false

def eq (v w : Json) : Bool := eqLoop v.events w.events

/-- The loop gets past a walked value when the other side's value is the same. -/
def Compares (v : Json) : Prop :=
  ∀ (w : Json) (rest rest' : List Event),
    eqLoop (walk false v ++ rest) (walk false w ++ rest') = true ↔ v = w ∧ eqLoop rest rest' = true

theorem eqLoop_arrayEnd (v : Json) (rest rest' : List Event) :
    eqLoop (.arrayEnd :: rest) (walk false v ++ rest') = false ∧
      eqLoop (walk false v ++ rest') (.arrayEnd :: rest) = false := by
  cases v <;> exact ⟨rfl, rfl⟩

theorem compares_items (each : ∀ v ∈ items, Compares v) (others : List Json) (rest rest' : List Event) :
    eqLoop (items.flatMap (walk false) ++ .arrayEnd :: rest)
      (others.flatMap (walk false) ++ .arrayEnd :: rest') = true ↔
      items = others ∧ eqLoop rest rest' = true := by
  induction items generalizing others with
  | nil =>
    cases others with
    | nil => simp [eqLoop]
    | cons w others =>
      rw [flatMap_nil, nil_append, flatMap_cons, append_assoc, (eqLoop_arrayEnd w _ _).1]
      simp
  | cons v items ih =>
    obtain ⟨first, remaining⟩ := forall_mem_cons.mp each
    cases others with
    | nil =>
      rw [flatMap_nil, nil_append, flatMap_cons, append_assoc, (eqLoop_arrayEnd v _ _).2]
      simp
    | cons w others =>
      rw [flatMap_cons, flatMap_cons, append_assoc, append_assoc, first, ih remaining, cons.injEq, and_assoc]

theorem compares_members (each : ∀ m ∈ members, Compares m.2) (others : List (String × Json))
    (rest rest' : List Event) : eqLoop
      (members.flatMap (fun m => .name m.1 :: walk false m.2) ++ .objectEnd :: rest)
        (others.flatMap (fun m => .name m.1 :: walk false m.2) ++ .objectEnd :: rest') = true ↔
      members = others ∧ eqLoop rest rest' = true := by
  induction members generalizing others with
  | nil => cases others <;> simp [eqLoop]
  | cons m members ih =>
    obtain ⟨first, remaining⟩ := forall_mem_cons.mp each
    cases others with
    | nil => simp [eqLoop]
    | cons n others =>
      rw [flatMap_cons, flatMap_cons, append_assoc, append_assoc, cons_append,
        cons_append, eqLoop, Bool.and_eq_true, beq_iff_eq, first, ih remaining, cons.injEq, Prod.ext_iff,
        and_assoc, and_assoc]

theorem compares (v : Json) : Compares v := by
  induction v using Json.induct with
  | null =>
    intro w rest rest'
    cases w <;> simp [walk, eqLoop, sameScalar]
  | bool b =>
    intro w rest rest'
    cases w <;> simp [walk, eqLoop, sameScalar]
  | number n =>
    intro w rest rest'
    cases w <;> simp [walk, eqLoop, sameScalar]
  | string s =>
    intro w rest rest'
    cases w <;> simp [walk, eqLoop, sameScalar]
  | array items each =>
    intro w rest rest'
    cases w with
    | array others =>
      rw [walk_array, walk_array, cons_append, cons_append, append_assoc, append_assoc, eqLoop,
        singleton_append, singleton_append, compares_items each, Json.array.injEq]
    | null | bool _ | number _ | string _ | object _ => simp [walk, eqLoop]
  | object members each =>
    intro w rest rest'
    cases w with
    | object others =>
      rw [walk_object, walk_object, cons_append, cons_append, append_assoc, append_assoc, singleton_append]
      exact (compares_members each others rest rest').trans (by rw [Json.object.injEq])
    | null | bool _ | number _ | string _ | array _ => simp [walk, eqLoop]

/-- The iterative comparison is structural equality, with members in stored order. -/
theorem eq_iff (v w : Json) : eq v w = true ↔ v = w := by
  have compared := compares v w [] []
  rw [append_nil, append_nil] at compared
  exact compared.trans (and_iff_left rfl)

end Compare

/-- Writer and parser are inverse on well-formed values, and what was read is written and read again
as the same value and the same text. The iterator yields the events of the value, over which the
iterative copy makes the value itself and the iterative comparison decides equality, with the
members of objects in stored order. -/
theorem compact_inverse_of_parse :
    (∀ v : Json, v.WellFormed → ∃ w, parse (Utf8.encode v.toCompact) = .ok w ∧ w = v) ∧
    (∀ octets v, parse octets = .ok v → parse (Utf8.encode v.toCompact) = .ok v ∧
      ∀ w, parse (Utf8.encode v.toCompact) = .ok w → w.toCompact = v.toCompact) ∧
    (∀ (v : Json) events, Events.Yields (.ofValue false v) events ↔ events = v.events) ∧
    (∀ v : Json, v.clone = some v) ∧ ∀ v w : Json, v.eq w = true ↔ v = w := by
  refine ⟨fun v formed => ⟨v, parse_toCompact formed, rfl⟩, fun octets v read => ?_,
    fun v events => Events.ofValue_yields_iff, clone_eq, eq_iff⟩
  have again := parse_toCompact (parse_wellFormed read)
  refine ⟨again, fun w second => ?_⟩
  rw [again] at second
  cases second
  rfl

theorem compact_inverse_of_parse_sample :
    let v := Json.object [("b", .array [.string "a", .bool true]), ("a", .null)]
    v.toCompact = "\x7b\"b\":[\"a\",true],\"a\":null\x7d".toList ∧ parse (Utf8.encode v.toCompact) = .ok v ∧
      Events.Yields (.ofValue false v) v.events ∧ v.clone = some v ∧ v.eq v = true := by
  obtain ⟨written, again, yields, cloned, same⟩ := compact_inverse_of_parse
  obtain ⟨v, read, rfl⟩ := written (.object [("b", .array [.string "a", .bool true]), ("a", .null)])
    ⟨by decide, by decide, ⟨(by decide : isIjsonString _ = true), trivial, trivial⟩, by decide, trivial, trivial⟩
  exact ⟨by decide +kernel, (again _ _ read).1, (yields _ _).2 rfl, cloned _, (same _ _).2 rfl⟩

/-- Two objects with the same members in another order are not equal. -/
theorem eq_stored_order : ∃ members others : List (String × Json),
    (Json.object members).WellFormed ∧ (Json.object others).WellFormed ∧ members.Perm others ∧
      Json.eq (.object members) (.object others) = false := by
  refine ⟨[("a", .null), ("b", .null)], [("b", .null), ("a", .null)], ?_, ?_, .swap _ _ _, by decide +kernel⟩
  · exact ⟨by decide, by decide, trivial, by decide, trivial, trivial⟩
  · exact ⟨by decide, by decide, trivial, by decide, trivial, trivial⟩

end Oac.Json
