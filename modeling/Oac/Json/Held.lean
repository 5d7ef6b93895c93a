import Oac.IdsProofs
import Oac.Json.Order
import Oac.Json.RoundTrip

/-! What the source's types of JSON values hold: numbers of the grammar and no name twice in an
object, but strings of any characters. Reading back the compact text of such a value checks its
strings. -/

namespace Oac

open List

section Shapes

mutual

/-- No name twice in an object, at any depth; every object of the source is of this kind, as its
members are set by `insert` and by the parser, which refuses a second member of one name. -/
def Distinct : Json → Prop
  | .array items => DistinctItems items
  | .object members => (members.map (·.1)).Nodup ∧ DistinctMembers members
  | _ => True

def DistinctItems : List Json → Prop
  | [] => True
  | v :: rest => Distinct v ∧ DistinctItems rest

def DistinctMembers : List (String × Json) → Prop
  | [] => True
  | (_, v) :: rest => Distinct v ∧ DistinctMembers rest

end

theorem distinctItems_iff : DistinctItems items ↔ ∀ v ∈ items, Distinct v := by
  induction items with
  | nil => simp [DistinctItems]
  | cons v rest ih => simp [DistinctItems, ih]

theorem distinctMembers_iff : DistinctMembers members ↔ ∀ m ∈ members, Distinct m.2 := by
  induction members with
  | nil => simp [DistinctMembers]
  | cons m rest ih => simp [DistinctMembers, ih]

mutual

/-- Every number in a value, at any depth. -/
def EachNumber (P : JsonNumber → Prop) : Json → Prop
  | .number n => P n
  | .array items => EachNumberItems P items
  | .object members => EachNumberMembers P members
  | _ => True

def EachNumberItems (P : JsonNumber → Prop) : List Json → Prop
  | [] => True
  | v :: rest => EachNumber P v ∧ EachNumberItems P rest

def EachNumberMembers (P : JsonNumber → Prop) : List (String × Json) → Prop
  | [] => True
  | (_, v) :: rest => EachNumber P v ∧ EachNumberMembers P rest

end

variable {P : JsonNumber → Prop}

theorem eachNumberItems_iff : EachNumberItems P items ↔ ∀ v ∈ items, EachNumber P v := by
  induction items with
  | nil => simp [EachNumberItems]
  | cons v rest ih => simp [EachNumberItems, ih]

theorem eachNumberMembers_iff : EachNumberMembers P members ↔ ∀ m ∈ members, EachNumber P m.2 := by
  induction members with
  | nil => simp [EachNumberMembers]
  | cons m rest ih => simp [EachNumberMembers, ih]

/-- A value of the source's type `Json`. -/
structure Typed (v : Json) : Prop where
  numbers : EachNumber (fun n => Json.Grammar.Number n.raw.toList) v
  distinct : Distinct v

end Shapes

section Characters

open Json.Grammar

def isNumberChar (c : Char) : Bool := c.isDigit || ['-', '+', '.', 'e', 'E'].contains c

theorem number_chars (number : Json.Grammar.Number text) :
    (∃ c rest, text = c :: rest) ∧ ∀ c ∈ text, isNumberChar c = true := by
  have digit : ∀ {c : Char}, c.isDigit = true → isNumberChar c = true := by
    intro c isDigit
    simp [isNumberChar, isDigit]
  have exponent : ∀ {e : Char}, e = 'e' ∨ e = 'E' → isNumberChar e = true := by
    rintro e (rfl | rfl) <;> decide
  cases number with
  | @mk sign int frac exp signed whole fraction scale =>
    have signs : ∀ c ∈ sign, isNumberChar c = true := by
      cases signed with
      | absent => rintro c ⟨⟩
      | minus => exact forall_mem_singleton.mpr (by decide)
    have ints : (∃ c rest, int = c :: rest) ∧ ∀ c ∈ int, isNumberChar c = true := by
      cases whole with
      | zero => exact ⟨⟨_, _, rfl⟩, forall_mem_singleton.mpr (by decide)⟩
      | digits first _ rest =>
        exact ⟨⟨_, _, rfl⟩, forall_mem_cons.mpr ⟨digit first, fun c held => digit (rest c held)⟩⟩
    have fracs : ∀ c ∈ frac, isNumberChar c = true := by
      cases fraction with
      | absent => rintro c ⟨⟩
      | present ds => exact forall_mem_cons.mpr ⟨by decide, fun c held => digit (ds.2 c held)⟩
    have exps : ∀ c ∈ exp, isNumberChar c = true := by
      cases scale with
      | absent => rintro c ⟨⟩
      | bare e ds => exact forall_mem_cons.mpr ⟨exponent e, fun c held => digit (ds.2 c held)⟩
      | signed e plus ds =>
        refine forall_mem_cons.mpr ⟨exponent e, forall_mem_cons.mpr ⟨?_, fun c held => ?_⟩⟩
        · obtain rfl | rfl := plus <;> decide
        · exact digit (ds.2 c held)
    constructor
    · obtain ⟨c, rest, rfl⟩ := ints.1
      cases sign with
      | nil => exact ⟨c, rest ++ frac ++ exp, rfl⟩
      | cons first others => exact ⟨first, others ++ (c :: rest) ++ frac ++ exp, rfl⟩
    · simp only [forall_mem_append]
      exact ⟨⟨⟨signs, ints.2⟩, fracs⟩, exps⟩

@[simp] theorem isIjsonString_append (first second : List Char) :
    isIjsonString (first ++ second) = (isIjsonString first && isIjsonString second) := by
  simp [isIjsonString]

@[simp] theorem isIjsonString_cons (c : Char) (rest : List Char) :
    isIjsonString (c :: rest) = (!isNoncharacter c && isIjsonString rest) := by
  simp [isIjsonString]

theorem enclosed_ijson (opens : isNoncharacter first = false) (closes : isNoncharacter last = false)
    (fine : isIjsonString body = true) : isIjsonString (first :: (body ++ [last])) = true := by
  have ends : isIjsonString [last] = true := by simp [isIjsonString, closes]
  simp [opens, fine, ends]

theorem ws_ijson (white : Ws text) : isIjsonString text = true := by
  refine Ascii.ijson fun c held => ?_
  have space := white c held
  simp only [Json.Parser.isWs, Bool.or_eq_true, beq_iff_eq] at space
  obtain ((rfl | rfl) | rfl) | rfl := space <;> decide

theorem number_ascii (number : Number text) : ∀ c ∈ text, c.toNat < 128 := by
  intro c held
  have known := (number_chars number).2 c held
  simp only [isNumberChar, Bool.or_eq_true, contains_iff_mem, mem_cons, not_mem_nil, or_false] at known
  obtain digit | rfl | rfl | rfl | rfl | rfl := known
  · exact isDigit_ascii digit
  all_goals decide

theorem number_ijson (number : Number text) : isIjsonString text = true :=
  Ascii.ijson (number_ascii number)

theorem hexDigit_ascii (isHex : (Json.Parser.hexDigit c).isSome) : c.toNat < 128 := by
  revert isHex
  fun_cases Json.Parser.hexDigit <;> rintro ⟨⟩
  · next digit => exact isDigit_ascii digit
  · next lower =>
    simp only [Bool.and_eq_true, decide_eq_true_eq, Char.le_def, UInt32.le_iff_toNat_le] at lower
    exact Nat.lt_of_le_of_lt lower.2 (by decide)
  · next upper =>
    simp only [Bool.and_eq_true, decide_eq_true_eq, Char.le_def, UInt32.le_iff_toNat_le] at upper
    exact Nat.lt_of_le_of_lt upper.2 (by decide)

theorem hex4_digits (hex : Hex4 h n) : ∀ c ∈ h, (Json.Parser.hexDigit c).isSome := by
  have fold : ∀ (l : List Char) (v n : Nat),
      l.foldlM (fun v c => (Json.Parser.hexDigit c).map (v * 16 + ·)) v = some n →
        ∀ c ∈ l, (Json.Parser.hexDigit c).isSome := by
    intro l
    induction l with
    | nil => rintro _ _ _ c ⟨⟩
    | cons c others ih =>
      intro v n value
      obtain ⟨w, first, value⟩ := Option.bind_eq_some_iff.mp value
      obtain ⟨d, digit, -⟩ := Option.map_eq_some_iff.mp first
      exact forall_mem_cons.mpr ⟨by rw [digit]; rfl, ih w n value⟩
  exact fold h 0 n hex.value

theorem hex4_ijson (hex : Hex4 h n) : isIjsonString h = true :=
  Ascii.ijson fun c held => hexDigit_ascii (hex4_digits hex c held)

theorem simpleEscape_ascii (named : simpleEscape e = some c) : e.toNat < 128 := by
  by_contra large
  have different : ∀ d : Char, d.toNat < 128 → e ≠ d := by
    rintro d small rfl
    exact large small
  simp [simpleEscape, different] at named

theorem spelled_ijson (spelled : Spelled u c) (fine : isNoncharacter c = false) : isIjsonString u = true := by
  have slash : isNoncharacter '\\' = false := by decide
  have mark : isNoncharacter 'u' = false := by decide
  cases spelled with
  | plain => simp [fine, isIjsonString]
  | @simple e _ named =>
    refine Ascii.ijson (forall_mem_cons.mpr ⟨by decide, forall_mem_singleton.mpr ?_⟩)
    exact simpleEscape_ascii named
  | unicode hex => simp [slash, mark, hex4_ijson hex]
  | pair high _ low _ => simp [slash, mark, hex4_ijson high, hex4_ijson low]

theorem str_ijson (str : Str text s) : isIjsonString text = true := by
  have body : ∀ {body cs : List Char}, Body body cs → isIjsonString cs = true → isIjsonString body = true := by
    intro body cs spelled fine
    induction spelled with
    | nil => rfl
    | cons first _ ih =>
      simp only [isIjsonString_cons, Bool.and_eq_true, Bool.not_eq_true'] at fine
      simp [spelled_ijson first fine.1, ih fine.2]
  obtain ⟨⟨spelled⟩, fine⟩ := str
  exact enclosed_ijson (by decide) (by decide) (body spelled fine)

theorem name_ijson (name : Name text k) : isIjsonString text = true := by
  have colon : isIjsonString [':'] = true := by decide
  cases name with
  | mk before str after => simp [ws_ijson before, str_ijson str, ws_ijson after, colon]

end Characters

section Derivations

open Json.Grammar

mutual

theorem value_ijson : {text : List Char} → {v : Json} → Value text v → isIjsonString text = true
  | _, _, .null => by decide
  | _, _, .true => by decide
  | _, _, .false => by decide
  | _, _, .number derived => number_ijson derived
  | _, _, .string str => str_ijson str
  | _, _, .emptyArray white => enclosed_ijson (by decide) (by decide) (ws_ijson white)
  | _, _, .array elements => enclosed_ijson (by decide) (by decide) (elements_ijson elements)
  | _, _, .emptyObject white => enclosed_ijson (by decide) (by decide) (ws_ijson white)
  | _, _, .object members _ => enclosed_ijson (by decide) (by decide) (members_ijson members)

theorem element_ijson : {text : List Char} → {v : Json} → Element text v → isIjsonString text = true
  | _, _, .mk before derived after => by simp [ws_ijson before, value_ijson derived, ws_ijson after]

theorem elements_ijson : {text : List Char} → {items : List Json} → Elements text items →
    isIjsonString text = true
  | _, _, .last derived => element_ijson derived
  | _, _, .more derived rest => by simp [element_ijson derived, elements_ijson rest, isNoncharacter]

theorem members_ijson : {text : List Char} → {members : List (String × Json)} →
    Members text members → isIjsonString text = true
  | _, _, .last name derived => by simp [name_ijson name, element_ijson derived]
  | _, _, .more name derived rest => by
      simp [name_ijson name, element_ijson derived, members_ijson rest, isNoncharacter]

end

end Derivations

section Checked

open Json (WellFormed WellFormedItems WellFormedMembers writeString escapeChar itemsText membersText)

theorem wellFormedItems_iff : WellFormedItems items ↔ ∀ v ∈ items, WellFormed v := by
  induction items with
  | nil => simp [WellFormedItems]
  | cons v rest ih => simp [WellFormedItems, ih]

theorem wellFormedMembers_iff :
    WellFormedMembers members ↔ ∀ m ∈ members, isIjsonString m.1.toList = true ∧ WellFormed m.2 := by
  induction members with
  | nil => simp [WellFormedMembers]
  | cons m rest ih => simp [WellFormedMembers, ih, and_assoc]

/-- A noncharacter is written as it is. -/
theorem wellFormed_object_iff : WellFormed (.object members) ↔
    (members.map (·.1)).Nodup ∧ ∀ m ∈ members, isIjsonString m.1.toList = true ∧ WellFormed m.2 := by
  rw [← wellFormedMembers_iff]
  rfl

theorem mem_insert (held : m ∈ JsonObject.insert members name v) : m ∈ members ∨ m = (name, v) := by
  induction members with
  | nil => exact .inr (mem_singleton.mp held)
  | cons first rest ih =>
    unfold JsonObject.insert at held
    split at held
    · next here =>
      obtain rfl | held := mem_cons.mp held
      · exact .inr (Prod.ext (beq_iff_eq.mp here) rfl)
      · exact .inl (mem_cons_of_mem _ held)
    · obtain rfl | held := mem_cons.mp held
      · exact .inl mem_cons_self
      · exact (ih held).imp_left (mem_cons_of_mem _)

theorem insert_names (members : JsonObject) (name : String) (v : Json) :
    (JsonObject.insert members name v).map (·.1) =
      if name ∈ members.map (·.1) then members.map (·.1) else members.map (·.1) ++ [name] := by
  induction members with
  | nil => simp [JsonObject.insert]
  | cons first rest ih =>
    rw [JsonObject.insert]
    by_cases here : first.1 = name
    · simp [here]
    · rw [if_neg (by simpa using here), map_cons, ih, map_cons]
      by_cases later : name ∈ rest.map (·.1)
      · rw [if_pos later, if_pos (mem_cons_of_mem _ later)]
      · have absent : name ∉ first.1 :: rest.map (·.1) := by simpa [Ne.symm here] using later
        rw [if_neg later, if_neg absent, cons_append]

theorem insert_names_nodup (distinct : (members.map (·.1)).Nodup) :
    ((JsonObject.insert members name v).map (·.1)).Nodup := by
  rw [insert_names]
  split
  · exact distinct
  · next absent => exact distinct.append (nodup_singleton name) (disjoint_singleton.mpr absent)

theorem wellFormed_insert (formed : WellFormed (.object members)) (fine : isIjsonString name.toList = true)
    (value : WellFormed v) : WellFormed (.object (JsonObject.insert members name v)) := by
  obtain ⟨distinct, each⟩ := wellFormed_object_iff.mp formed
  refine wellFormed_object_iff.mpr ⟨insert_names_nodup distinct, fun m held => ?_⟩
  obtain held | rfl := mem_insert held
  · exact each m held
  · exact ⟨fine, value⟩

theorem writeString_ijson (fine : isIjsonString (writeString s) = true) : isIjsonString s.toList = true := by
  have each : ∀ c, isIjsonString (escapeChar c) = true → isNoncharacter c = false := by
    intro c fine
    cases bad : isNoncharacter c with
    | false => rfl
    | true =>
      have large : ¬ c.toNat < 128 := fun small => by
        rw [isNoncharacter_ascii small] at bad
        cases bad
      have different : ∀ d : Char, d.toNat < 128 → c ≠ d := by
        rintro d small rfl
        exact large small
      have plain : escapeChar c = [c] := by
        have printable : ¬ c.toNat < 32 := by omega
        simp [escapeChar, different, printable]
      simp [plain, bad] at fine
  have body : ∀ cs : List Char, isIjsonString (cs.flatMap escapeChar) = true → isIjsonString cs = true := by
    intro cs fine
    induction cs with
    | nil => rfl
    | cons c rest ih =>
      rw [flatMap_cons, isIjsonString_append, Bool.and_eq_true] at fine
      simp [each c fine.1, ih fine.2]
  rw [writeString, isIjsonString_cons, isIjsonString_append] at fine
  simp only [Bool.and_eq_true] at fine
  exact body s.toList fine.2.1

theorem itemsText_ijson (fine : isIjsonString (itemsText first items) = true) :
    ∀ v ∈ items, isIjsonString v.text = true := by
  induction items generalizing first with
  | nil => rintro v ⟨⟩
  | cons v rest ih =>
    rw [itemsText] at fine
    simp only [isIjsonString_append, Bool.and_eq_true] at fine
    exact forall_mem_cons.mpr ⟨fine.1.2, ih fine.2⟩

theorem membersText_ijson (fine : isIjsonString (membersText first members) = true) :
    ∀ m ∈ members, isIjsonString (writeString m.1) = true ∧ isIjsonString m.2.text = true := by
  induction members generalizing first with
  | nil => rintro m ⟨⟩
  | cons m rest ih =>
    rw [membersText] at fine
    simp only [isIjsonString_append, isIjsonString_cons, Bool.and_eq_true] at fine
    exact forall_mem_cons.mpr ⟨⟨fine.1.1.2, fine.1.2.2⟩, ih fine.2⟩

theorem wellFormed_of_ijson (v : Json) : Typed v → isIjsonString v.text = true → WellFormed v := by
  induction v using Json.induct with
  | null | bool => exact fun _ _ => trivial
  | number n => exact fun typed _ => typed.numbers
  | string s => exact fun _ fine => writeString_ijson fine
  | array items each =>
    intro typed fine
    rw [Json.text, isIjsonString_cons, isIjsonString_append] at fine
    simp only [Bool.and_eq_true] at fine
    have numbers := eachNumberItems_iff.mp typed.numbers
    have distinct := distinctItems_iff.mp typed.distinct
    refine wellFormedItems_iff.mpr fun v held => ?_
    exact each v held ⟨numbers v held, distinct v held⟩ (itemsText_ijson fine.2.1 v held)
  | object members each =>
    intro typed fine
    rw [Json.text, isIjsonString_cons, isIjsonString_append] at fine
    simp only [Bool.and_eq_true] at fine
    have numbers := eachNumberMembers_iff.mp typed.numbers
    have distinct := distinctMembers_iff.mp typed.distinct.2
    refine ⟨typed.distinct.1, wellFormedMembers_iff.mpr fun m held => ?_⟩
    obtain ⟨name, value⟩ := membersText_ijson fine.2.1 m held
    exact ⟨writeString_ijson name, each m held ⟨numbers m held, distinct m held⟩ value⟩

theorem wellFormed_of_parse (typed : Typed v)
    (read : Json.parse (Utf8.encode (Json.toCompact v)) = .ok w) : WellFormed v := by
  obtain ⟨text, decoded, derived⟩ := Json.parse_derives read
  rw [← Utf8.encode_injective decoded, Json.toCompact_eq_text] at derived
  exact wellFormed_of_ijson v typed (element_ijson derived)

end Checked

end Oac
