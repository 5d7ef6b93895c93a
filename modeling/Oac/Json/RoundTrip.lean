import Oac.Json.Compact
import Oac.Json.Soundness

/-! What the compact writer writes, the reader reads back: the text of a well-formed value derives
the value, and a value that was read is well formed. -/

namespace Oac.Json

open List

mutual

/-- A value that an I-JSON text can stand for: numbers of the grammar, strings and names without
noncharacters, and no name twice in an object. -/
def WellFormed : Json → Prop
  | number n => Grammar.Number n.raw.toList
  | string s => isIjsonString s.toList = true
  | array items => WellFormedItems items
  | object members => (members.map (·.1)).Nodup ∧ WellFormedMembers members
  | null | bool _ => True

def WellFormedItems : List Json → Prop
  | [] => True
  | v :: rest => WellFormed v ∧ WellFormedItems rest

def WellFormedMembers : List (String × Json) → Prop
  | [] => True
  | (k, v) :: rest => isIjsonString k.toList = true ∧ WellFormed v ∧ WellFormedMembers rest

end

section Strings

theorem hexDigit_digitChar (small : n < 16) : Parser.hexDigit n.digitChar = some n := by
  have every : ∀ n : Fin 16, Parser.hexDigit (Nat.digitChar n) = some n.val := by decide
  exact every ⟨n, small⟩

theorem lowerHex4_spells (small : n < 0x10000) : Grammar.Hex4 (lowerHex4 n) n := by
  have first : n / 4096 % 16 < 16 := by omega
  have second : n / 256 % 16 < 16 := by omega
  have third : n / 16 % 16 < 16 := by omega
  have fourth : n % 16 < 16 := by omega
  refine ⟨rfl, ?_⟩
  simp only [Parser.hexValue, lowerHex4, map_cons, map_nil, foldlM_cons, foldlM_nil,
    hexDigit_digitChar first, hexDigit_digitChar second, hexDigit_digitChar third, hexDigit_digitChar fourth,
    Option.map_some, Option.bind_eq_bind, Option.bind_some, Option.pure_def, Option.some.injEq]
  omega

theorem escapeChar_spells (c : Char) : Grammar.Spelled (escapeChar c) c := by
  fun_cases escapeChar
  iterate 7
    · next same =>
      rw [beq_iff_eq.mp same]
      exact .simple (by decide)
  · next control =>
    have spelled : Grammar.Spelled ('\\' :: 'u' :: lowerHex4 c.toNat) (Char.ofNat c.toNat) :=
      .unicode (lowerHex4_spells (by omega)) (by omega) (by omega)
    rw [Char.ofNat_toNat] at spelled
    exact spelled
  · next notQuote notSlash _ _ _ _ _ visible =>
    exact .plain (by omega) (by simpa using notQuote) (by simpa using notSlash)

theorem writeString_quoted (s : String) : Grammar.Quoted (writeString s) s := by
  have body : ∀ cs : List Char, Grammar.Body (cs.flatMap escapeChar) cs := by
    intro cs
    induction cs with
    | nil => exact .nil
    | cons c rest ih => exact .cons (escapeChar_spells c) ih
  exact .mk (body s.toList)

end Strings

section Writing

theorem itemsText_more (v : Json) (rest : List Json) :
    itemsText false (v :: rest) = ',' :: itemsText true (v :: rest) := by
  simp [itemsText, comma]

theorem membersText_more (m : String × Json) (rest : List (String × Json)) :
    membersText false (m :: rest) = ',' :: membersText true (m :: rest) := by
  simp [membersText, comma]

theorem element_of_value (derived : Grammar.Value written v) : Grammar.Element written v := by
  have nothing : Grammar.Ws [] := fun c held => by cases held
  have padded := Grammar.Element.mk nothing derived nothing
  rw [append_nil] at padded
  exact padded

theorem name_of_str (ijson : isIjsonString k.toList = true) : Grammar.Name (writeString k ++ [':']) k := by
  have nothing : Grammar.Ws [] := fun c held => by cases held
  have named := Grammar.Name.mk nothing ⟨writeString_quoted k, ijson⟩ nothing
  rw [append_nil] at named
  exact named

mutual

theorem text_derives : (v : Json) → WellFormed v → Grammar.Value (text v) v
  | .null, _ => .null
  | .bool true, _ => .true
  | .bool false, _ => .false
  | .number n, formed => by
      have derived : Grammar.Value n.raw.toList (.number ⟨String.ofList n.raw.toList⟩) := .number formed
      rw [String.ofList_toList] at derived
      exact derived
  | .string s, formed => .string ⟨writeString_quoted s, formed⟩
  | .array [], _ => .emptyArray (w := []) (fun c held => by cases held)
  | .array (v :: rest), formed => by
      rw [text]
      exact .array (itemsText_derives (v :: rest) (by simp) formed)
  | .object [], _ => .emptyObject (w := []) (fun c held => by cases held)
  | .object (m :: rest), formed => by
      rw [text]
      exact .object (membersText_derives (m :: rest) (by simp) formed.2) formed.1

theorem itemsText_derives : (items : List Json) → items ≠ [] → WellFormedItems items →
    Grammar.Elements (itemsText true items) items
  | [], some_, _ => absurd rfl some_
  | [v], _, formed => by
      rw [itemsText, itemsText, append_nil]
      exact .last (element_of_value (text_derives v formed.1))
  | v :: w :: rest, _, formed => by
      rw [itemsText, itemsText_more]
      exact .more (element_of_value (text_derives v formed.1)) (itemsText_derives (w :: rest) (by simp) formed.2)

theorem membersText_derives : (members : List (String × Json)) → members ≠ [] →
    WellFormedMembers members → Grammar.Members (membersText true members) members
  | [], some_, _ => absurd rfl some_
  | [(k, v)], _, formed => by
      have derived := Grammar.Members.last (name_of_str formed.1) (element_of_value (text_derives v formed.2.1))
      rw [membersText, membersText, append_nil]
      simpa [comma] using derived
  | (k, v) :: m :: rest, _, formed => by
      have derived := Grammar.Members.more (name_of_str formed.1) (element_of_value (text_derives v formed.2.1))
        (membersText_derives (m :: rest) (by simp) formed.2.2)
      rw [membersText, membersText_more]
      simpa [comma] using derived

end

theorem parse_toCompact (formed : WellFormed v) : parse (Utf8.encode (toCompact v)) = .ok v := by
  rw [toCompact_eq_text]
  exact parse_encode (element_of_value (text_derives v formed))

end Writing

section Reading

mutual

theorem value_wellFormed : {written : List Char} → {v : Json} → Grammar.Value written v → WellFormed v
  | _, _, .null => trivial
  | _, _, .true => trivial
  | _, _, .false => trivial
  | _, _, .number derived => by
      rw [WellFormed, String.toList_ofList]
      exact derived
  | _, _, .string str => str.ijson
  | _, _, .emptyArray _ => trivial
  | _, _, .array elements => elements_wellFormed elements
  | _, _, .emptyObject _ => ⟨nodup_nil, trivial⟩
  | _, _, .object members distinct => ⟨distinct, members_wellFormed members⟩

theorem element_wellFormed : {written : List Char} → {v : Json} → Grammar.Element written v → WellFormed v
  | _, _, .mk _ derived _ => value_wellFormed derived

theorem elements_wellFormed : {written : List Char} → {items : List Json} →
    Grammar.Elements written items → WellFormedItems items
  | _, _, .last derived => ⟨element_wellFormed derived, trivial⟩
  | _, _, .more derived rest => ⟨element_wellFormed derived, elements_wellFormed rest⟩

theorem members_wellFormed : {written : List Char} → {members : List (String × Json)} →
    Grammar.Members written members → WellFormedMembers members
  | _, _, .last (.mk _ str _) derived => ⟨str.ijson, element_wellFormed derived, trivial⟩
  | _, _, .more (.mk _ str _) derived rest => ⟨str.ijson, element_wellFormed derived, members_wellFormed rest⟩

end

theorem parse_wellFormed (read : parse octets = .ok v) : WellFormed v := by
  obtain ⟨_, _, derived⟩ := parse_derives read
  exact element_wellFormed derived

end Reading

end Oac.Json
