import Oac.Json.Parse

/-! The I-JSON grammar as a recursive reference for the reader: RFC 8259 text, with every name and
string free of noncharacters and no member name twice in an object. A text derives a value that
keeps every number as written. -/

namespace Oac.Json

namespace Grammar

def Ws (text : List Char) : Prop := ∀ c ∈ text, Parser.isWs c = true

def Digits (text : List Char) : Prop := text ≠ [] ∧ ∀ c ∈ text, c.isDigit = true

inductive Sign : List Char → Prop where
  | absent : Sign []
  | minus : Sign ['-']

inductive Integer : List Char → Prop where
  | zero : Integer ['0']
  | digits {first : Char} {rest : List Char} : first.isDigit = true → first ≠ '0' →
      (∀ c ∈ rest, c.isDigit = true) → Integer (first :: rest)

inductive Fraction : List Char → Prop where
  | absent : Fraction []
  | present {ds : List Char} : Digits ds → Fraction ('.' :: ds)

inductive Exponent : List Char → Prop where
  | absent : Exponent []
  | bare {e : Char} {ds : List Char} : e = 'e' ∨ e = 'E' → Digits ds → Exponent (e :: ds)
  | signed {e sign : Char} {ds : List Char} :
      e = 'e' ∨ e = 'E' → sign = '+' ∨ sign = '-' → Digits ds → Exponent (e :: sign :: ds)

/-- `-?(0|[1-9][0-9]*)(\.[0-9]+)?([eE][+-]?[0-9]+)?` -/
inductive Number : List Char → Prop where
  | mk {sign int frac exp : List Char} : Sign sign → Integer int → Fraction frac → Exponent exp →
      Number (sign ++ int ++ frac ++ exp)

def simpleEscape (e : Char) : Option Char :=
  if e == '"' then some '"'
  else if e == '\\' then some '\\'
  else if e == '/' then some '/'
  else if e == 'b' then some (Char.ofNat 8)
  else if e == 'f' then some (Char.ofNat 12)
  else if e == 'n' then some '\n'
  else if e == 'r' then some '\r'
  else if e == 't' then some '\t'
  else none

abbrev IsHighSurrogate (n : Nat) : Prop := 0xD800 ≤ n ∧ n ≤ 0xDBFF

abbrev IsLowSurrogate (n : Nat) : Prop := 0xDC00 ≤ n ∧ n ≤ 0xDFFF

/-- The four digits of a unicode escape and their value. -/
structure Hex4 (h : List Char) (n : Nat) : Prop where
  length : h.length = 4
  value : Parser.hexValue h = some n

/-- One character of a string, as written. A surrogate stands only in a pair of escapes. -/
inductive Spelled : List Char → Char → Prop where
  | plain {c : Char} : 0x20 ≤ c.toNat → c ≠ '"' → c ≠ '\\' → Spelled [c] c
  | simple {e c : Char} : simpleEscape e = some c → Spelled ['\\', e] c
  | unicode {h : List Char} {n : Nat} : Hex4 h n → ¬ IsHighSurrogate n → ¬ IsLowSurrogate n →
      Spelled ('\\' :: 'u' :: h) (Char.ofNat n)
  | pair {h l : List Char} {hi lo : Nat} : Hex4 h hi → IsHighSurrogate hi → Hex4 l lo → IsLowSurrogate lo →
      Spelled ('\\' :: 'u' :: (h ++ '\\' :: 'u' :: l))
        (Char.ofNat (0x10000 + (hi - 0xD800) * 0x400 + (lo - 0xDC00)))

inductive Body : List Char → List Char → Prop where
  | nil : Body [] []
  | cons {u text : List Char} {c : Char} {cs : List Char} : Spelled u c → Body text cs →
      Body (u ++ text) (c :: cs)

/-- A quoted string and the characters it stands for. -/
inductive Quoted : List Char → String → Prop where
  | mk {body : List Char} {s : String} : Body body s.toList → Quoted ('"' :: (body ++ ['"'])) s

structure Str (text : List Char) (s : String) : Prop where
  quoted : Quoted text s
  ijson : isIjsonString s.toList = true

/-- A member name up to and with its colon. -/
inductive Name : List Char → String → Prop where
  | mk {before text after : List Char} {k : String} : Ws before → Str text k → Ws after →
      Name (before ++ text ++ after ++ [':']) k

mutual

inductive Value : List Char → Json → Prop where
  | null : Value "null".toList .null
  | true : Value "true".toList (.bool true)
  | false : Value "false".toList (.bool false)
  | number {text : List Char} : Number text → Value text (.number ⟨String.ofList text⟩)
  | string {text : List Char} {s : String} : Str text s → Value text (.string s)
  | emptyArray {w : List Char} : Ws w → Value ('[' :: (w ++ [']'])) (.array [])
  | array {body : List Char} {items : List Json} : Elements body items →
      Value ('[' :: (body ++ [']'])) (.array items)
  | emptyObject {w : List Char} : Ws w → Value ('\x7b' :: (w ++ ['\x7d'])) (.object [])
  | object {body : List Char} {members : List (String × Json)} : Members body members →
      (members.map (·.1)).Nodup → Value ('\x7b' :: (body ++ ['\x7d'])) (.object members)

inductive Element : List Char → Json → Prop where
  | mk {before text after : List Char} {v : Json} : Ws before → Value text v → Ws after →
      Element (before ++ text ++ after) v

inductive Elements : List Char → List Json → Prop where
  | last {text : List Char} {v : Json} : Element text v → Elements text [v]
  | more {text rest : List Char} {v : Json} {items : List Json} :
      Element text v → Elements rest items → Elements (text ++ ',' :: rest) (v :: items)

inductive Members : List Char → List (String × Json) → Prop where
  | last {name text : List Char} {k : String} {v : Json} : Name name k → Element text v →
      Members (name ++ text) [(k, v)]
  | more {name text rest : List Char} {k : String} {v : Json} {members : List (String × Json)} : Name name k →
      Element text v → Members rest members → Members (name ++ text ++ ',' :: rest) ((k, v) :: members)

end

theorem hexDigit_lt (read : Parser.hexDigit c = some d) : d < 16 := by
  revert read
  fun_cases Parser.hexDigit <;> rintro ⟨⟩
  · next isDigit =>
    simp only [Char.isDigit, Bool.and_eq_true, decide_eq_true_eq, UInt32.le_iff_toNat_le] at isDigit
    change c.toNat - 48 < 16
    have high : c.toNat ≤ 57 := isDigit.2
    omega
  · next isLower =>
    simp only [Bool.and_eq_true, decide_eq_true_eq, Char.le_def, UInt32.le_iff_toNat_le] at isLower
    have high : c.toNat ≤ 102 := isLower.2
    change c.toNat - 97 + 10 < 16
    omega
  · next isUpper =>
    simp only [Bool.and_eq_true, decide_eq_true_eq, Char.le_def, UInt32.le_iff_toNat_le] at isUpper
    have high : c.toNat ≤ 70 := isUpper.2
    change c.toNat - 65 + 10 < 16
    omega

theorem Hex4.lt (hex : Hex4 h n) : n < 0x10000 := by
  obtain ⟨length, value⟩ := hex
  match h, length with
  | [a, b, c, d], _ =>
    simp only [Parser.hexValue, List.foldlM_cons, List.foldlM_nil, Option.bind_eq_bind,
      Option.bind_eq_some_iff, Option.map_eq_some_iff, Option.pure_def, Option.some.injEq] at value
    obtain ⟨_, ⟨va, ha, rfl⟩, _, ⟨vb, hb, rfl⟩, _, ⟨vc, hc, rfl⟩, _, ⟨vd, hd, rfl⟩, rfl⟩ := value
    have := hexDigit_lt ha
    have := hexDigit_lt hb
    have := hexDigit_lt hc
    have := hexDigit_lt hd
    omega

theorem Spelled.length_pos (spelled : Spelled u c) : 0 < u.length := by
  cases spelled <;> simp

theorem Body.length_le (spelled : Body body cs) : cs.length ≤ body.length := by
  induction spelled with
  | nil => simp
  | cons first _ ih =>
    have positive := first.length_pos
    simp only [List.length_cons, List.length_append]
    omega

end Grammar

/-- The octets of an I-JSON message that derives `v`. -/
def Grammar.Message (octets : List UInt8) (v : Json) : Prop :=
  ∃ text, octets = Utf8.encode text ∧ Grammar.Element text v

end Oac.Json
