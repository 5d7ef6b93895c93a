import Oac.Foundation.Utf8
import Oac.Json.Value

/-! The strict I-JSON reader of `core/src/json.rs`. It works on the decoded characters and keeps
the octet offset the source reports in its errors. Open containers are an explicit stack; the
loop takes a bound on its rounds, and `documentFrom_isSome` shows that the bound used suffices. -/

namespace Oac

inductive JsonError where
  | notUtf8
  | syntaxError (offset : Nat) (reason : String)
  | forbiddenCodePoint
  | duplicateMember (name : String)
  deriving DecidableEq

def isNoncharacter (c : Char) : Bool :=
  let u := c.toNat
  (decide (0xFDD0 ≤ u) && decide (u ≤ 0xFDEF)) || decide (u % 0x10000 ≥ 0xFFFE)

def isIjsonString (s : List Char) : Bool := !s.any isNoncharacter

namespace Json

/-- The unread characters and the octet offset of the first of them. -/
structure Parser where
  rest : List Char
  i : Nat

/-- A container the reader has opened and not yet closed. The source's set of names seen is the
set of names in `members`. -/
inductive Open where
  | array (items : List Json)
  | object (members : List (String × Json)) (name : String)

namespace Parser

def err {α : Type} (p : Parser) (reason : String) : Except JsonError α :=
  .error (.syntaxError p.i reason)

variable (p : Parser)

def peek : Option Char := p.rest.head?

def next : Parser := ⟨p.rest.tail, p.i + 1⟩

def isWs (c : Char) : Bool := c == ' ' || c == '\t' || c == '\n' || c == '\r'

def skip (cls : Char → Bool) (p : Parser) : Parser :=
  ⟨p.rest.dropWhile cls, p.i + (p.rest.takeWhile cls).length⟩

def ws : Parser := p.skip isWs

def hexDigit (c : Char) : Option Nat :=
  if c.isDigit then some (c.toNat - '0'.toNat)
  else if decide ('a' ≤ c) && decide (c ≤ 'f') then some (c.toNat - 'a'.toNat + 10)
  else if decide ('A' ≤ c) && decide (c ≤ 'F') then some (c.toNat - 'A'.toNat + 10)
  else none

def hexValue (h : List Char) : Option Nat := h.foldlM (fun v c => (hexDigit c).map (v * 16 + ·)) 0

def hex4 : Except JsonError (Nat × Parser) :=
  let h := p.rest.take 4
  if h.length < 4 then p.err "bad escape"
  else match hexValue h with
    | none => p.err "bad escape"
    | some v => .ok (v, ⟨p.rest.drop 4, p.i + 4⟩)

/-- The code point of a `\u` escape whose digits start at `p`, with the low surrogate escape that
has to follow a high one. -/
def unicodeEscape : Except JsonError (Nat × Parser) := do
  let (hi, p) ← p.hex4
  if 0xD800 ≤ hi ∧ hi ≤ 0xDBFF then
    if p.rest.take 2 ≠ ['\\', 'u'] then .error .forbiddenCodePoint
    else
      let (lo, p) ← hex4 ⟨p.rest.drop 2, p.i + 2⟩
      if 0xDC00 ≤ lo ∧ lo ≤ 0xDFFF then
        .ok (0x10000 + (hi - 0xD800) * 0x400 + (lo - 0xDC00), p)
      else .error .forbiddenCodePoint
  else if 0xDC00 ≤ hi ∧ hi ≤ 0xDFFF then .error .forbiddenCodePoint
  else .ok (hi, p)

/-- The character an escape stands for, read at the character after the backslash. -/
def escape : Except JsonError (Char × Parser) :=
  match p.rest with
  | [] => p.err "bad escape"
  | e :: _ =>
    let p := p.next
    if e == '"' then .ok ('"', p)
    else if e == '\\' then .ok ('\\', p)
    else if e == '/' then .ok ('/', p)
    else if e == 'b' then .ok (Char.ofNat 8, p)
    else if e == 'f' then .ok (Char.ofNat 12, p)
    else if e == 'n' then .ok ('\n', p)
    else if e == 'r' then .ok ('\r', p)
    else if e == 't' then .ok ('\t', p)
    else if e == 'u' then do
      let (cp, p) ← p.unicodeEscape
      if cp.isValidChar then .ok (Char.ofNat cp, p) else .error .forbiddenCodePoint
    else p.err "bad escape"

/-- The rest of a string after its opening quote; one round per character or escape. -/
def stringFrom : Nat → List Char → Parser → Option (Except JsonError (List Char × Parser))
  | 0, _, _ => none
  | fuel + 1, out, p =>
    match p.rest with
    | [] => some (p.err "unterminated string")
    | c :: rest =>
      if c == '"' then some (.ok (out, p.next))
      else if c == '\\' then
        match p.next.escape with
        | .error e => some (.error e)
        | .ok (decoded, p) => stringFrom fuel (out ++ [decoded]) p
      else if c.toNat < 0x20 then some (p.err "control character in string")
      else stringFrom fuel (out ++ [c]) ⟨rest, p.i + c.utf8Size⟩

def string : Except JsonError (String × Parser) := do
  let p := p.next
  let (out, p) ← (stringFrom (p.rest.length + 1) [] p).getD (p.err "unterminated string")
  if isIjsonString out then .ok (String.ofList out, p) else .error .forbiddenCodePoint

def memberName : Except JsonError (String × Parser) := do
  let p := p.ws
  if p.peek ≠ some '"' then p.err "expected member name"
  else
    let (name, p) ← p.string
    let p := p.ws
    if p.peek ≠ some ':' then p.err "expected :" else .ok (name, p.next)

def literal (word : String) (v : Json) : Except JsonError (Json × Parser) :=
  let w := word.toList
  if p.rest.take w.length = w then .ok (v, ⟨p.rest.drop w.length, p.i + w.length⟩)
  else p.err "bad literal"

def digits1 (reason : String) : Except JsonError Parser :=
  let q := p.skip Char.isDigit
  if q.i = p.i then q.err reason else .ok q

def integerPart : Except JsonError Parser :=
  match p.peek with
  | some c =>
    if c == '0' then .ok p.next
    else if c.isDigit then .ok (p.skip Char.isDigit)
    else p.err "bad number"
  | none => p.err "bad number"

def fractionPart : Except JsonError Parser :=
  if p.peek = some '.' then p.next.digits1 "bad number fraction" else .ok p

def exponentPart : Except JsonError Parser :=
  if p.peek = some 'e' ∨ p.peek = some 'E' then
    let p := p.next
    let p := if p.peek = some '+' ∨ p.peek = some '-' then p.next else p
    p.digits1 "bad number exponent"
  else .ok p

/-- `-?(0|[1-9][0-9]*)(\.[0-9]+)?([eE][+-]?[0-9]+)?`, kept as written. -/
def number : Except JsonError (Json × Parser) := do
  let start := p
  let p := if p.peek = some '-' then p.next else p
  let p ← p.integerPart
  let p ← p.fractionPart
  let p ← p.exponentPart
  .ok (.number ⟨String.ofList (start.rest.take (p.i - start.i))⟩, p)

/-- A value whose first character has been read: complete, or a container left open. -/
inductive Begun where
  | complete (v : Json) (p : Parser)
  | opened (container : Open) (p : Parser)

def beginArray : Except JsonError Begun :=
  let p := p.next.ws
  if p.peek = some ']' then .ok (.complete (.array []) p.next) else .ok (.opened (.array []) p)

def beginObject : Except JsonError Begun := do
  let p := p.next.ws
  if p.peek = some '\x7d' then .ok (.complete (.object []) p.next)
  else
    let (name, p) ← p.memberName
    .ok (.opened (.object [] name) p)

def beginValue : Except JsonError Begun :=
  let p := p.ws
  let complete := fun (r : Json × Parser) => Begun.complete r.1 r.2
  match p.peek with
  | none => p.err "unexpected end"
  | some c =>
    if c == '[' then p.beginArray
    else if c == '\x7b' then p.beginObject
    else if c == '"' then p.string.map fun r => .complete (.string r.1) r.2
    else if c == 't' then (p.literal "true" (.bool true)).map complete
    else if c == 'f' then (p.literal "false" (.bool false)).map complete
    else if c == 'n' then (p.literal "null" .null).map complete
    else if c == '-' || c.isDigit then p.number.map complete
    else p.err "unexpected character"

/-- A complete value put into the containers it closes: the whole document, or more to read. -/
inductive Added where
  | whole (v : Json) (p : Parser)
  | more (stack : List Open) (p : Parser)

/-- Add a complete value to the innermost open container, closing every container that ends
here. -/
def addValue : List Open → Json → Parser → Except JsonError Added
  | [], v, p => .ok (.whole v p)
  | .array items :: stack, v, p =>
    let items := items ++ [v]
    let p := p.ws
    if p.peek = some ',' then .ok (.more (.array items :: stack) p.next)
    else if p.peek = some ']' then addValue stack (.array items) p.next
    else p.err "expected , or ]"
  | .object members name :: stack, v, p =>
    if members.any (·.1 == name) then .error (.duplicateMember name)
    else
      let members := members ++ [(name, v)]
      let p := p.ws
      if p.peek = some ',' then do
        let (name, p) ← p.next.memberName
        .ok (.more (.object members name :: stack) p)
      else if p.peek = some '\x7d' then addValue stack (.object members) p.next
      else p.err "expected , or \x7d"

/-- One value, read with an explicit stack of open containers; one round per value begun. -/
def documentFrom : Nat → List Open → Parser → Option (Except JsonError (Json × Parser))
  | 0, _, _ => none
  | fuel + 1, stack, p =>
    match p.beginValue with
    | .error e => some (.error e)
    | .ok (.opened container p) => documentFrom fuel (container :: stack) p
    | .ok (.complete v p) =>
      match addValue stack v p with
      | .error e => some (.error e)
      | .ok (.whole v p) => some (.ok (v, p))
      | .ok (.more stack p) => documentFrom fuel stack p

end Parser

def parse (octets : List UInt8) : Except JsonError Json :=
  match Utf8.decode octets with
  | none => .error .notUtf8
  | some text => do
      let p : Parser := ⟨text, 0⟩
      let (v, p) ← (Parser.documentFrom (text.length + 1) [] p).getD (p.err "unexpected end")
      let p := p.ws
      if p.rest.isEmpty then .ok v else p.err "trailing characters"

end Json

end Oac
