import Oac.Json.Parse

/-! The reader of `core/src/json.rs` as it is written: one position in the octets of the text,
unchecked indexing, and slices of the text that have to fall on character boundaries. An index or a
slice outside the text stops the reader with `panic`, and a loop that uses up its bound stops it
with `fuel`. -/

namespace Oac.Json

namespace Octets

/-- How the reader can stop short of a value. -/
inductive Stop where
  | json (error : JsonError)
  | panic
  | fuel

def err {α : Type} (i : Nat) (reason : String) : Except Stop α :=
  .error (.json (.syntaxError i reason))

section Reading

variable (s : List UInt8)

/-- `self.s[i]` -/
def index (i : Nat) : Except Stop UInt8 :=
  match s[i]? with
  | some b => .ok b
  | none => .error .panic

/-- `str::is_char_boundary` -/
def isCharBoundary (i : Nat) : Bool :=
  decide (i = 0) || decide (i = s.length) || s[i]?.any fun b => !Utf8.isTail b

/-- `self.text[start..stop]` -/
def textSlice (start stop : Nat) : Except Stop (List Char) :=
  if start ≤ stop ∧ stop ≤ s.length ∧ isCharBoundary s start ∧ isCharBoundary s stop then
    match Utf8.decode ((s.take stop).drop start) with
    | some text => .ok text
    | none => .error .panic
  else .error .panic

/-- `while self.i < self.s.len() && cls(self.s[self.i]) { self.i += 1 }` -/
def skipWhile (cls : UInt8 → Bool) : Nat → Nat → Except Stop Nat
  | 0, _ => .error .fuel
  | fuel + 1, i =>
    if i < s.length then do
      let b ← index s i
      if cls b then skipWhile cls fuel (i + 1) else .ok i
    else .ok i

def isOctet (c : Char) (b : UInt8) : Bool := b.toNat == c.toNat

def isWs (b : UInt8) : Bool := isOctet ' ' b || isOctet '\t' b || isOctet '\n' b || isOctet '\r' b

def isDigit (b : UInt8) : Bool := decide ('0'.toNat ≤ b.toNat) && decide (b.toNat ≤ '9'.toNat)

def isPlain (b : UInt8) : Bool := !(isOctet '"' b || isOctet '\\' b || decide (b.toNat ≤ 0x1F))

def ws (i : Nat) : Except Stop Nat := skipWhile s isWs (s.length + 1) i

def digits (i : Nat) : Except Stop Nat := skipWhile s isDigit (s.length + 1) i

/-- `self.peek() == Some(c)` -/
def peekIs (i : Nat) (c : Char) : Bool := s[i]?.any (isOctet c)

/-- `self.s.get(start..stop)` -/
def get (start stop : Nat) : Option (List UInt8) :=
  if start ≤ stop ∧ stop ≤ s.length then some ((s.take stop).drop start) else none

def hex4 (i : Nat) : Except Stop (Nat × Nat) :=
  match get s i (i + 4) with
  | none => err i "bad escape"
  | some h =>
    match h.foldlM (fun v b => (Parser.hexDigit (Char.ofNat b.toNat)).map (v * 16 + ·)) 0 with
    | none => err i "bad escape"
    | some v => .ok (v, i + 4)

def unicodeEscape (i : Nat) : Except Stop (Nat × Nat) := do
  let (hi, i) ← hex4 s i
  if 0xD800 ≤ hi ∧ hi ≤ 0xDBFF then
    if get s i (i + 2) ≠ some (Utf8.encode ['\\', 'u']) then .error (.json .forbiddenCodePoint)
    else
      let (lo, i) ← hex4 s (i + 2)
      if 0xDC00 ≤ lo ∧ lo ≤ 0xDFFF then .ok (0x10000 + (hi - 0xD800) * 0x400 + (lo - 0xDC00), i)
      else .error (.json .forbiddenCodePoint)
  else if 0xDC00 ≤ hi ∧ hi ≤ 0xDFFF then .error (.json .forbiddenCodePoint)
  else .ok (hi, i)

/-- The character an escape stands for, read at the octet after the backslash. -/
def escape (i : Nat) : Except Stop (Char × Nat) :=
  match s[i]? with
  | none => err i "bad escape"
  | some e =>
    let i := i + 1
    if isOctet '"' e then .ok ('"', i)
    else if isOctet '\\' e then .ok ('\\', i)
    else if isOctet '/' e then .ok ('/', i)
    else if isOctet 'b' e then .ok (Char.ofNat 8, i)
    else if isOctet 'f' e then .ok (Char.ofNat 12, i)
    else if isOctet 'n' e then .ok ('\n', i)
    else if isOctet 'r' e then .ok ('\r', i)
    else if isOctet 't' e then .ok ('\t', i)
    else if isOctet 'u' e then do
      let (cp, i) ← unicodeEscape s i
      if cp.isValidChar then .ok (Char.ofNat cp, i) else .error (.json .forbiddenCodePoint)
    else err i "bad escape"

/-- The loop of a string: a run of plain octets, and then what ends it. -/
def stringFrom : Nat → List Char → Nat → Except Stop (List Char × Nat)
  | 0, _, _ => .error .fuel
  | fuel + 1, out, start => do
      let i ← skipWhile s isPlain (s.length + 1) start
      let run ← textSlice s start i
      let out := out ++ run
      match s[i]? with
      | none => err i "unterminated string"
      | some b =>
        if isOctet '"' b then .ok (out, i + 1)
        else if isOctet '\\' b then do
          let (decoded, i) ← escape s (i + 1)
          stringFrom fuel (out ++ [decoded]) i
        else err i "control character in string"

def string (i : Nat) : Except Stop (String × Nat) := do
  let (out, i) ← stringFrom s (s.length + 1) [] (i + 1)
  if isIjsonString out then .ok (String.ofList out, i) else .error (.json .forbiddenCodePoint)

def memberName (i : Nat) : Except Stop (String × Nat) := do
  let i ← ws s i
  if !peekIs s i '"' then err i "expected member name"
  else
    let (name, i) ← string s i
    let i ← ws s i
    if !peekIs s i ':' then err i "expected :" else .ok (name, i + 1)

/-- `self.s[self.i..].starts_with(word)` -/
def literal (i : Nat) (word : String) (v : Json) : Except Stop (Json × Nat) :=
  if i ≤ s.length then
    if (Utf8.encode word.toList).isPrefixOf (s.drop i) then .ok (v, i + (Utf8.encode word.toList).length)
    else err i "bad literal"
  else .error .panic

def digits1 (i : Nat) (reason : String) : Except Stop Nat := do
  let j ← digits s i
  if j - i = 0 then err j reason else .ok j

def integerPart (i : Nat) : Except Stop Nat :=
  if peekIs s i '0' then .ok (i + 1)
  else if s[i]?.any isDigit then digits s i
  else err i "bad number"

def fractionPart (i : Nat) : Except Stop Nat :=
  if peekIs s i '.' then digits1 s (i + 1) "bad number fraction" else .ok i

def exponentPart (i : Nat) : Except Stop Nat :=
  if peekIs s i 'e' || peekIs s i 'E' then
    let i := i + 1
    let i := if peekIs s i '+' || peekIs s i '-' then i + 1 else i
    digits1 s i "bad number exponent"
  else .ok i

def number (start : Nat) : Except Stop (Json × Nat) := do
  let first ← index s start
  let i := if isOctet '-' first then start + 1 else start
  let i ← integerPart s i
  let i ← fractionPart s i
  let i ← exponentPart s i
  let raw ← textSlice s start i
  .ok (.number ⟨String.ofList raw⟩, i)

inductive Begun where
  | complete (v : Json) (i : Nat)
  | opened (container : Open) (i : Nat)

def beginArray (i : Nat) : Except Stop Begun := do
  let i ← ws s (i + 1)
  if peekIs s i ']' then .ok (.complete (.array []) (i + 1)) else .ok (.opened (.array []) i)

def beginObject (i : Nat) : Except Stop Begun := do
  let i ← ws s (i + 1)
  if peekIs s i '\x7d' then .ok (.complete (.object []) (i + 1))
  else
    let (name, i) ← memberName s i
    .ok (.opened (.object [] name) i)

def beginValue (i : Nat) : Except Stop Begun := do
  let i ← ws s i
  let complete := fun (r : Json × Nat) => Begun.complete r.1 r.2
  if s[i]?.isNone then err i "unexpected end"
  else if peekIs s i '[' then beginArray s i
  else if peekIs s i '\x7b' then beginObject s i
  else if peekIs s i '"' then (string s i).map fun r => .complete (.string r.1) r.2
  else if peekIs s i 't' then (literal s i "true" (.bool true)).map complete
  else if peekIs s i 'f' then (literal s i "false" (.bool false)).map complete
  else if peekIs s i 'n' then (literal s i "null" .null).map complete
  else if peekIs s i '-' || s[i]?.any isDigit then (number s i).map complete
  else err i "unexpected character"

inductive Added where
  | whole (v : Json) (i : Nat)
  | more (stack : List Open) (i : Nat)

def addValue : List Open → Json → Nat → Except Stop Added
  | [], v, i => .ok (.whole v i)
  | .array items :: stack, v, i => do
      let items := items ++ [v]
      let i ← ws s i
      if peekIs s i ',' then .ok (.more (.array items :: stack) (i + 1))
      else if peekIs s i ']' then addValue stack (.array items) (i + 1)
      else err i "expected , or ]"
  | .object members name :: stack, v, i =>
    if members.any (·.1 == name) then .error (.json (.duplicateMember name))
    else do
      let members := members ++ [(name, v)]
      let i ← ws s i
      if peekIs s i ',' then do
        let (name, i) ← memberName s (i + 1)
        .ok (.more (.object members name :: stack) i)
      else if peekIs s i '\x7d' then addValue stack (.object members) (i + 1)
      else err i "expected , or \x7d"

/-- The loop of the reader, one round per value begun. -/
def documentFrom : Nat → List Open → Nat → Except Stop (Json × Nat)
  | 0, _, _ => .error .fuel
  | fuel + 1, stack, i => do
      match ← beginValue s i with
      | .opened container i => documentFrom fuel (container :: stack) i
      | .complete v i =>
        match ← addValue s stack v i with
        | .whole v i => .ok (v, i)
        | .more stack i => documentFrom fuel stack i

end Reading

/-- `json::parse`; the standard library checks the octets first. -/
def parse (s : List UInt8) : Except Stop Json :=
  if (Utf8.decode s).isNone then .error (.json .notUtf8)
  else do
    let (v, i) ← documentFrom s (s.length + 1) [] 0
    let i ← ws s i
    if i ≠ s.length then err i "trailing characters" else .ok v

end Octets

end Oac.Json
