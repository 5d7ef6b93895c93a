import Oac.Ids
import Oac.Json.Value

/-! The canonical form of JSON values and the signing input (`core/src/canonical.rs`), with the
unpadded base64url decoder (`core/src/base64url.rs`). -/

namespace Oac

structure PublicKey where
  octets : List UInt8
  sized : octets.length = 32
  deriving DecidableEq

theorem sized_replicate (b : UInt8) : (List.replicate 32 b).length = 32 := List.length_replicate

def PublicKey.replicate (b : UInt8) : PublicKey := ⟨List.replicate 32 b, sized_replicate b⟩

/-- What the program takes from libraries outside the repository: the reading and writing of
doubles and strings in canonical JSON, strict signature verification and the digest a key id is
made from. -/
class Libraries where
  Double : Type
  parseDouble : String → Double
  isFinite : Double → Bool
  isZero : Double → Bool
  zero : Double
  writeDouble : Double → Except String String
  writeString : String → Except String String
  verifyStrict : PublicKey → List UInt8 → List UInt8 → Bool
  keyId : PublicKey → KeyId

def PublicKey.keyId [Libraries] (key : PublicKey) : KeyId := Libraries.keyId key

namespace Base64url

def value (c : Char) : Option Nat :=
  if 'A' ≤ c ∧ c ≤ 'Z' then some (c.toNat - 'A'.toNat)
  else if 'a' ≤ c ∧ c ≤ 'z' then some (c.toNat - 'a'.toNat + 26)
  else if '0' ≤ c ∧ c ≤ '9' then some (c.toNat - '0'.toNat + 52)
  else if c = '-' then some 62
  else if c = '_' then some 63
  else none

def word : List Char → Nat → Option Nat
  | [], _ => some 0
  | c :: rest, k => do
      let v ← value c
      let n ← word rest (k + 1)
      some ((v <<< (18 - 6 * k)) ||| n)

def chunkOctets (chunk : List Char) : Option (List UInt8) := do
  let n ← word chunk 0
  let octets := chunk.length - 1
  let unused := 24 - 8 * octets
  -- the bits of the last character below the last whole octet must be zero
  if unused < 24 ∧ n &&& ((1 <<< unused) - 1) ≠ 0 then none
  else some ((List.range octets).map fun k => UInt8.ofNat (n >>> (16 - 8 * k)))

def decodeChunks : List Char → Option (List UInt8)
  | [] => some []
  | a :: b :: c :: d :: rest => do
      let first ← chunkOctets [a, b, c, d]
      let others ← decodeChunks rest
      some (first ++ others)
  | chunk => chunkOctets chunk

/-- The `n` octets that `s` encodes. A character outside the alphabet is refused wherever it
stands, so counting characters instead of octets changes nothing. -/
def decodeExact (n : Nat) (s : String) : Option (List UInt8) :=
  if s.toList.length ≠ (n * 4 + 2) / 3 then none
  else (decodeChunks s.toList).filter (·.length == n)

end Base64url

inductive SigningDomain where
  | envelope
  | registration
  | receipt
  | presence
  | agreement
  deriving DecidableEq

def SigningDomain.text : SigningDomain → String
  | envelope => "oac-envelope-v1"
  | registration => "oac-registration-v1"
  | receipt => "oac-receipt-v1"
  | presence => "oac-presence-v1"
  | agreement => "oac-agreement-v1"

inductive CanonicalError where
  | numberOutOfRange (raw : String)
  | securityNotObject
  | serializer (error : String)
  deriving DecidableEq

/-- The text written so far and, for each open container, whether it is an array and whether
nothing has been written in it yet. -/
structure Writer where
  levels : List (Bool × Bool)
  out : List Char

namespace Writer

def push (w : Writer) (text : List Char) : Writer := { w with out := w.out ++ text }

/-- A comma, unless the innermost container is still empty; it is not empty from here on. -/
def separate (w : Writer) : Writer :=
  match w.levels with
  | (isArray, first) :: outer =>
    { levels := (isArray, false) :: outer, out := if first then w.out else w.out ++ [','] }
  | [] => w

/-- The separator of a value: members of an object are separated at their names instead. -/
def beforeValue (w : Writer) : Writer :=
  match w.levels with
  | (true, _) :: _ => w.separate
  | _ => w

def writeEvent {ε : Type} (scalar : Json → Except ε String) (name : String → Except ε String)
    (w : Writer) : Json.Event → Except ε Writer
  | .arrayEnd => .ok { levels := w.levels.tail, out := w.out ++ [']'] }
  | .objectEnd => .ok { levels := w.levels.tail, out := w.out ++ ['\x7d'] }
  | .name k => do
      let text ← name k
      .ok ((w.separate.push text.toList).push [':'])
  | .scalar v => do
      let text ← scalar v
      .ok (w.beforeValue.push text.toList)
  | .arrayStart =>
    let w := w.beforeValue
    .ok { levels := (true, true) :: w.levels, out := w.out ++ ['['] }
  | .objectStart =>
    let w := w.beforeValue
    .ok { levels := (false, true) :: w.levels, out := w.out ++ ['\x7b'] }

end Writer

def writeEvents {ε : Type} (scalar : Json → Except ε String) (name : String → Except ε String)
    (events : List Json.Event) : Except ε (List Char) := do
  let written ← events.foldlM (Writer.writeEvent scalar name) ⟨[], []⟩
  .ok written.out

variable [Libraries]

def jcs (written : Except String String) : Except CanonicalError String :=
  written.mapError .serializer

def canonicalScalar : Json → Except CanonicalError String
  | .null => .ok "null"
  | .bool true => .ok "true"
  | .bool false => .ok "false"
  | .string s => jcs (Libraries.writeString s)
  | .number n =>
    let x := Libraries.parseDouble n.raw
    if !Libraries.isFinite x then .error (.numberOutOfRange n.raw)
    else jcs (Libraries.writeDouble (if Libraries.isZero x then Libraries.zero else x))
  -- the walk yields containers as events, never as scalars
  | .array _ | .object _ => .ok ""

def canonical (v : Json) : Except CanonicalError (List Char) :=
  writeEvents canonicalScalar (fun k => jcs (Libraries.writeString k)) v.eventsSorted

def signedText (obj : JsonObject) : Except CanonicalError (List Char) :=
  match JsonObject.remove obj "security" with
  | (some (.object sec), others) =>
    canonical (.object (JsonObject.insert others "security" (.object (JsonObject.remove sec "signature").2)))
  | (some _, _) => .error .securityNotObject
  | (none, _) => canonical (.object obj)

/-- The domain string, one zero octet and the signed text in UTF-8. -/
def signingInput (domain : SigningDomain) (obj : JsonObject) : Except CanonicalError (List UInt8) := do
  let text ← signedText obj
  .ok (domain.text.toList.flatMap String.utf8EncodeChar ++ 0 :: text.flatMap String.utf8EncodeChar)

end Oac
