import Mathlib.Algebra.GroupWithZero.Nat
import Mathlib.Data.Option.Basic

/-! Identifier and scalar forms of `core/src/ids.rs`. Each validated type carries the proof that
its text matched the form as a whole value. The forms are ASCII, so testing characters agrees with
the source's test of octets. -/

namespace Oac

/-- `str::split_once` on a character list. -/
def splitOnce (separator : Char) (text : List Char) : Option (List Char × List Char) :=
  match text.span (· != separator) with
  | (before, _ :: after) => some (before, after)
  | (_, []) => none

def isAsciiDigit (c : Char) : Bool := c.isDigit

def isAsciiLowercase (c : Char) : Bool := c.isLower

def isTokenChar (c : Char) : Bool := c.isAlphanum || c == '.' || c == '_' || c == ':' || c == '-'

/-- An identifier token: `[A-Za-z0-9._:-]{1,128}`. -/
def isToken (s : String) : Bool :=
  let b := s.toList
  decide (1 ≤ b.length) && decide (b.length ≤ 128) && b.all isTokenChar

structure Token where
  text : String
  valid : isToken text = true
  deriving DecidableEq

def Token.parse (s : String) : Option Token :=
  if valid : isToken s = true then some ⟨s, valid⟩ else none

def crockford : List Char := "0123456789abcdefghjkmnpqrstvwxyz".toList

/-- A session id: `[0-7][0-9a-hjkmnp-tv-z]{25}`. -/
def isSessionId (s : String) : Bool :=
  match s.toList with
  | [] => false
  | first :: rest =>
    decide (rest.length = 25) && decide ('0' ≤ first) && decide (first ≤ '7') && rest.all crockford.contains

structure SessionId where
  text : String
  valid : isSessionId text = true
  deriving DecidableEq

def SessionId.parse (s : String) : Option SessionId :=
  if valid : isSessionId s = true then some ⟨s, valid⟩ else none

def crockfordDigit (n : Nat) : Char := crockford.getD (n % 32) '0'

theorem crockfordDigit_mem (n : Nat) : crockfordDigit n ∈ crockford := by
  have every : ∀ k < 32, crockford.getD k '0' ∈ crockford := by decide
  exact every (n % 32) (Nat.mod_lt n (by decide))

def sessionIdText (v : BitVec 128) : String :=
  String.ofList ((List.range 26).reverse.map fun k => crockfordDigit (v.toNat >>> (5 * k)))

theorem sessionIdText_valid (v : BitVec 128) : isSessionId (sessionIdText v) = true := by
  have leading : v.toNat >>> 125 < 8 := by
    rw [Nat.shiftRight_eq_div_pow]
    exact Nat.div_lt_of_lt_mul v.isLt
  have first : ∀ n < 8, '0' ≤ crockfordDigit n ∧ crockfordDigit n ≤ '7' := by decide
  have rest : ∀ ks : List Nat,
      (ks.map fun k => crockfordDigit (v.toNat >>> (5 * k))).all crockford.contains = true := by
    intro ks
    simp [crockfordDigit_mem]
  have digits : (List.range 26).reverse = 25 :: (List.range 25).reverse := by decide
  unfold sessionIdText isSessionId
  rw [digits]
  simp [first _ leading, rest]

/-- The session id that encodes 16 random octets, here given as their big-endian value. -/
def SessionId.fromRandomOctets (v : BitVec 128) : SessionId :=
  ⟨sessionIdText v, sessionIdText_valid v⟩

/-- A key id: 64 lower-case hexadecimal digits. -/
def isKeyId (s : String) : Bool :=
  let b := s.toList
  decide (b.length = 64) && b.all fun c => isAsciiDigit c || (decide ('a' ≤ c) && decide (c ≤ 'f'))

structure KeyId where
  text : String
  valid : isKeyId text = true
  deriving DecidableEq

def KeyId.parse (s : String) : Option KeyId :=
  if valid : isKeyId s = true then some ⟨s, valid⟩ else none

def digits (b : List Char) : Option Nat :=
  if b.isEmpty || !b.all isAsciiDigit then none
  else some (b.foldl (fun a d => a * 10 + (d.toNat - '0'.toNat)) 0)

structure Version where
  major : Nat
  minor : Nat
  deriving DecidableEq

def Version.text (v : Version) : String := toString v.major ++ "." ++ toString v.minor

def implementedVersion : Version := ⟨0, 1⟩

def versionPart (b : List Char) : Option Nat :=
  let ok := decide (1 ≤ b.length) && decide (b.length ≤ 4) && b.all isAsciiDigit &&
    (decide (b.length = 1) || b.head? != some '0')
  if ok then digits b else none

def Version.parse (s : String) : Option Version := do
  let (a, b) ← splitOnce '.' s.toList
  return ⟨← versionPart a, ← versionPart b⟩

/-- Days since 1970-01-01 of a proleptic Gregorian date. -/
def daysFromCivil (y m d : Int) : Int :=
  let y := if m ≤ 2 then y - 1 else y
  let era := y / 400
  let yoe := y - era * 400
  let doy := (153 * (if m > 2 then m - 3 else m + 9) + 2) / 5 + d - 1
  let doe := yoe * 365 + yoe / 4 - yoe / 100 + doy
  era * 146097 + doe - 719468

def daysInMonth (y m : Nat) : Nat :=
  let leap := (y % 4 == 0 && y % 100 != 0) || y % 400 == 0
  [31, if leap then 29 else 28, 31, 30, 31, 30, 31, 31, 30, 31, 30, 31].getD (m - 1) 0

def nanosPerSec : Int := 1000000000

def slice (b : List Char) (start stop : Nat) : List Char := (b.take stop).drop start

/-- Nanoseconds named by the optional fraction `.f{1,9}` of a timestamp. -/
def fractionNanos : List Char → Option Nat
  | [] => some 0
  | c :: f =>
    if c == '.' && decide (1 ≤ f.length) && decide (f.length ≤ 9) then
      (digits f).map (· * 10 ^ (9 - f.length))
    else none

/-- The instant a timestamp text names, if the text has the form
`YYYY-MM-DDTHH:MM:SS[.f{1,9}]Z` and names a real calendar date and time. -/
def timestampNanos (s : String) : Option Int :=
  let b := s.toList
  if b.length < 20 || b[4]? != some '-' || b[7]? != some '-' || b[10]? != some 'T' ||
      b[13]? != some ':' || b[16]? != some ':' || b.getLast? != some 'Z' then none
  else do
    let y ← digits (slice b 0 4)
    let mo ← digits (slice b 5 7)
    let d ← digits (slice b 8 10)
    let h ← digits (slice b 11 13)
    let mi ← digits (slice b 14 16)
    let sec ← digits (slice b 17 19)
    let fracNanos ← fractionNanos (slice b 19 (b.length - 1))
    if mo < 1 || mo > 12 || h > 23 || mi > 59 || sec > 59 || d < 1 || d > daysInMonth y mo then none
    else
      let secs : Int := daysFromCivil y mo d * 86400 + (h * 3600 + mi * 60 + sec : Nat)
      return secs * nanosPerSec + fracNanos

/-- A timestamp keeps its spelling and the instant it names. -/
structure Timestamp where
  text : String
  unixNanos : Int
  valid : timestampNanos text = some unixNanos
  deriving DecidableEq

def Timestamp.parse (s : String) : Option Timestamp :=
  match valid : timestampNanos s with
  | some nanos => some ⟨s, nanos, valid⟩
  | none => none

def Timestamp.epoch : Timestamp := ⟨"1970-01-01T00:00:00Z", 0, by decide +kernel⟩

def isNameTail (c : Char) : Bool := isAsciiLowercase c || isAsciiDigit c || c == '-'

/-- `[a-z][a-z0-9-]{0,limit-1}` as a whole value. -/
def isLowerName (limit : Nat) (b : List Char) : Bool :=
  decide (1 ≤ b.length) && decide (b.length ≤ limit) && b.head?.any isAsciiLowercase && b.all isNameTail

def isCoreType (t : String) : Bool := isLowerName 32 t.toList

def isDnsLabel (l : List Char) : Bool :=
  l.head?.any Char.isAlphanum && l.getLast?.any Char.isAlphanum && l.all fun c => c.isAlphanum || c == '-'

def isReverseDns (p : List Char) : Bool :=
  let labels := p.splitOn '.'
  decide (2 ≤ labels.length) && labels.all isDnsLabel

/-- An extension content part type: a reverse DNS name, a slash and a lower-case name. -/
def isExtensionType (t : String) : Bool :=
  match splitOnce '/' t.toList with
  | none => false
  | some (dns, name) => isReverseDns dns && isLowerName 64 name

section Sample

def sampleName : Token := ⟨"alice", by decide +kernel⟩

def samplePeerName : Token := ⟨"bob", by decide +kernel⟩

def sampleMessageId : Token := ⟨"m1", by decide +kernel⟩

def sampleHarness : Token := ⟨"harness", by decide +kernel⟩

end Sample

end Oac
