import Oac.Json.Held
import Oac.Json.Octets

/-! The octet reader and the character reader agree. A position in the octets and an unread text
belong together when the octets from the position encode the text; each function of the two readers,
started at such a pair, ends at such a pair with the same result. In particular no index and no
slice is ever outside the text, and no loop uses up its bound. -/

namespace Oac.Json

open Utf8 Option Octets
open List hiding getElem?_eq_some_iff isEmpty_iff tail
open Bool hiding eq_iff_iff or_self

namespace Octets

/-- The octets from a parser's position encode what it has not read. -/
structure At (s : List UInt8) (p : Parser) : Prop where
  within : p.i ≤ s.length
  unread : s.drop p.i = encode p.rest

variable {s : List UInt8} {p q : Parser} {text : List Char}

theorem At.past (here : At s ⟨run ++ rest, i⟩) : At s ⟨rest, i + (encode run).length⟩ := by
  have unread : s.drop i = encode run ++ encode rest := by
    rw [← encode_append]
    exact here.unread
  constructor
  · have length := congrArg length unread
    have within : i ≤ s.length := here.within
    simp only [length_drop, length_append] at length
    change i + _ ≤ s.length
    omega
  · rw [← drop_drop, unread, drop_left]

theorem At.next (here : At s p) (peeked : p.peek = some c) (ascii : c.toNat ≤ 0x7F) : At s p.next := by
  obtain ⟨text, i⟩ := p
  cases text with
  | nil => cases peeked
  | cons first rest =>
    cases peeked
    have split : At s ⟨[c] ++ rest, i⟩ := here
    have moved := split.past
    rw [encode_ascii_length (by simpa using ascii)] at moved
    exact moved

theorem isDigit_iff (c : Char) : c.isDigit = true ↔ 48 ≤ c.toNat ∧ c.toNat ≤ 57 := by
  simp only [Char.isDigit, and_eq_true, decide_eq_true_eq, ge_iff_le, UInt32.le_iff_toNat_le]
  rfl

theorem isDigit_octet (b : UInt8) : isDigit b = true ↔ 48 ≤ b.toNat ∧ b.toNat ≤ 57 := by
  simp only [isDigit, and_eq_true, decide_eq_true_eq]
  rfl

theorem encodeChar_cons (c : Char) : ∃ b tail, String.utf8EncodeChar c = b :: tail := by
  refine exists_cons_of_length_pos ?_
  rw [String.length_utf8EncodeChar]
  exact c.utf8Size_pos

/-- The octets of a character: one of its own value, or a high one and continuation octets. -/
theorem octets_kind (encoded : String.utf8EncodeChar c = b :: tail) :
    (c.toNat ≤ 0x7F ∧ b.toNat = c.toNat ∧ tail = []) ∨
      (0x7F < c.toNat ∧ 0xC0 ≤ b.toNat ∧ ∀ t ∈ tail, isTail t = true) := by
  rcases Nat.lt_or_ge 0x7F c.toNat with wide | ascii
  · obtain ⟨_, _, same, high, tails⟩ := encodeChar_wide wide
    cases same.symm.trans encoded
    exact .inr ⟨wide, high, tails⟩
  · cases (encodeChar_ascii ascii).symm.trans encoded
    exact .inl ⟨ascii, toNat_octet (by omega), rfl⟩

theorem isOctet_first (encoded : String.utf8EncodeChar c = b :: tail) (ascii : mark.toNat ≤ 0x7F) :
    isOctet mark b = (c == mark) := by
  have kind := octets_kind encoded
  rw [Bool.eq_iff_iff]
  simp only [isOctet, beq_iff_eq, ← Char.toNat_inj]
  omega

theorem isDigit_first (encoded : String.utf8EncodeChar c = b :: tail) : isDigit b = c.isDigit := by
  have kind := octets_kind encoded
  rw [Bool.eq_iff_iff, isDigit_iff, isDigit_octet]
  omega

theorem At.octet (here : At s p) (peeked : p.peek = some c) :
    ∃ b tail, s[p.i]? = some b ∧ String.utf8EncodeChar c = b :: tail := by
  obtain ⟨rest, text⟩ := head?_eq_some_iff.mp peeked
  obtain ⟨b, tail, encoded⟩ := encodeChar_cons c
  refine ⟨b, tail, ?_, encoded⟩
  rw [← head?_drop, here.unread, text, encode_cons, encoded]
  rfl

theorem At.nothing (here : At s p) (peeked : p.peek = none) : p.i = s.length := by
  have length := congrArg length here.unread
  rw [head?_eq_none_iff.mp peeked, length_drop] at length
  have within := here.within
  simp only [encode, flatMap_nil, length_nil] at length
  omega

theorem At.ends (here : At s p) (peeked : p.peek = none) : s[p.i]? = none := by
  rw [here.nothing peeked, getElem?_length]

theorem At.boundary (here : At s p) : isCharBoundary s p.i = true := by
  unfold isCharBoundary
  cases peeked : p.peek with
  | none => simp [here.nothing peeked]
  | some c =>
    obtain ⟨b, tail, held, encoded⟩ := here.octet peeked
    have kind := octets_kind encoded
    have notTail : isTail b = false := by
      rw [eq_false_iff, ne_eq, isTail_iff]
      omega
    simp [held, notTail]

theorem At.peekIs (here : At s p) (ascii : c.toNat ≤ 0x7F) : peekIs s p.i c = true ↔ p.peek = some c := by
  unfold Octets.peekIs
  cases peeked : p.peek with
  | none => simp [here.nothing peeked]
  | some first =>
    obtain ⟨b, tail, held, encoded⟩ := here.octet peeked
    simp [held, isOctet_first encoded ascii]

/-- The readers agree: the same error, or the same value at positions that belong together. -/
inductive Agree {α : Type} (s : List UInt8) :
    Except Stop (α × Nat) → Except JsonError (α × Parser) → Prop where
  | error (e : JsonError) : Agree s (.error (.json e)) (.error e)
  | ok {a : α} {q : Parser} : At s q → Agree s (.ok (a, q.i)) (.ok (a, q))

theorem Agree.bind {g : α × Parser → Except JsonError (β × Parser)} (agree : Agree s o c)
    (next : ∀ a q, At s q → Agree s (f (a, q.i)) (g (a, q))) : Agree s (o >>= f) (c >>= g) := by
  cases agree with
  | error e => exact .error e
  | ok here => exact next _ _ here

/-- The readers ask the same, and what each goes on with is related. -/
theorem ite_related {R : X → Y → Prop} [Decidable a] [Decidable b] (same : a ↔ b) (yes : b → R x y)
    (no : ¬b → R x' y') : R (if a then x else x') (if b then y else y') := by
  by_cases asked : b
  · rw [if_pos (same.mpr asked), if_pos asked]
    exact yes asked
  · rw [if_neg (mt same.mp asked), if_neg asked]
    exact no asked

/-- A class of octets that says of each character what the class of characters says. -/
structure Matches (cls : UInt8 → Bool) (chars : Char → Bool) : Prop where
  first : ∀ {c b tail}, String.utf8EncodeChar c = b :: tail → cls b = chars c
  later : ∀ {c b tail}, String.utf8EncodeChar c = b :: tail → chars c = true → ∀ t ∈ tail, cls t = true

theorem skipWhile_run (fuel : Nat) (unread : s.drop i = run ++ rest) (inside : ∀ b ∈ run, cls b = true)
    (boundary : ∀ b ∈ rest.head?, cls b = false) (enough : run.length < fuel) :
    skipWhile s cls fuel i = .ok (i + run.length) := by
  induction run generalizing fuel i with
  | nil =>
    obtain ⟨fuel, rfl⟩ : ∃ k, fuel = k + 1 := ⟨fuel - 1, by simp at enough; omega⟩
    have first : s[i]? = rest.head? := by rw [← head?_drop, unread, nil_append]
    unfold skipWhile index
    cases held : rest.head? with
    | none =>
      rw [held] at first
      have : ¬ i < s.length := by simpa using first
      rw [if_neg this]
      rfl
    | some b =>
      rw [held] at first
      have : i < s.length := (List.getElem?_eq_some_iff.mp first).1
      rw [first]
      simp [boundary b held, bind, Except.bind]
  | cons b run ih =>
    obtain ⟨fuel, rfl⟩ : ∃ k, fuel = k + 1 := ⟨fuel - 1, by simp at enough; omega⟩
    have first : s[i]? = some b := by rw [← head?_drop, unread]; rfl
    have following : s.drop (i + 1) = run ++ rest := by
      rw [← drop_drop, unread]
      rfl
    have rec_ := ih fuel following (fun c held => inside c (by simp [held])) (by simpa using enough)
    unfold skipWhile index
    rw [if_pos (List.getElem?_eq_some_iff.mp first).1, first]
    simp only [bind, Except.bind, inside b (by simp), if_true]
    rw [rec_, length_cons, Nat.add_assoc, Nat.add_comm 1]

theorem At.skipWhile (same : Matches cls chars) (here : At s p) :
    skipWhile s cls (s.length + 1) p.i = .ok (p.i + (encode (p.rest.takeWhile chars)).length) ∧
      At s ⟨p.rest.dropWhile chars, p.i + (encode (p.rest.takeWhile chars)).length⟩ := by
  have split : At s ⟨p.rest.takeWhile chars ++ p.rest.dropWhile chars, p.i⟩ := by
    rw [takeWhile_append_dropWhile]
    exact here
  refine ⟨?_, split.past⟩
  have unread : s.drop p.i = encode (p.rest.takeWhile chars) ++ encode (p.rest.dropWhile chars) := by
    rw [← encode_append]
    exact split.unread
  apply skipWhile_run (s.length + 1) unread
  · intro b held
    obtain ⟨c, member, encoded⟩ := mem_flatMap.mp held
    have inside := mem_takeWhile_imp member
    obtain ⟨first, tail, octets⟩ := encodeChar_cons c
    rw [octets] at encoded
    rcases mem_cons.mp encoded with rfl | later
    · rw [same.first octets, inside]
    · exact same.later octets inside b later
  · intro b held
    have stops := head?_dropWhile_not chars p.rest
    cases dropped : p.rest.dropWhile chars with
    | nil =>
      rw [dropped] at held
      cases held
    | cons c rest =>
      rw [dropped] at held stops
      obtain ⟨first, tail, octets⟩ := encodeChar_cons c
      rw [encode_cons, octets] at held
      cases held
      exact (same.first octets).trans stops
  · have length := congrArg length unread
    simp only [length_drop, length_append] at length
    omega

theorem matches_ascii (first : ∀ {c b tail}, String.utf8EncodeChar c = b :: tail → cls b = chars c)
    (ascii : ∀ c, chars c = true → c.toNat ≤ 0x7F) : Matches cls chars := by
  refine ⟨first, fun {c b tail} encoded inside t held => ?_⟩
  have small := ascii c inside
  rcases octets_kind encoded with ⟨_, _, rfl⟩ | ⟨wide, _⟩
  · cases held
  · omega

theorem ne_of_wide {c mark : Char} (wide : 0x7F < c.toNat) (markAscii : mark.toNat ≤ 0x7F) :
    (c == mark) = false := by
  rw [beq_eq_false_iff_ne]
  rintro rfl
  omega

theorem ascii_of_isWs {c : Char} (white : Parser.isWs c = true) : c.toNat ≤ 0x7F := by
  rcases Nat.lt_or_ge 0x7F c.toNat with wide | ascii
  · simp (disch := decide) only [Parser.isWs, ne_of_wide wide, Bool.or_self] at white
    cases white
  · exact ascii

theorem matches_ws : Matches isWs Parser.isWs := by
  refine matches_ascii (fun encoded => ?_) fun _ => ascii_of_isWs
  simp (disch := decide) only [isWs, Parser.isWs, isOctet_first encoded]

theorem matches_digit : Matches isDigit Char.isDigit :=
  matches_ascii isDigit_first fun _ digit => Nat.le_of_lt_succ (isDigit_ascii digit)

def plainChar (c : Char) : Bool := !(c == '"' || c == '\\' || decide (c.toNat ≤ 0x1F))

theorem matches_plain : Matches isPlain plainChar := by
  constructor
  · intro c b tail encoded
    have kind := octets_kind encoded
    have control : b.toNat ≤ 0x1F ↔ c.toNat ≤ 0x1F := by omega
    simp (disch := decide) only [isPlain, plainChar, isOctet_first encoded, control]
  · intro c b tail encoded _ t later
    rcases octets_kind encoded with ⟨_, _, rfl⟩ | ⟨_, _, tails⟩
    · cases later
    · have high := isTail_iff.mp (tails t later)
      simp only [isPlain, isOctet, not_eq_true', or_eq_false_iff, beq_eq_false_iff_ne, decide_eq_false_iff_not]
      exact ⟨⟨by simp; omega, by simp; omega⟩, by omega⟩

theorem At.skip (same : Matches cls chars) (ascii : ∀ c, chars c = true → c.toNat ≤ 0x7F) (here : At s p) :
    Octets.skipWhile s cls (s.length + 1) p.i = .ok (p.skip chars).i ∧ At s (p.skip chars) := by
  have moved := here.skipWhile same
  have length : (encode (p.rest.takeWhile chars)).length = (p.rest.takeWhile chars).length :=
    encode_ascii_length fun c held => ascii c (mem_takeWhile_imp held)
  rw [length] at moved
  exact moved

theorem At.ws (here : At s p) : ws s p.i = .ok p.ws.i ∧ At s p.ws :=
  here.skip matches_ws fun _ => ascii_of_isWs

theorem At.digits (here : At s p) :
    digits s p.i = .ok (p.skip Char.isDigit).i ∧ At s (p.skip Char.isDigit) :=
  here.skip matches_digit fun _ digit => Nat.le_of_lt_succ (isDigit_ascii digit)

theorem textSlice_between (here : At s ⟨run ++ rest, i⟩) :
    textSlice s i (i + (encode run).length) = .ok run := by
  have there := here.past
  have first : isCharBoundary s i = true := here.boundary
  have second : isCharBoundary s (i + (encode run).length) = true := there.boundary
  have within : i + (encode run).length ≤ s.length := there.within
  have octets : (s.take (i + (encode run).length)).drop i = encode run := by
    have unread : s.drop i = encode run ++ encode rest := by
      rw [← encode_append]
      exact here.unread
    rw [drop_take, unread, Nat.add_sub_cancel_left, take_left]
  unfold textSlice
  rw [if_pos ⟨Nat.le_add_right _ _, within, first, second⟩, octets, decode_encode]

/-! Numbers. -/

/-- The readers agree on where they are: the same error, or positions that belong together. -/
inductive Lands (s : List UInt8) : Except Stop Nat → Except JsonError Parser → Prop where
  | error (e : JsonError) : Lands s (.error (.json e)) (.error e)
  | ok {q : Parser} : At s q → Lands s (.ok q.i) (.ok q)

theorem Lands.bind (lands : Lands s o c) (next : ∀ q, c = .ok q → At s q → Agree s (f q.i) (g q)) :
    Agree s (o >>= f) (c >>= g) := by
  cases lands with
  | error e => exact .error e
  | ok here => exact next _ rfl here

section

variable (here : At s p)

include here

theorem At.digits1 (reason : String) : Lands s (digits1 s p.i reason) (p.digits1 reason) := by
  obtain ⟨read, there⟩ := here.digits
  unfold Octets.digits1
  rw [read]
  have forward : p.i ≤ (p.skip Char.isDigit).i := Nat.le_add_right _ _
  exact ite_related (by omega) (fun _ => .error _) fun _ => .ok there

theorem At.anyDigit : s[p.i]?.any isDigit = p.peek.any Char.isDigit := by
  cases peeked : p.peek with
  | none => simp [here.nothing peeked]
  | some c =>
    obtain ⟨b, tail, held, encoded⟩ := here.octet peeked
    simp [held, isDigit_first encoded]

theorem At.integerPart : Lands s (integerPart s p.i) p.integerPart := by
  have zero := here.peekIs (c := '0') (by decide)
  unfold Octets.integerPart Parser.integerPart
  rw [here.anyDigit]
  cases peeked : p.peek with
  | none =>
    rw [peeked] at zero
    rw [if_neg (by simp [zero])]
    exact .error _
  | some c =>
    rw [peeked, some.injEq] at zero
    simp only [any_some, beq_iff_eq]
    refine ite_related zero (fun zero => .ok (here.next peeked (by rw [zero]; decide))) fun _ => ?_
    refine ite_related .rfl (fun _ => ?_) fun _ => .error _
    rw [here.digits.1]
    exact .ok here.digits.2

theorem At.fractionPart : Lands s (fractionPart s p.i) p.fractionPart := by
  exact ite_related (here.peekIs (by decide)) (fun point => (here.next point (by decide)).digits1 _)
    fun _ => .ok here

/-- One of two characters, passed if it is there. -/
theorem At.nextEither (first : a.toNat ≤ 0x7F) (second : b.toNat ≤ 0x7F)
    (found : p.peek = some a ∨ p.peek = some b) : At s p.next := by
  rcases found with found | found
  · exact here.next found first
  · exact here.next found second

theorem At.peekEither (first : a.toNat ≤ 0x7F) (second : b.toNat ≤ 0x7F) :
    (Octets.peekIs s p.i a || Octets.peekIs s p.i b) = true ↔ p.peek = some a ∨ p.peek = some b := by
  rw [or_eq_true, here.peekIs first, here.peekIs second]

theorem At.exponentPart : Lands s (exponentPart s p.i) p.exponentPart := by
  refine ite_related (here.peekEither (by decide) (by decide)) (fun marked => ?_) fun _ => .ok here
  have there := here.nextEither (by decide) (by decide) marked
  have signed := there.peekEither (a := '+') (b := '-') (by decide) (by decide)
  change (Octets.peekIs s (p.i + 1) '+' || Octets.peekIs s (p.i + 1) '-') = true ↔ _ at signed
  by_cases sign : p.next.peek = some '+' ∨ p.next.peek = some '-'
  · simp only [if_pos sign, if_pos (signed.mpr sign)]
    exact (there.nextEither (by decide) (by decide) sign).digits1 _
  · simp only [if_neg sign, if_neg (mt signed.mp sign)]
    exact there.digits1 _

theorem At.numberSlice (read : p.number = .ok (v, q)) :
    ∃ raw, textSlice s p.i q.i = .ok raw ∧ v = .number ⟨String.ofList raw⟩ := by
  obtain ⟨text, derived, value, split, moved⟩ := Parser.number_sound read
  refine ⟨text, ?_, value⟩
  have whole : At s ⟨text ++ q.rest, p.i⟩ := by
    rw [← split]
    exact here
  rw [moved, ← encode_ascii_length fun c held => Nat.le_of_lt_succ (number_ascii derived c held)]
  exact textSlice_between whole

theorem At.number (peeked : p.peek = some c) : Agree s (number s p.i) p.number := by
  obtain ⟨b, tail, held, encoded⟩ := here.octet peeked
  have signed : (if isOctet '-' b = true then p.i + 1 else p.i) =
        (if p.peek = some '-' then p.next else p).i ∧ At s (if p.peek = some '-' then p.next else p) := by
    rw [isOctet_first encoded (by decide), peeked]
    by_cases minus : c = '-'
    · subst minus
      exact ⟨rfl, here.next peeked (by decide)⟩
    · simp only [beq_iff_eq, minus, some.injEq, if_false]
      exact ⟨trivial, here⟩
  unfold Octets.number Octets.index
  rw [held]
  change Agree s (Octets.integerPart s _ >>= _) _
  rw [signed.1]
  have whole : ∀ q, (∃ after, (if p.peek = some '-' then p.next else p).integerPart = .ok after ∧
      ∃ later, after.fractionPart = .ok later ∧ later.exponentPart = .ok q) →
      p.number = .ok (.number ⟨String.ofList (p.rest.take (q.i - p.i))⟩, q) := by
    rintro q ⟨after, integer, later, fraction, exponent⟩
    unfold Parser.number
    simp only [integer, fraction, exponent, bind, Except.bind]
  refine signed.2.integerPart.bind fun after integer there => ?_
  refine there.fractionPart.bind fun later fraction there => ?_
  refine there.exponentPart.bind fun q exponent there => ?_
  have read := whole q ⟨after, integer, later, fraction, exponent⟩
  obtain ⟨raw, slice, value⟩ := here.numberSlice read
  rw [slice, value]
  exact .ok there

end

/-! Escapes. -/

/-- The value of the first `n` digits of a sequence, each read by `digit`. -/
def hexPrefix {α : Type} (digit : α → Option Nat) : Nat → List α → Nat → Option Nat
  | 0, _, v => some v
  | _ + 1, [], _ => none
  | n + 1, x :: xs, v => (digit x).bind fun d => hexPrefix digit n xs (v * 16 + d)

theorem hexPrefix_take (digit : α → Option Nat) (n : Nat) (xs : List α) (v : Nat) :
    (if (xs.take n).length < n then none
      else (xs.take n).foldlM (fun v x => (digit x).map (v * 16 + ·)) v) = hexPrefix digit n xs v := by
  induction n generalizing xs v with
  | zero => rfl
  | succ n ih =>
    cases xs with
    | nil => rfl
    | cons x xs =>
      simp only [take_succ_cons, length_cons, Nat.add_lt_add_iff_right, foldlM_cons, hexPrefix]
      cases digit x with
      | none => simp
      | some d => exact ih xs (v * 16 + d)

theorem hexDigit_wide (wide : 0x7F < c.toNat) : Parser.hexDigit c = none := by
  rw [← not_isSome_iff_eq_none]
  intro isHex
  have := hexDigit_ascii isHex
  omega

theorem char_of_octet (b : UInt8) : (Char.ofNat b.toNat).toNat = b.toNat := by
  have := b.toNat_lt
  exact val_ofNat (.inl (by omega))

theorem hexPrefix_encode (n : Nat) (text : List Char) (v : Nat) :
    hexPrefix (fun b : UInt8 => Parser.hexDigit (Char.ofNat b.toNat)) n (encode text) v =
      hexPrefix Parser.hexDigit n text v := by
  induction n generalizing text v with
  | zero => rfl
  | succ n ih =>
    cases text with
    | nil => rfl
    | cons c rest =>
      obtain ⟨b, tail, encoded⟩ := encodeChar_cons c
      rw [encode_cons, encoded, cons_append, hexPrefix, hexPrefix]
      rcases octets_kind encoded with ⟨_, value, rfl⟩ | ⟨wide, high, _⟩
      · rw [value, Char.ofNat_toNat]
        simp only [nil_append, ih]
      · rw [hexDigit_wide wide, hexDigit_wide (by rw [char_of_octet]; omega)]
        rfl

theorem At.get (here : At s p) (n : Nat) :
    get s p.i (p.i + n) =
      if ((encode p.rest).take n).length < n then none else some ((encode p.rest).take n) := by
  have octets : (s.take (p.i + n)).drop p.i = (encode p.rest).take n := by
    rw [drop_take, Nat.add_sub_cancel_left, here.unread]
  have length := congrArg length here.unread
  have within := here.within
  simp only [length_drop] at length
  unfold Octets.get
  rw [octets, length_take]
  by_cases fits : p.i + n ≤ s.length
  · rw [if_pos ⟨by omega, fits⟩, if_neg (by omega)]
  · rw [if_neg (by omega), if_pos (by omega)]

theorem hexPrefix_ascii (read : hexPrefix Parser.hexDigit n text v = some value) :
    n ≤ text.length ∧ ∀ c ∈ text.take n, c.toNat ≤ 0x7F := by
  induction n generalizing text v with
  | zero => simp
  | succ n ih =>
    cases text with
    | nil => cases read
    | cons c rest =>
      obtain ⟨d, digit, read⟩ := bind_eq_some_iff.mp read
      obtain ⟨long, others⟩ := ih read
      refine ⟨Nat.succ_le_succ long, ?_⟩
      intro e held
      rcases mem_cons.mp held with rfl | later
      · exact Nat.le_of_lt_succ (hexDigit_ascii (by rw [digit]; rfl))
      · exact others e later

theorem At.dropAscii (here : At s p) (long : n ≤ p.rest.length)
    (ascii : ∀ c ∈ p.rest.take n, c.toNat ≤ 0x7F) : At s ⟨p.rest.drop n, p.i + n⟩ := by
  have split : At s ⟨p.rest.take n ++ p.rest.drop n, p.i⟩ := by
    rw [take_append_drop]
    exact here
  have moved := split.past
  rw [encode_ascii_length ascii, length_take, Nat.min_eq_left long] at moved
  exact moved

theorem hex4_eq (p : Parser) :
    p.hex4 = match hexPrefix Parser.hexDigit 4 p.rest 0 with
      | none => p.err "bad escape"
      | some v => .ok (v, ⟨p.rest.drop 4, p.i + 4⟩) := by
  unfold Parser.hex4
  rw [← hexPrefix_take]
  dsimp only
  split
  · rfl
  · rfl

theorem At.hex4_eq (here : At s p) :
    hex4 s p.i = match hexPrefix Parser.hexDigit 4 p.rest 0 with
      | none => err p.i "bad escape"
      | some v => .ok (v, p.i + 4) := by
  unfold hex4
  rw [← hexPrefix_encode, ← hexPrefix_take, here.get]
  by_cases short : ((encode p.rest).take 4).length < 4
  · rw [if_pos short, if_pos short]
  · rewrite [if_neg short, if_neg short]
    rfl

theorem At.hex4 (here : At s p) : Agree s (hex4 s p.i) p.hex4 := by
  rw [here.hex4_eq, Octets.hex4_eq]
  cases value : hexPrefix Parser.hexDigit 4 p.rest 0 with
  | none => exact .error _
  | some v =>
    obtain ⟨enough, ascii⟩ := hexPrefix_ascii value
    exact .ok (here.dropAscii enough ascii)

theorem ascii_of_all {word : List Char} (all : word.all (·.toNat ≤ 0x7F) = true) :
    ∀ c ∈ word, c.toNat ≤ 0x7F := by
  simpa using all

theorem encode_isPrefix (ascii : ∀ c ∈ word, c.toNat ≤ 0x7F) :
    encode word <+: encode text ↔ word <+: text := by
  induction word generalizing text with
  | nil => simp [encode]
  | cons w word ih =>
    have wAscii : w.toNat ≤ 0x7F := ascii w (by simp)
    rw [encode_cons, encodeChar_ascii wAscii, cons_append]
    cases text with
    | nil => simp [encode]
    | cons c rest =>
      obtain ⟨b, tail, encoded⟩ := encodeChar_cons c
      have kind := octets_kind encoded
      have same : UInt8.ofNat w.toNat = b ↔ w = c := by
        rw [← UInt8.toNat_inj, toNat_octet (by omega), ← Char.toNat_inj]
        omega
      rw [encode_cons, encoded, cons_append, cons_prefix_cons, cons_prefix_cons, same]
      refine and_congr_right fun equal => ?_
      subst equal
      rcases kind with ⟨_, _, rfl⟩ | ⟨wide, _⟩
      · exact ih fun d held => ascii d (by simp [held])
      · omega

theorem take_eq_iff_prefix {text word : List α} : text.take word.length = word ↔ word <+: text := by
  rw [prefix_iff_eq_take, eq_comm]

theorem At.getWord (here : At s p) (ascii : ∀ c ∈ word, c.toNat ≤ 0x7F) :
    Octets.get s p.i (p.i + word.length) = some (encode word) ↔ p.rest.take word.length = word := by
  have length := encode_ascii_length ascii
  rw [here.get, take_eq_iff_prefix, ← encode_isPrefix ascii, ← take_eq_iff_prefix, length]
  constructor
  · intro got
    split at got
    · cases got
    · exact some.inj got
  · intro got
    rw [got, if_neg (by omega)]

theorem At.word (here : At s p) {word : List Char} (ascii : ∀ c ∈ word, c.toNat ≤ 0x7F)
    (starts : p.rest.take word.length = word) : At s ⟨p.rest.drop word.length, p.i + word.length⟩ := by
  apply here.dropAscii
  · have := congrArg length starts
    rw [length_take] at this
    omega
  · rw [starts]
    exact ascii

theorem At.unicodeEscape (here : At s p) : Agree s (unicodeEscape s p.i) p.unicodeEscape := by
  refine here.hex4.bind fun hi q there => ?_
  refine ite_related .rfl (fun _ => ?_) fun _ => ite_related .rfl (fun _ => .error _) fun _ => .ok there
  have word := ascii_of_all (by decide : ['\\', 'u'].all _ = true)
  have got : Octets.get s q.i (q.i + 2) = some (encode ['\\', 'u']) ↔ q.rest.take 2 = ['\\', 'u'] :=
    there.getWord word
  refine ite_related (not_congr got) (fun _ => .error _) fun follows => ?_
  refine (there.word word (not_not.mp follows)).hex4.bind fun lo r after => ?_
  exact ite_related .rfl (fun _ => .ok after) fun _ => .error _

theorem At.escape (here : At s p) : Agree s (escape s p.i) p.escape := by
  obtain ⟨text, i⟩ := p
  unfold escape
  cases text with
  | nil =>
    rw [here.ends rfl]
    exact .error _
  | cons e rest =>
    obtain ⟨b, tail, held, encoded⟩ := here.octet rfl
    have after : ∀ {mark : Char}, mark.toNat ≤ 0x7F → (e == mark) = true → At s ⟨rest, i + 1⟩ := by
      intro mark ascii same
      have peeked : (Parser.mk (e :: rest) i).peek = some e := rfl
      exact here.next peeked (by rw [beq_iff_eq.mp same]; exact ascii)
    have marks : ∀ {mark : Char}, mark.toNat ≤ 0x7F → (isOctet mark b = true ↔ (e == mark) = true) :=
      fun ascii => iff_of_eq (congrArg (· = true) (isOctet_first encoded ascii))
    rw [held]
    -- the eight escapes of one character
    iterate 8 refine ite_related (marks (by decide)) (fun same => .ok (after (by decide) same)) fun _ => ?_
    refine ite_related (marks (by decide)) (fun same => ?_) fun _ => .error _
    refine (after (by decide) same).unicodeEscape.bind fun cp q there => ?_
    exact ite_related .rfl (fun _ => .ok there) fun _ => .error _

/-! Strings. -/

theorem stringFrom_slash (fuel : Nat) (out rest : List Char) (i : Nat) :
    Parser.stringFrom (fuel + 1) out ⟨'\\' :: rest, i⟩ = match (Parser.mk rest (i + 1)).escape with
      | .error e => some (.error e)
      | .ok (decoded, p) => Parser.stringFrom fuel (out ++ [decoded]) p := rfl

/-- The character reader passes a run of plain characters as the octet reader does. -/
theorem stringFrom_run (plain : ∀ c ∈ run, plainChar c = true) (rest : List Char)
    (i fuel : Nat) (out : List Char) :
    Parser.stringFrom (fuel + run.length) out ⟨run ++ rest, i⟩ =
      Parser.stringFrom fuel (out ++ run) ⟨rest, i + (encode run).length⟩ := by
  induction run generalizing i out with
  | nil =>
    rw [append_nil]
    rfl
  | cons c run ih =>
    have first := plain c (by simp)
    simp only [plainChar, not_eq_true', or_eq_false_iff, decide_eq_false_iff_not] at first
    obtain ⟨⟨notQuote, notSlash⟩, notControl⟩ := first
    have moved := ih (fun d held => plain d (by simp [held])) (i + c.utf8Size) (out ++ [c])
    rw [length_cons, ← Nat.add_assoc, cons_append, Parser.stringFrom]
    simp only [notQuote, notSlash, false_eq_true, if_false]
    rw [if_neg (by omega), moved, append_assoc, singleton_append, encode_cons,
      length_append, String.length_utf8EncodeChar, Nat.add_assoc]

theorem At.stringFrom (out : List Char) (here : At s p) (enough : p.rest.length < fuel)
    (enoughChars : p.rest.length < fuelChars) :
    ∃ r, Parser.stringFrom fuelChars out p = some r ∧ Agree s (stringFrom s fuel out p.i) r := by
  induction fuel generalizing p fuelChars out with
  | zero => omega
  | succ fuel ih =>
    obtain ⟨text, i⟩ := p
    have skipped := here.skipWhile matches_plain
    have plain : ∀ c ∈ text.takeWhile plainChar, plainChar c = true := fun c => mem_takeWhile_imp
    have whole : text.takeWhile plainChar ++ text.dropWhile plainChar = text := takeWhile_append_dropWhile
    have stops := head?_dropWhile_not plainChar text
    generalize text.takeWhile plainChar = run, text.dropWhile plainChar = rest at *
    subst whole
    rw [length_append] at enough enoughChars
    obtain ⟨k, rfl⟩ : ∃ k, fuelChars = k + 1 + run.length := ⟨fuelChars - run.length - 1, by omega⟩
    have there := skipped.2
    unfold stringFrom
    rw [stringFrom_run plain, skipped.1]
    simp only [bind, Except.bind]
    rw [textSlice_between here]
    generalize i + (encode run).length = j at there ⊢
    cases rest with
    | nil =>
      rw [there.ends rfl]
      exact ⟨_, rfl, .error _⟩
    | cons c rest =>
      obtain ⟨b, tail, held, encoded⟩ := there.octet rfl
      have control : plainChar c = false := stops
      rw [held]
      simp (disch := decide) only [isOctet_first encoded]
      by_cases quote : c = '"'
      · subst quote
        exact ⟨_, rfl, .ok (there.next rfl (by decide))⟩
      · by_cases slash : c = '\\'
        · subst slash
          have after : At s ⟨rest, j + 1⟩ := there.next rfl (by decide)
          have agree := after.escape
          rw [stringFrom_slash]
          cases escaped : (Parser.mk rest (j + 1)).escape with
          | error e =>
            rw [escaped] at agree
            generalize Octets.escape s (j + 1) = read at agree ⊢
            cases agree
            exact ⟨_, rfl, .error e⟩
          | ok found =>
            obtain ⟨decoded, q⟩ := found
            have less : q.rest.length < rest.length := Parser.escape_after escaped
            rw [escaped] at agree
            generalize Octets.escape s (j + 1) = read at agree ⊢
            cases agree with
            | ok later =>
              rw [length_cons] at enough enoughChars
              exact ih (out ++ run ++ [decoded]) later (by omega) (by omega)
        · have small : c.toNat < 0x20 := by
            simp [plainChar, quote, slash] at control
            omega
          rw [Parser.stringFrom]
          simp only [beq_iff_eq, quote, slash, if_false, small, if_true]
          exact ⟨_, rfl, .error _⟩

theorem At.string (here : At s p) (quoted : p.peek = some '"') : Agree s (string s p.i) p.string := by
  have there := here.next quoted (by decide)
  have fits : p.next.rest.length < s.length + 1 := by
    have length := congrArg length there.unread
    have := (encode_length_bounds p.next.rest).1
    rw [length_drop] at length
    omega
  obtain ⟨r, read, agree⟩ := there.stringFrom [] fits (Nat.lt_succ_self _)
  unfold Parser.string
  dsimp only
  rw [read]
  refine agree.bind fun out q after => ?_
  exact ite_related .rfl (fun _ => .ok after) fun _ => .error _

theorem At.peekNot (here : At s p) (ascii : c.toNat ≤ 0x7F) :
    (!Octets.peekIs s p.i c) = true ↔ p.peek ≠ some c := by
  rw [not_eq_true', ← not_eq_true, here.peekIs ascii]

theorem At.memberName (here : At s p) : Agree s (memberName s p.i) p.memberName := by
  obtain ⟨read, there⟩ := here.ws
  unfold Octets.memberName
  rw [read]
  refine ite_related (there.peekNot (by decide)) (fun _ => .error _) fun quoted => ?_
  refine (there.string (not_not.mp quoted)).bind fun name q after => ?_
  obtain ⟨read, there⟩ := after.ws
  dsimp only
  rw [read]
  exact ite_related (there.peekNot (by decide)) (fun _ => .error _) fun colon =>
    .ok (there.next (not_not.mp colon) (by decide))

theorem At.literal (here : At s p) {word : String} (ascii : ∀ c ∈ word.toList, c.toNat ≤ 0x7F)
    (v : Json) : Agree s (literal s p.i word v) (p.literal word v) := by
  have length := encode_ascii_length ascii
  unfold Octets.literal
  rw [if_pos here.within, here.unread, length]
  have same : (encode word.toList).isPrefixOf (encode p.rest) = true ↔
      p.rest.take word.toList.length = word.toList := by
    rw [ isPrefixOf_iff_prefix, encode_isPrefix ascii, take_eq_iff_prefix]
  exact ite_related same (fun starts => .ok (here.word ascii starts)) fun _ => .error _

/-! The document. -/

/-- The readers agree on the value begun. -/
inductive Begins (s : List UInt8) : Except Stop Begun → Except JsonError Parser.Begun → Prop where
  | error (e : JsonError) : Begins s (.error (.json e)) (.error e)
  | complete (v : Json) {q : Parser} : At s q → Begins s (.ok (.complete v q.i)) (.ok (.complete v q))
  | opened (container : Open) {q : Parser} :
      At s q → Begins s (.ok (.opened container q.i)) (.ok (.opened container q))

theorem Agree.begins {c : Except JsonError (α × Parser)} (agree : Agree s o c) (f : α → Json) :
    Begins s (o.map fun r => .complete (f r.1) r.2) (c.map fun r => .complete (f r.1) r.2) := by
  cases agree with
  | error e => exact .error e
  | ok here => exact .complete _ here

theorem At.beginArray (here : At s p) (opens : p.peek = some '[') :
    Begins s (beginArray s p.i) p.beginArray := by
  obtain ⟨read, there⟩ := (here.next opens (by decide)).ws
  change Octets.ws s (p.i + 1) = _ at read
  unfold Octets.beginArray
  rw [read]
  exact ite_related (there.peekIs (by decide))
    (fun closes => .complete _ (there.next closes (by decide))) fun _ =>
    .opened _ there

theorem At.beginObject (here : At s p) (opens : p.peek = some '\x7b') :
    Begins s (beginObject s p.i) p.beginObject := by
  obtain ⟨read, there⟩ := (here.next opens (by decide)).ws
  change Octets.ws s (p.i + 1) = _ at read
  unfold Octets.beginObject
  rw [read]
  refine ite_related (there.peekIs (by decide))
    (fun closes => .complete _ (there.next closes (by decide))) fun _ => ?_
  have named := there.memberName
  generalize Octets.memberName s p.next.ws.i = o, p.next.ws.memberName = c at named
  cases named with
  | error e => exact .error e
  | ok after => exact .opened _ after

theorem At.beginValue (here : At s p) : Begins s (beginValue s p.i) p.beginValue := by
  obtain ⟨read, there⟩ := here.ws
  unfold Octets.beginValue Parser.beginValue
  rw [read]
  simp only [bind, Except.bind]
  generalize p.ws = q at there
  cases peeked : q.peek with
  | none =>
    rw [there.ends peeked]
    exact .error _
  | some c =>
    obtain ⟨b, _, held, _⟩ := there.octet peeked
    have marks : ∀ {mark : Char}, mark.toNat ≤ 0x7F →
        (Octets.peekIs s q.i mark = true ↔ (c == mark) = true) := by
      intro mark ascii
      rw [there.peekIs ascii, peeked, some.injEq, beq_iff_eq]
    have digit : s[q.i]?.any isDigit = c.isDigit := by
      rw [there.anyDigit, peeked, any_some]
    have begins : ∀ {mark : Char}, (c == mark) = true → q.peek = some mark := by
      intro mark same
      rw [peeked, beq_iff_eq.mp same]
    rw [if_neg (by simp [held])]
    refine ite_related (marks (by decide)) (fun same => there.beginArray (begins same)) fun _ => ?_
    refine ite_related (marks (by decide)) (fun same => there.beginObject (begins same)) fun _ => ?_
    refine ite_related (marks (by decide)) (fun same => (there.string (begins same)).begins _) fun _ => ?_
    -- the three literals
    iterate 3
      refine ite_related (marks (by decide))
        (fun _ => (there.literal (ascii_of_all (by decide)) _).begins id) fun _ => ?_
    refine ite_related ?_ (fun _ => (there.number peeked).begins id) fun _ => .error _
    rw [or_eq_true, or_eq_true, marks (by decide), digit]

/-- The readers agree on where a complete value leaves the open containers. -/
inductive Adds (s : List UInt8) : Except Stop Added → Except JsonError Parser.Added → Prop where
  | error (e : JsonError) : Adds s (.error (.json e)) (.error e)
  | whole (v : Json) {q : Parser} : At s q → Adds s (.ok (.whole v q.i)) (.ok (.whole v q))
  | more (stack : List Open) {q : Parser} : At s q → Adds s (.ok (.more stack q.i)) (.ok (.more stack q))

theorem At.addValue (stack : List Open) (v : Json) (here : At s p) :
    Adds s (addValue s stack v p.i) (Parser.addValue stack v p) := by
  induction stack generalizing v p with
  | nil => exact .whole v here
  | cons container stack ih =>
    obtain ⟨read, there⟩ := here.ws
    have comma := there.peekIs (c := ',') (by decide)
    cases container with
    | array items =>
      unfold addValue
      rw [read]
      refine ite_related comma (fun comma => .more _ (there.next comma (by decide))) fun _ => ?_
      exact ite_related (there.peekIs (by decide))
        (fun closes => ih _ (there.next closes (by decide))) fun _ => .error _
    | object members name =>
      refine ite_related .rfl (fun _ => .error _) fun _ => ?_
      rw [read]
      refine ite_related comma (fun comma => ?_) fun _ => ?_
      · have named := (there.next comma (by decide)).memberName
        change Agree s (Octets.memberName s (p.ws.i + 1)) _ at named
        generalize Octets.memberName s (p.ws.i + 1) = o, p.ws.next.memberName = c at named
        cases named with
        | error e => exact .error e
        | ok after => exact .more _ after
      · exact ite_related (there.peekIs (by decide))
          (fun closes => ih _ (there.next closes (by decide))) fun _ =>
          .error _

theorem At.documentFrom (here : At s p) (read : Parser.documentFrom fuel stack p = some r) :
    Agree s (documentFrom s fuel stack p.i) r := by
  induction fuel generalizing stack p with
  | zero => cases read
  | succ fuel ih =>
    rw [Parser.documentFrom] at read
    rw [documentFrom]
    have begun := here.beginValue
    generalize Octets.beginValue s p.i = o, p.beginValue = c at begun read
    cases begun with
    | error e =>
      cases read
      exact .error e
    | opened container there => exact ih there read
    | complete v there =>
      have added := there.addValue stack v
      simp only [bind, Except.bind] at read ⊢
      generalize Octets.addValue s stack v _ = o, Parser.addValue stack v _ = c at added read
      cases added with
      | error e =>
        cases read
        exact .error e
      | whole v after =>
        cases read
        exact .ok after
      | more stack after => exact ih after read

theorem At.ends_iff (here : At s p) : p.i = s.length ↔ p.rest.isEmpty = true := by
  have length := congrArg length here.unread
  have within := here.within
  have longer := (encode_length_bounds p.rest).1
  rw [length_drop] at length
  rw [List.isEmpty_iff]
  constructor
  · intro ends
    exact length_eq_zero_iff.mp (by omega)
  · intro nothing
    rw [nothing] at length
    change _ = 0 at length
    omega

/-- The reader over octets returns what the reader over characters returns: it reaches neither an
index or a slice outside the text nor the bound of a loop. -/
theorem parse_eq (s : List UInt8) : parse s = (Json.parse s).mapError .json := by
  unfold parse Json.parse
  cases decoded : decode s with
  | none => rfl
  | some text =>
    have octets : s = encode text := (encode_of_decode decoded).symm
    have here : At s ⟨text, 0⟩ := ⟨Nat.zero_le _, octets⟩
    have longer : text.length ≤ s.length := by
      rw [octets]
      exact (encode_length_bounds text).1
    have returns := Parser.documentFrom_isSome (text.length + 1) [] ⟨text, 0⟩ (Nat.lt_succ_self _)
    obtain ⟨r, read⟩ := isSome_iff_exists.mp returns
    have more := Parser.documentFrom_mono read (s.length - text.length)
    rw [Nat.add_right_comm, Nat.add_sub_cancel' longer] at more
    have agree := here.documentFrom more
    dsimp only
    rw [read]
    simp only [isNone_some, false_eq_true, if_false, getD_some, bind, Except.bind]
    generalize documentFrom s (s.length + 1) [] (Parser.mk text 0).i = o at agree
    cases agree with
    | error e => rfl
    | @ok v q there =>
      obtain ⟨white, after⟩ := there.ws
      dsimp only
      rw [white]
      dsimp only
      by_cases nothing : q.ws.rest.isEmpty = true
      · rw [if_neg (not_not.mpr (after.ends_iff.mpr nothing)), if_pos nothing]
        rfl
      · rw [if_pos (mt after.ends_iff.mp nothing), if_neg nothing]
        rfl

/-- The reader returns a value exactly for the messages of the grammar, the value the grammar gives;
it indexes and slices within the text and uses up no bound, at any depth of nesting. -/
theorem parse_exact (octets : List UInt8) : (∀ v, parse octets = .ok v ↔ Grammar.Message octets v) ∧
      parse octets ≠ .error .panic ∧ parse octets ≠ .error .fuel := by
  rw [parse_eq]
  cases read : Json.parse octets with
  | error e =>
    refine ⟨fun v => ⟨nofun, ?_⟩, nofun, nofun⟩
    rintro ⟨text, rfl, derived⟩
    rw [parse_encode derived] at read
    cases read
  | ok w =>
    refine ⟨fun v => ⟨?_, ?_⟩, nofun, nofun⟩
    · intro same
      cases same
      exact parse_derives read
    · rintro ⟨text, rfl, derived⟩
      rw [parse_encode derived] at read
      cases read
      rfl

end Octets

end Oac.Json
