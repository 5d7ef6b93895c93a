import Mathlib.Data.List.TakeWhile
import Oac.Json.Grammar
import Oac.Json.ParseProofs

/-! What the grammar derives, the reader reads. A derivation drives the reader: each part of a text
is read as the value it derives, whatever containers are still open and whatever follows. -/

namespace Oac.Json

open List hiding dropWhile_eq_nil_iff isEmpty_nil

namespace Parser

open Grammar

variable {text : List Char}

/-! Runs of one class of characters. -/

theorem skip_exact {cls : Char → Bool} {run rest : List Char} (inside : ∀ c ∈ run, cls c = true)
    (boundary : ∀ c ∈ rest.head?, cls c = false) (i : Nat) :
    skip cls ⟨run ++ rest, i⟩ = ⟨rest, i + run.length⟩ := by
  have taken : (run ++ rest).takeWhile cls = run := by
    rw [takeWhile_append_of_pos inside]
    cases rest with
    | nil => simp
    | cons c rest => simp [boundary c rfl]
  have dropped : (run ++ rest).dropWhile cls = rest := by
    rw [dropWhile_append_of_pos inside]
    cases rest with
    | nil => rfl
    | cons c rest => simp [boundary c rfl]
  simp [skip, taken, dropped]

variable {rest : List Char}

theorem ws_stay {c : Char} (i : Nat) (black : isWs c = false) :
    ws ⟨c :: rest, i⟩ = ⟨c :: rest, i⟩ := by
  simp [ws, skip, black]

theorem ws_ws (p : Parser) : p.ws.ws = p.ws := by
  have stops := head?_dropWhile_not isWs p.rest
  cases held : p.rest.dropWhile isWs with
  | nil => simp [ws, skip, held]
  | cons c rest =>
    have black : isWs c = false := by simpa [held] using stops
    have here : p.ws = ⟨c :: rest, p.i + (p.rest.takeWhile isWs).length⟩ := by simp [ws, skip, held]
    rw [here, ws_stay _ black]

/-! Numbers. -/

/-- What a number is followed by: nothing that could still belong to it. -/
structure Ends (rest : List Char) : Prop where
  noDigit : ∀ c ∈ rest.head?, c.isDigit = false
  noPoint : rest.head? ≠ some '.'
  noExponent : rest.head? ≠ some 'e' ∧ rest.head? ≠ some 'E'

theorem digits1_exact {ds rest : List Char} (digits : Digits ds)
    (boundary : ∀ c ∈ rest.head?, c.isDigit = false)
    (i : Nat) (reason : String) : digits1 ⟨ds ++ rest, i⟩ reason = .ok ⟨rest, i + ds.length⟩ := by
  have positive : 0 < ds.length := length_pos_of_ne_nil digits.1
  unfold digits1
  rw [skip_exact digits.2 boundary]
  exact if_neg (by change i + ds.length ≠ i; omega)

theorem integerPart_exact {int rest : List Char} (integer : Integer int)
    (boundary : ∀ c ∈ rest.head?, c.isDigit = false) (i : Nat) :
    integerPart ⟨int ++ rest, i⟩ = .ok ⟨rest, i + int.length⟩ := by
  cases integer with
  | zero => rfl
  | @digits first others digit nonzero more =>
    have run : skip Char.isDigit ⟨first :: others ++ rest, i⟩ = ⟨rest, i + (first :: others).length⟩ :=
      skip_exact (by simpa using ⟨digit, more⟩) boundary i
    simp only [cons_append] at run
    simp [integerPart, peek, nonzero, digit, run]

theorem fractionPart_exact {frac rest : List Char} (fraction : Fraction frac)
    (boundary : ∀ c ∈ rest.head?, c.isDigit = false) (noPoint : rest.head? ≠ some '.') (i : Nat) :
    fractionPart ⟨frac ++ rest, i⟩ = .ok ⟨rest, i + frac.length⟩ := by
  cases fraction with
  | absent => simp [fractionPart, peek, noPoint]
  | @present ds digits =>
    have read := digits1_exact digits boundary (i + 1) "bad number fraction"
    simp only [fractionPart, peek, cons_append, head?_cons, if_true, next, tail_cons]
    rw [read, length_cons, Nat.add_assoc, Nat.add_comm 1]

theorem digits_head (digits : Digits ds) : ∃ d others, ds = d :: others ∧ d.isDigit = true := by
  cases ds with
  | nil => exact absurd rfl digits.1
  | cons d others => exact ⟨d, others, rfl, digits.2 d (by simp)⟩

variable {exp rest : List Char}

theorem exponentPart_exact (exponent : Exponent exp) (ends : Ends rest) (i : Nat) :
    exponentPart ⟨exp ++ rest, i⟩ = .ok ⟨rest, i + exp.length⟩ := by
  cases exponent with
  | absent => simp [exponentPart, peek, ends.noExponent]
  | @bare e ds isE digits =>
    obtain ⟨d, others, rfl, digit⟩ := digits_head digits
    have unsigned : ¬ (d = '+' ∨ d = '-') := by
      rintro (rfl | rfl) <;> exact absurd digit (by decide)
    have read := digits1_exact digits ends.noDigit (i + 1) "bad number exponent"
    simp only [cons_append] at read
    simp [exponentPart, peek, next, isE, unsigned, read]
    omega
  | @signed e sign ds isE isSign digits =>
    have read := digits1_exact digits ends.noDigit (i + 2) "bad number exponent"
    simp [exponentPart, peek, next, isE, isSign, read]
    omega

theorem exponent_head (exponent : Exponent exp) (ends : Ends rest) :
    (∀ c ∈ (exp ++ rest).head?, c.isDigit = false) ∧ (exp ++ rest).head? ≠ some '.' := by
  cases exponent with
  | absent => exact ⟨ends.noDigit, ends.noPoint⟩
  | bare isE digits | signed isE isSign digits => rcases isE with rfl | rfl <;> simp

theorem fraction_head {frac exp rest : List Char} (fraction : Fraction frac) (exponent : Exponent exp)
    (ends : Ends rest) : ∀ c ∈ (frac ++ (exp ++ rest)).head?, c.isDigit = false := by
  cases fraction with
  | absent => exact (exponent_head exponent ends).1
  | present digits => simp

theorem number_exact (derived : Number text) (ends : Ends rest) (i : Nat) :
    number ⟨text ++ rest, i⟩ = .ok (.number ⟨String.ofList text⟩, ⟨rest, i + text.length⟩) := by
  obtain ⟨isSign, integer, fraction, exponent⟩ := derived
  rename_i sign int frac exp
  have signed : (if peek ⟨sign ++ int ++ frac ++ exp ++ rest, i⟩ = some '-'
      then next ⟨sign ++ int ++ frac ++ exp ++ rest, i⟩ else ⟨sign ++ int ++ frac ++ exp ++ rest, i⟩) =
      ⟨int ++ (frac ++ (exp ++ rest)), i + sign.length⟩ := by
    cases isSign with
    | minus => simp [peek, next]
    | absent =>
      have unsigned : peek ⟨[] ++ int ++ frac ++ exp ++ rest, i⟩ ≠ some '-' := by
        cases integer with
        | zero => simp [peek]
        | digits digit nonzero more =>
          rintro minus
          simp only [peek, nil_append, cons_append, head?_cons, Option.some.injEq] at minus
          subst minus
          exact absurd digit (by decide)
      rw [if_neg unsigned]
      simp
  have integerRead := integerPart_exact integer (fraction_head fraction exponent ends) (i + sign.length)
  have heads := exponent_head exponent ends
  have fractionRead := fractionPart_exact fraction heads.1 heads.2 (i + sign.length + int.length)
  have exponentRead := exponentPart_exact exponent ends (i + sign.length + int.length + frac.length)
  have length : i + sign.length + int.length + frac.length + exp.length - i =
      (sign ++ int ++ frac ++ exp).length := by
    simp only [length_append]
    omega
  unfold number
  simp only [signed, integerRead, fractionRead, exponentRead, bind, Except.bind, length, take_left]
  simp only [length_append, Nat.add_assoc]

/-! Strings. -/

theorem hex4_exact (hex : Hex4 h n) (rest : List Char) (i : Nat) :
    hex4 ⟨h ++ rest, i⟩ = .ok (n, ⟨rest, i + 4⟩) := by
  have taken : (h ++ rest).take 4 = h := by rw [← hex.length, take_left]
  have dropped : (h ++ rest).drop 4 = rest := by rw [← hex.length, drop_left]
  unfold hex4
  simp only [taken, dropped, hex.length, hex.value]
  rfl

theorem isValidChar_of_scalar (small : n < 0x110000) (notHigh : ¬ IsHighSurrogate n)
    (notLow : ¬ IsLowSurrogate n) : n.isValidChar := by
  omega

theorem escape_simple (named : simpleEscape e = some c) (rest : List Char) (i : Nat) :
    escape ⟨e :: rest, i⟩ = .ok (c, ⟨rest, i + 1⟩) := by
  unfold simpleEscape at named
  unfold escape
  dsimp only [next, tail_cons]
  repeat' (split at named)
  all_goals first
    | (cases named; simp_all)
    | cases named

theorem escape_u (rest : List Char) (i : Nat) : escape ⟨'u' :: rest, i⟩ = (do
    let (cp, p) ← unicodeEscape ⟨rest, i + 1⟩
    if cp.isValidChar then Except.ok (Char.ofNat cp, p) else .error .forbiddenCodePoint) := rfl

theorem escape_codePoint {i cp : Nat}
    (read : unicodeEscape ⟨rest, i + 1⟩ = .ok (cp, q)) (valid : cp.isValidChar) :
    escape ⟨'u' :: rest, i⟩ = .ok (Char.ofNat cp, q) := by
  rw [escape_u, read]
  exact if_pos valid

theorem escape_unicode {h : List Char} {n : Nat} (hex : Hex4 h n) (notHigh : ¬ IsHighSurrogate n)
    (notLow : ¬ IsLowSurrogate n) (rest : List Char) (i : Nat) :
    escape ⟨'u' :: (h ++ rest), i⟩ = .ok (Char.ofNat n, ⟨rest, i + 5⟩) := by
  apply escape_codePoint
  · unfold unicodeEscape
    rw [hex4_exact hex]
    simp only [bind, Except.bind]
    rw [if_neg notHigh, if_neg notLow]
  · exact isValidChar_of_scalar (Nat.lt_trans hex.lt (by decide)) notHigh notLow

theorem escape_pair {h l : List Char} {hi lo : Nat} (high : Hex4 h hi) (isHigh : IsHighSurrogate hi)
    (low : Hex4 l lo) (isLow : IsLowSurrogate lo) (rest : List Char) (i : Nat) :
    escape ⟨'u' :: (h ++ '\\' :: 'u' :: (l ++ rest)), i⟩ =
      .ok (Char.ofNat (0x10000 + (hi - 0xD800) * 0x400 + (lo - 0xDC00)), ⟨rest, i + 11⟩) := by
  apply escape_codePoint
  · unfold unicodeEscape
    rw [hex4_exact high]
    simp only [bind, Except.bind]
    rw [if_pos isHigh, if_neg (by simp)]
    simp only [drop_succ_cons, drop_zero]
    rw [hex4_exact low]
    exact if_pos isLow
  · omega

theorem stringFrom_escape {decoded : Char} {i : Nat} (starts : p = ⟨'\\' :: rest, i⟩)
    (read : escape ⟨rest, i + 1⟩ = .ok (decoded, q)) (fuel : Nat) (out : List Char) :
    stringFrom (fuel + 1) out p = stringFrom fuel (out ++ [decoded]) q := by
  subst starts
  simp [stringFrom, next, read]

theorem stringFrom_spelled {u : List Char} (spelled : Spelled u c) (rest : List Char) (i : Nat) :
    ∃ j, ∀ fuel out, stringFrom (fuel + 1) out ⟨u ++ rest, i⟩ = stringFrom fuel (out ++ [c]) ⟨rest, j⟩ := by
  cases spelled with
  | plain printable notQuote notBackslash =>
    refine ⟨i + c.utf8Size, fun fuel out => ?_⟩
    have notControl : ¬ c.toNat < 0x20 := by omega
    simp [stringFrom, notQuote, notBackslash, notControl]
  | simple named => exact ⟨_, stringFrom_escape rfl (escape_simple named rest (i + 1))⟩
  | unicode hex notHigh notLow =>
    exact ⟨_, stringFrom_escape rfl (escape_unicode hex notHigh notLow rest (i + 1))⟩
  | pair high isHigh low isLow =>
    refine ⟨_, stringFrom_escape ?_ (escape_pair high isHigh low isLow rest (i + 1))⟩
    simp

theorem stringFrom_body (spelled : Body body cs) (rest : List Char) (fuel : Nat)
    (out : List Char) (i : Nat) (enough : cs.length < fuel) :
    ∃ j, stringFrom fuel out ⟨body ++ '"' :: rest, i⟩ = some (.ok (out ++ cs, ⟨rest, j⟩)) := by
  induction spelled generalizing fuel out i with
  | nil =>
    obtain ⟨fuel, rfl⟩ := Nat.exists_eq_add_of_lt enough
    exact ⟨i + 1, by simp [stringFrom, next]⟩
  | @cons u text c cs first _ ih =>
    obtain ⟨fuel, rfl⟩ : ∃ k, fuel = k + 1 := ⟨fuel - 1, by omega⟩
    obtain ⟨j, stepped⟩ := stringFrom_spelled first (text ++ '"' :: rest) i
    obtain ⟨k, read⟩ := ih fuel (out ++ [c]) j (by simpa using enough)
    refine ⟨k, ?_⟩
    rw [append_assoc, stepped, read]
    simp

theorem string_exact (derived : Str text s) (rest : List Char) (i : Nat) :
    ∃ j, string ⟨text ++ rest, i⟩ = .ok (s, ⟨rest, j⟩) := by
  obtain ⟨spelled⟩ := derived.quoted
  rename_i body
  have fits : s.toList.length < (body ++ '"' :: rest).length + 1 := by
    have := Body.length_le spelled
    simp only [length_append, length_cons]
    omega
  obtain ⟨j, read⟩ := stringFrom_body spelled rest _ [] (i + 1) fits
  refine ⟨j, ?_⟩
  have opened : next ⟨'"' :: (body ++ ['"']) ++ rest, i⟩ = ⟨body ++ '"' :: rest, i + 1⟩ := by simp [next]
  unfold string
  rw [opened]
  dsimp only
  rw [read]
  simp [bind, Except.bind, derived.ijson]

theorem memberName_exact {k : String} (derived : Name text k) (rest : List Char) (i : Nat) :
    ∃ j, memberName ⟨text ++ rest, i⟩ = .ok (k, ⟨rest, j⟩) := by
  obtain ⟨white, str, white'⟩ := derived
  rename_i before quoted after
  obtain ⟨j, read⟩ := string_exact str (after ++ ':' :: rest) (i + before.length)
  obtain ⟨body, quotedEq⟩ : ∃ body, quoted = '"' :: body := by
    obtain ⟨_⟩ := str.quoted
    exact ⟨_, rfl⟩
  have first : ws ⟨before ++ quoted ++ after ++ [':'] ++ rest, i⟩ =
      ⟨quoted ++ (after ++ ':' :: rest), i + before.length⟩ := by
    have skipped : skip isWs ⟨before ++ (quoted ++ (after ++ ':' :: rest)), i⟩ = _ :=
      skip_exact white (by simp [quotedEq, isWs]) i
    simpa [ws] using skipped
  have second : ws ⟨after ++ ':' :: rest, j⟩ = ⟨':' :: rest, j + after.length⟩ :=
    skip_exact white' (by simp [isWs]) j
  refine ⟨j + after.length + 1, ?_⟩
  unfold memberName
  simp only [first]
  rw [if_neg (by simp [quotedEq, peek]), read]
  simp only [bind, Except.bind, second]
  simp [peek, next]

/-! Values. -/

def Follows (rest : List Char) : Prop :=
  ∀ c ∈ rest.head?, isWs c = true ∨ c = ',' ∨ c = ']' ∨ c = '\x7d'

variable {w rest : List Char}

theorem follows_ws (white : Ws w) (follows : Follows rest) : Follows (w ++ rest) := by
  cases w with
  | nil => exact follows
  | cons c w =>
    intro d held
    cases held
    exact .inl (white c (by simp))

theorem Follows.ends (follows : Follows rest) : Ends rest := by
  have none_ : ∀ c ∈ rest.head?, c.isDigit = false ∧ c ≠ '.' ∧ c ≠ 'e' ∧ c ≠ 'E' := by
    intro c held
    have known := follows c held
    simp only [isWs, Bool.or_eq_true, beq_iff_eq] at known
    rcases known with ((((rfl | rfl) | rfl) | rfl) | rfl | rfl | rfl) <;> decide
  refine ⟨fun c held => (none_ c held).1, ?_, ?_, ?_⟩
  · intro held
    exact (none_ '.' held).2.1 rfl
  · intro held
    exact (none_ 'e' held).2.2.1 rfl
  · intro held
    exact (none_ 'E' held).2.2.2 rfl

/-- What the reader does with a complete value: it closes what ends here and reads on. -/
def proceed (fuel : Nat) (stack : List Open) (v : Json) (p : Parser) :
    Option (Except JsonError (Json × Parser)) :=
  match addValue stack v p with
  | .error e => some (.error e)
  | .ok (.whole v p) => some (.ok (v, p))
  | .ok (.more stack p) => documentFrom fuel stack p

/-- The reader, with `stack` open, reads `whole` and leaves white space. -/
def Reads (stack : List Open) (p : Parser) (whole : Json) : Prop :=
  ∃ fuel q, documentFrom fuel stack p = some (.ok (whole, q)) ∧ Ws q.rest

/-- With `v` just complete, the reader goes on to read `whole`. -/
def Proceeds (stack : List Open) (v : Json) (p : Parser) (whole : Json) : Prop :=
  ∃ fuel q, proceed fuel stack v p = some (.ok (whole, q)) ∧ Ws q.rest

theorem Proceeds.reads (goes : Proceeds stack v q whole)
    (begun : p.beginValue = .ok (.complete v q)) : Reads stack p whole := by
  obtain ⟨fuel, r, read, white⟩ := goes
  refine ⟨fuel + 1, r, ?_, white⟩
  rw [documentFrom, begun]
  exact read

theorem Reads.opened (reads : Reads (container :: stack) q whole)
    (begun : p.beginValue = .ok (.opened container q)) : Reads stack p whole := by
  obtain ⟨fuel, r, read, white⟩ := reads
  refine ⟨fuel + 1, r, ?_, white⟩
  rw [documentFrom, begun]
  exact read

theorem beginValue_ws (p : Parser) : p.ws.beginValue = p.beginValue := by
  unfold beginValue
  rw [ws_ws]

theorem reads_ws (reads : Reads stack p.ws whole) : Reads stack p whole := by
  obtain ⟨fuel, q, read, white⟩ := reads
  refine ⟨fuel, q, ?_, white⟩
  cases fuel with
  | zero => cases read
  | succ fuel =>
    rw [documentFrom, beginValue_ws] at read
    exact read

/-- The first character of a value is none that white space or a closing bracket starts with. -/
theorem value_head (derived : Value text v) :
    ∃ c rest, text = c :: rest ∧ isWs c = false ∧ c ≠ ']' := by
  cases derived with
  | null | true | false => exact ⟨_, _, rfl, by decide, by decide⟩
  | number derived =>
    obtain ⟨isSign, integer, _, _⟩ := derived
    cases isSign with
    | minus => exact ⟨_, _, rfl, by decide, by decide⟩
    | absent =>
      cases integer with
      | zero => exact ⟨_, _, rfl, by decide, by decide⟩
      | @digits first _ digit =>
        refine ⟨first, _, rfl, ?_, ?_⟩
        · simp only [isWs, Bool.or_eq_false_iff, beq_eq_false_iff_ne]
          refine ⟨⟨⟨?_, ?_⟩, ?_⟩, ?_⟩ <;> rintro rfl <;> exact absurd digit (by decide)
        · rintro rfl
          exact absurd digit (by decide)
  | string derived =>
    obtain ⟨_⟩ := derived.quoted
    exact ⟨_, _, rfl, by decide, by decide⟩
  | emptyArray | array | emptyObject | object => exact ⟨_, _, rfl, by decide, by decide⟩

theorem ws_value {before text rest : List Char} {v : Json} (white : Ws before)
    (derived : Value text v) (i : Nat) :
    ws ⟨before ++ (text ++ rest), i⟩ = ⟨text ++ rest, i + before.length⟩ := by
  obtain ⟨c, others, rfl, black, _⟩ := value_head derived
  exact skip_exact white (by simpa using black) i

theorem beginValue_number (derived : Number text) (ends : Ends rest) (i : Nat) :
    beginValue ⟨text ++ rest, i⟩ = .ok (.complete (.number ⟨String.ofList text⟩) ⟨rest, i + text.length⟩) := by
  have read := number_exact derived ends i
  obtain ⟨c, others, textEq, black, _⟩ := value_head (.number derived)
  have starts : c = '-' ∨ c.isDigit = true := by
    obtain ⟨isSign, integer, _, _⟩ := derived
    cases isSign with
    | minus => exact .inl (cons.inj textEq).1.symm
    | absent =>
      cases integer with
      | zero => exact .inr (by rw [← (cons.inj textEq).1]; rfl)
      | digits digit => exact .inr (by rw [← (cons.inj textEq).1]; exact digit)
  have other : ∀ d : Char, d ≠ '-' → d.isDigit = false → c ≠ d := by
    rintro d notMinus notDigit rfl
    rcases starts with rfl | digit
    · exact notMinus rfl
    · rw [notDigit] at digit
      cases digit
  subst textEq
  simp only [cons_append] at read ⊢
  unfold beginValue
  simp only [ws_stay i black, peek, head?_cons, beq_iff_eq]
  rw [if_neg (other _ (by decide) (by decide)), if_neg (other _ (by decide) (by decide)),
    if_neg (other _ (by decide) (by decide)), if_neg (other _ (by decide) (by decide)),
    if_neg (other _ (by decide) (by decide)), if_neg (other _ (by decide) (by decide)),
    if_pos (by simpa using starts), read]
  rfl

theorem beginValue_string {s : String} (derived : Str text s) (i : Nat) :
    ∃ j, beginValue ⟨text ++ rest, i⟩ = .ok (.complete (.string s) ⟨rest, j⟩) := by
  obtain ⟨j, read⟩ := string_exact derived rest i
  obtain ⟨spelled⟩ := derived.quoted
  refine ⟨j, ?_⟩
  simp only [cons_append] at read ⊢
  unfold beginValue
  simp only [ws_stay i (by decide : isWs '"' = false), peek, head?_cons, read]
  simp [Except.map]

theorem beginValue_null (rest : List Char) (i : Nat) :
    beginValue ⟨"null".toList ++ rest, i⟩ = .ok (.complete .null ⟨rest, i + 4⟩) := rfl

theorem beginValue_true (rest : List Char) (i : Nat) :
    beginValue ⟨"true".toList ++ rest, i⟩ = .ok (.complete (.bool true) ⟨rest, i + 4⟩) := rfl

theorem beginValue_false (rest : List Char) (i : Nat) :
    beginValue ⟨"false".toList ++ rest, i⟩ = .ok (.complete (.bool false) ⟨rest, i + 5⟩) := rfl

/-! Containers: what the reader does with the character after a complete item or member. -/

variable {after rest : List Char}

theorem ws_mark (white : Ws after) (black : isWs mark = false) (j : Nat) :
    ws ⟨after ++ mark :: rest, j⟩ = ⟨mark :: rest, j + after.length⟩ :=
  skip_exact white (by simpa using black) j

variable {stack : List Open}

theorem Proceeds.closeArray (white : Ws after)
    (goes : ∀ k, Proceeds stack (.array (done ++ [v])) ⟨rest, k⟩ whole) :
    Proceeds (.array done :: stack) v ⟨after ++ ']' :: rest, j⟩ whole := by
  obtain ⟨fuel, q, read, left⟩ := goes (j + after.length + 1)
  refine ⟨fuel, q, ?_, left⟩
  rw [← read]
  simp only [proceed, addValue, ws_mark white (by decide : isWs ']' = false),
    peek, head?_cons, next, tail_cons]
  rfl

theorem Reads.nextItem (white : Ws after)
    (reads : ∀ k, Reads (.array (done ++ [v]) :: stack) ⟨rest, k⟩ whole) :
    Proceeds (.array done :: stack) v ⟨after ++ ',' :: rest, j⟩ whole := by
  obtain ⟨fuel, q, read, left⟩ := reads (j + after.length + 1)
  refine ⟨fuel, q, ?_, left⟩
  rw [← read]
  simp only [proceed, addValue, ws_mark white (by decide : isWs ',' = false),
    peek, head?_cons, next, tail_cons]
  rfl

theorem any_name {members : List (String × Json)} (absent : name ∉ members.map (·.1)) :
    (members.any fun m => m.1 == name) = false := by
  simp only [any_eq_false, beq_iff_eq]
  rintro m held rfl
  exact absent (mem_map_of_mem held)

theorem Proceeds.closeObject {j : Nat} (absent : name ∉ done.map (·.1))
    (white : Ws after) (goes : ∀ k, Proceeds stack (.object (done ++ [(name, v)])) ⟨rest, k⟩ whole) :
    Proceeds (.object done name :: stack) v ⟨after ++ '\x7d' :: rest, j⟩ whole := by
  obtain ⟨fuel, q, read, left⟩ := goes (j + after.length + 1)
  refine ⟨fuel, q, ?_, left⟩
  rw [← read]
  simp only [proceed, addValue, any_name absent, ws_mark white (by decide : isWs '\x7d' = false),
    peek, head?_cons, next, tail_cons]
  rfl

theorem Reads.nextMember {j : Nat} (absent : name ∉ done.map (·.1))
    (white : Ws after) (reads : ∀ k, ∃ following q, memberName ⟨rest, k⟩ = .ok (following, q) ∧
      Reads (.object (done ++ [(name, v)]) following :: stack) q whole) :
    Proceeds (.object done name :: stack) v ⟨after ++ ',' :: rest, j⟩ whole := by
  obtain ⟨following, p, named, fuel, q, read, left⟩ := reads (j + after.length + 1)
  refine ⟨fuel, q, ?_, left⟩
  rw [← read]
  simp only [proceed, addValue, any_name absent, ws_mark white (by decide : isWs ',' = false), peek,
    head?_cons, next, tail_cons, named]
  rfl

theorem beginValue_emptyArray (white : Ws w) (i : Nat) :
    beginValue ⟨'[' :: (w ++ [']']) ++ rest, i⟩ = .ok (.complete (.array []) ⟨rest, i + 1 + w.length + 1⟩) := by
  have inner : ws ⟨w ++ ']' :: rest, i + 1⟩ = ⟨']' :: rest, i + 1 + w.length⟩ :=
    ws_mark white (by decide) (i + 1)
  have shape : '[' :: (w ++ [']']) ++ rest = '[' :: (w ++ ']' :: rest) := by simp
  rw [shape]
  change beginArray ⟨'[' :: (w ++ ']' :: rest), i⟩ = _
  simp only [beginArray, next, tail_cons, inner, peek, head?_cons]
  rfl

theorem beginValue_emptyObject (white : Ws w) (i : Nat) :
    beginValue ⟨'\x7b' :: (w ++ ['\x7d']) ++ rest, i⟩ =
      .ok (.complete (.object []) ⟨rest, i + 1 + w.length + 1⟩) := by
  have inner : ws ⟨w ++ '\x7d' :: rest, i + 1⟩ = ⟨'\x7d' :: rest, i + 1 + w.length⟩ :=
    ws_mark white (by decide) (i + 1)
  have shape : '\x7b' :: (w ++ ['\x7d']) ++ rest = '\x7b' :: (w ++ '\x7d' :: rest) := by simp
  rw [shape]
  change beginObject ⟨'\x7b' :: (w ++ '\x7d' :: rest), i⟩ = _
  simp only [beginObject, next, tail_cons, inner, peek, head?_cons]
  rfl

theorem element_head (derived : Element text v) (rest : List Char) (i : Nat) :
    (ws ⟨text ++ rest, i⟩).peek ≠ some ']' := by
  obtain @⟨before, inner, after, _, white, value, _⟩ := derived
  obtain ⟨c, others, rfl, black, notClose⟩ := value_head value
  have shape : before ++ c :: others ++ after ++ rest = before ++ ((c :: others) ++ (after ++ rest)) := by simp
  rw [shape, ws_value white value]
  simpa [peek] using notClose

theorem elements_head (derived : Elements body items) (rest : List Char)
    (i : Nat) : (ws ⟨body ++ rest, i⟩).peek ≠ some ']' := by
  cases derived with
  | last element => exact element_head element rest i
  | @more text others _ _ element _ =>
    rw [append_assoc]
    exact element_head element _ i

theorem members_head (derived : Members body members) (rest : List Char) (i : Nat) :
    (ws ⟨body ++ rest, i⟩).peek = some '"' := by
  have named : ∀ {name : List Char} {k : String} (others : List Char), Name name k →
      (ws ⟨name ++ others, i⟩).peek = some '"' := by
    intro name k others derived
    obtain @⟨before, text, after, _, white, str, _⟩ := derived
    obtain @⟨quoted, _, _⟩ := str.quoted
    have skipped : ws ⟨before ++ '"' :: (quoted ++ ['"'] ++ after ++ [':'] ++ others), i⟩ = _ :=
      ws_mark white (by decide) i
    simp only [append_assoc, cons_append] at skipped ⊢
    rw [skipped]
    rfl
  cases derived with
  | last isName _ =>
    rw [append_assoc]
    exact named _ isName
  | more isName _ _ =>
    rw [append_assoc, append_assoc]
    exact named _ isName

theorem memberName_ws (p : Parser) : p.ws.memberName = p.memberName := by
  unfold memberName
  rw [ws_ws]

theorem Reads.beginArray (derived : Elements body items) (rest : List Char) (i : Nat)
    (reads : ∀ j, Reads (.array [] :: stack) ⟨body ++ ']' :: rest, j⟩ whole) :
    Reads stack ⟨'[' :: (body ++ [']']) ++ rest, i⟩ whole := by
  have shape : '[' :: (body ++ [']']) ++ rest = '[' :: (body ++ ']' :: rest) := by simp
  rw [shape]
  have begun : beginValue ⟨'[' :: (body ++ ']' :: rest), i⟩ =
      .ok (.opened (.array []) (ws ⟨body ++ ']' :: rest, i + 1⟩)) := by
    change Parser.beginArray ⟨'[' :: (body ++ ']' :: rest), i⟩ = _
    exact if_neg (elements_head derived _ _)
  obtain ⟨fuel, q, read, left⟩ := reads (i + 1)
  refine Reads.opened ⟨fuel, q, ?_, left⟩ begun
  cases fuel with
  | zero => cases read
  | succ fuel =>
    rw [documentFrom] at read ⊢
    rw [beginValue_ws]
    exact read

theorem Reads.beginObject (derived : Members body members) (rest : List Char) (i : Nat)
    (reads : ∀ j, ∃ name q, memberName ⟨body ++ '\x7d' :: rest, j⟩ = .ok (name, q) ∧
      Reads (.object [] name :: stack) q whole) :
        Reads stack ⟨'\x7b' :: (body ++ ['\x7d']) ++ rest, i⟩ whole := by
  have shape : '\x7b' :: (body ++ ['\x7d']) ++ rest = '\x7b' :: (body ++ '\x7d' :: rest) := by simp
  rw [shape]
  obtain ⟨name, q, named, inner⟩ := reads (i + 1)
  refine inner.opened ?_
  change Parser.beginObject ⟨'\x7b' :: (body ++ '\x7d' :: rest), i⟩ = _
  have notEmpty : (ws ⟨body ++ '\x7d' :: rest, i + 1⟩).peek ≠ some '\x7d' := by
    rw [members_head derived]
    decide
  refine (if_neg notEmpty).trans ?_
  rw [show next ⟨'\x7b' :: (body ++ '\x7d' :: rest), i⟩ = ⟨body ++ '\x7d' :: rest, i + 1⟩ from rfl,
    memberName_ws, named]
  rfl

mutual

theorem reads_value {text : List Char} : Value text v → ∀ {stack : List Open} {rest : List Char}
    {whole : Json} {i : Nat}, Follows rest → (∀ j, Proceeds stack v ⟨rest, j⟩ whole) →
    Reads stack ⟨text ++ rest, i⟩ whole
  | .null, _, _, _, _, _, goes => (goes _).reads (beginValue_null _ _)
  | .true, _, _, _, _, _, goes => (goes _).reads (beginValue_true _ _)
  | .false, _, _, _, _, _, goes => (goes _).reads (beginValue_false _ _)
  | .number derived, _, _, _, _, follows, goes => (goes _).reads (beginValue_number derived follows.ends _)
  | .string derived, _, _, _, _, _, goes => by
      obtain ⟨j, begun⟩ := beginValue_string derived _
      exact (goes j).reads begun
  | .emptyArray white, _, _, _, _, _, goes => (goes _).reads (beginValue_emptyArray white _)
  | .array elements, _, _, _, _, _, goes => Reads.beginArray elements _ _ fun _ => reads_elements elements goes
  | .emptyObject white, _, _, _, _, _, goes => (goes _).reads (beginValue_emptyObject white _)
  | .object members distinct, _, _, _, _, _, goes =>
    Reads.beginObject members _ _ fun _ => reads_members members (by simpa using distinct) goes

theorem reads_element {text : List Char} : Element text v → ∀ {stack : List Open} {rest : List Char}
    {whole : Json} {i : Nat}, Follows rest → (∀ after j, Ws after → Proceeds stack v ⟨after ++ rest, j⟩ whole) →
    Reads stack ⟨text ++ rest, i⟩ whole
  | .mk white value white', _, _, _, _, follows, goes => by
      apply reads_ws
      rw [append_assoc, append_assoc, ws_value white value]
      exact reads_value value (follows_ws white' follows) fun j => goes _ j white'

theorem reads_elements {body : List Char} : Elements body items → ∀ {stack : List Open}
    {rest : List Char} {done : List Json} {whole : Json} {i : Nat},
    (∀ j, Proceeds stack (.array (done ++ items)) ⟨rest, j⟩ whole) →
    Reads (.array done :: stack) ⟨body ++ ']' :: rest, i⟩ whole
  | .last element, _, _, _, _, _, goes =>
    reads_element element (by simp [Follows]) fun _ _ white => Proceeds.closeArray white goes
  | .more element others, _, _, _, _, _, goes => by
      rw [append_assoc]
      refine reads_element element (by simp [Follows]) fun _ _ white => Reads.nextItem white fun _ => ?_
      exact reads_elements others (by simpa using goes)

theorem reads_members : Members body members →
    ∀ {stack : List Open} {rest : List Char} {done : List (String × Json)} {whole : Json} {i : Nat},
    ((done ++ members).map (·.1)).Nodup → (∀ j, Proceeds stack (.object (done ++ members)) ⟨rest, j⟩ whole) →
    ∃ name q, memberName ⟨body ++ '\x7d' :: rest, i⟩ = .ok (name, q) ∧ Reads (.object done name :: stack) q whole
  | @Members.last _ text k _ named element, _, rest, done, _, i, distinct, goes => by
      obtain ⟨j, read⟩ := memberName_exact named (text ++ '\x7d' :: rest) i
      refine ⟨k, ⟨text ++ '\x7d' :: rest, j⟩, by rw [append_assoc]; exact read, ?_⟩
      have absent : k ∉ done.map (·.1) := by
        simp only [map_append, map_cons, map_nil, nodup_append] at distinct
        intro held
        exact distinct.2.2 k held k (by simp) rfl
      exact reads_element element (by simp [Follows]) fun _ _ white => Proceeds.closeObject absent white goes
  | @Members.more _ text following k _ _ named element others, _, rest, done, _, i, distinct, goes => by
      obtain ⟨j, read⟩ := memberName_exact named (text ++ ',' :: (following ++ '\x7d' :: rest)) i
      refine ⟨k, _, by simpa using read, ?_⟩
      have absent : k ∉ done.map (·.1) := by
        simp only [map_append, map_cons, nodup_append] at distinct
        intro held
        exact distinct.2.2 k held k (by simp) rfl
      refine reads_element element (by simp [Follows]) fun _ _ white => Reads.nextMember absent white fun _ => ?_
      exact reads_members others (by simpa using distinct) (by simpa using goes)

end

theorem documentFrom_mono (read : documentFrom fuel stack p = some r) (extra : Nat) :
    documentFrom (fuel + extra) stack p = some r := by
  induction fuel generalizing stack p with
  | zero => cases read
  | succ fuel ih =>
    rw [Nat.add_right_comm, documentFrom]
    rw [documentFrom] at read
    cases begun : p.beginValue with
    | error e => simpa only [begun] using read
    | ok begins =>
      rw [begun] at read
      cases begins with
      | opened container q => exact ih read
      | complete v q =>
        simp only at read ⊢
        cases added : addValue stack v q with
        | error e => simpa only [added] using read
        | ok result =>
          rw [added] at read
          cases result with
          | whole v q => exact read
          | more stack q => exact ih read

theorem documentFrom_unique (one : documentFrom first stack p = some r)
    (other : documentFrom second stack p = some s) : r = s := by
  have left := documentFrom_mono one second
  have right := documentFrom_mono other first
  rw [Nat.add_comm, left] at right
  exact Option.some.inj right

end Parser

theorem parse_encode {text : List Char} (derived : Grammar.Element text v) :
    parse (Utf8.encode text) = .ok v := by
  obtain ⟨fuel, q, read, left⟩ : Parser.Reads [] ⟨text, 0⟩ v := by
    have reads : Parser.Reads [] ⟨text ++ [], 0⟩ v :=
      Parser.reads_element derived (by simp [Parser.Follows]) fun after j white =>
        ⟨0, ⟨after ++ [], j⟩, rfl, by simpa using white⟩
    simpa using reads
  obtain ⟨r, bounded⟩ := Option.isSome_iff_exists.mp
    (Parser.documentFrom_isSome (text.length + 1) [] ⟨text, 0⟩ (Nat.lt_succ_self _))
  obtain rfl := Parser.documentFrom_unique bounded read
  have nothing : q.ws.rest = [] := List.dropWhile_eq_nil_iff.mpr left
  unfold parse
  rw [Utf8.decode_encode]
  simp only [bounded, Option.getD_some, bind, Except.bind, nothing, List.isEmpty_nil, if_true]

end Oac.Json
