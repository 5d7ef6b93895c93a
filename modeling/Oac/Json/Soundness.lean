import Oac.Json.Completeness

/-! What the reader reads, the grammar derives: from each successful part of a run, the text it took
and a derivation of the value it returned. -/

namespace Oac.Json

namespace Parser

open Grammar List

variable {text : List Char}

theorem ws_split (p : Parser) : ∃ w, Ws w ∧ p.rest = w ++ p.ws.rest :=
  ⟨p.rest.takeWhile isWs, fun _ held => mem_takeWhile_imp held, by simp [ws, skip]⟩

variable {p q : Parser}

theorem rest_of_peek (peeked : p.peek = some c) : p.rest = c :: p.next.rest := by
  cases held : p.rest with
  | nil => simp [peek, held] at peeked
  | cons first rest =>
    simp only [peek, held, head?_cons, Option.some.injEq] at peeked
    simp [next, held, peeked]

/-! Numbers. -/

/-- From `p` the reader took `text` and came to `q`, with positions that count characters. -/
structure Took (p : Parser) (text : List Char) (q : Parser) : Prop where
  split : p.rest = text ++ q.rest
  moved : q.i = p.i + text.length

theorem Took.none (p : Parser) : Took p [] p := ⟨rfl, rfl⟩

theorem Took.peeked (peeked : p.peek = some c) : Took p [c] p.next := ⟨rest_of_peek peeked, rfl⟩

theorem Took.trans (first : Took p text q) (second : Took q more r) : Took p (text ++ more) r := by
  refine ⟨?_, ?_⟩
  · rw [first.split, second.split, append_assoc]
  · rw [second.moved, first.moved, length_append, Nat.add_assoc]

theorem took_skip (cls : Char → Bool) (p : Parser) :
    ∃ run, (∀ c ∈ run, cls c = true) ∧ Took p run (p.skip cls) :=
  ⟨p.rest.takeWhile cls, fun _ held => mem_takeWhile_imp held, by simp [skip], rfl⟩

theorem digits1_sound (read : p.digits1 reason = .ok q) : ∃ ds, Digits ds ∧ Took p ds q := by
  obtain ⟨run, digits, took⟩ := took_skip Char.isDigit p
  unfold digits1 at read
  dsimp only at read
  split at read
  · cases read
  · next some_ =>
    cases read
    refine ⟨run, ⟨?_, digits⟩, took⟩
    rintro rfl
    exact some_ (by simpa using took.moved)

theorem integerPart_sound (read : p.integerPart = .ok q) : ∃ int, Integer int ∧ Took p int q := by
  unfold integerPart at read
  cases peeked : p.peek with
  | none =>
    rw [peeked] at read
    cases read
  | some c =>
    rw [peeked] at read
    have split := rest_of_peek peeked
    simp only at read
    split at read
    · next zero =>
      cases read
      rw [beq_iff_eq.mp zero] at peeked
      exact ⟨['0'], .zero, .peeked peeked⟩
    · next nonzero =>
      split at read
      · next digit =>
        cases read
        obtain ⟨run, digits, took⟩ := took_skip Char.isDigit p
        refine ⟨run, ?_, took⟩
        have runs := took.split
        cases run with
        | nil =>
          have stuck := head?_dropWhile_not Char.isDigit p.rest
          have still : p.rest.dropWhile Char.isDigit = c :: p.next.rest := by
            rw [← split]
            exact runs.symm
          rw [still] at stuck
          simp only [head?_cons] at stuck
          rw [digit] at stuck
          cases stuck
        | cons first others =>
          have same : first = c := by
            rw [split] at runs
            exact (cons.inj runs).1.symm
          subst same
          exact .digits digit (by simpa using nonzero) fun c held => digits c (by simp [held])
      · cases read

theorem fractionPart_sound (read : p.fractionPart = .ok q) : ∃ frac, Fraction frac ∧ Took p frac q := by
  unfold fractionPart at read
  split at read
  · next point =>
    obtain ⟨ds, digits, took⟩ := digits1_sound read
    exact ⟨'.' :: ds, .present digits, (Took.peeked point).trans took⟩
  · cases read
    exact ⟨[], .absent, .none _⟩

/-- One of two characters, and which. -/
theorem took_either (found : p.peek = some a ∨ p.peek = some b) :
    ∃ c, (c = a ∨ c = b) ∧ Took p [c] p.next := by
  rcases found with first | second
  · exact ⟨a, .inl rfl, .peeked first⟩
  · exact ⟨b, .inr rfl, .peeked second⟩

theorem exponentPart_sound (read : p.exponentPart = .ok q) : ∃ exp, Exponent exp ∧ Took p exp q := by
  unfold exponentPart at read
  split at read
  · next marked =>
    obtain ⟨e, isE, starts⟩ := took_either marked
    dsimp only at read
    split at read
    · next signed =>
      obtain ⟨sign, isSign, follows⟩ := took_either signed
      obtain ⟨ds, digits, took⟩ := digits1_sound read
      exact ⟨e :: sign :: ds, .signed isE isSign digits, starts.trans (follows.trans took)⟩
    · obtain ⟨ds, digits, took⟩ := digits1_sound read
      exact ⟨e :: ds, .bare isE digits, starts.trans took⟩
  · cases read
    exact ⟨[], .absent, .none _⟩

theorem number_sound (read : p.number = .ok (v, q)) :
    ∃ text, Number text ∧ v = .number ⟨String.ofList text⟩ ∧ Took p text q := by
  obtain ⟨r, integerRead, read⟩ := Results.bind_eq_ok.mp read
  obtain ⟨t, fractionRead, read⟩ := Results.bind_eq_ok.mp read
  obtain ⟨u, exponentRead, read⟩ := Results.bind_eq_ok.mp read
  cases read
  obtain ⟨sign, isSign, signTook⟩ :
    ∃ sign, Sign sign ∧ Took p sign (if p.peek = some '-' then p.next else p) := by
    split
    · next minus => exact ⟨['-'], .minus, .peeked minus⟩
    · exact ⟨[], .absent, .none p⟩
  obtain ⟨int, integer, integerTook⟩ := integerPart_sound integerRead
  obtain ⟨frac, fraction, fractionTook⟩ := fractionPart_sound fractionRead
  obtain ⟨exp, exponent, exponentTook⟩ := exponentPart_sound exponentRead
  have took := ((signTook.trans integerTook).trans fractionTook).trans exponentTook
  refine ⟨_, .mk isSign integer fraction exponent, ?_, took⟩
  rw [took.split, took.moved, Nat.add_sub_cancel_left, take_left]

/-! Strings. -/

theorem hex4_sound (read : p.hex4 = .ok (n, q)) : ∃ h, Hex4 h n ∧ p.rest = h ++ q.rest := by
  unfold hex4 at read
  dsimp only at read
  split at read
  · cases read
  · next long =>
    cases value : hexValue (p.rest.take 4) with
    | none =>
      rw [value] at read
      cases read
    | some m =>
      rw [value] at read
      cases read
      refine ⟨p.rest.take 4, ⟨?_, value⟩, (take_append_drop 4 p.rest).symm⟩
      have := length_take_le 4 p.rest
      omega

theorem unicodeEscape_sound (read : p.unicodeEscape = .ok (cp, q)) :
    ∃ u, Spelled ('\\' :: 'u' :: u) (Char.ofNat cp) ∧ p.rest = u ++ q.rest := by
  obtain ⟨⟨hi, r⟩, first, read⟩ := Results.bind_eq_ok.mp read
  obtain ⟨h, high, split⟩ := hex4_sound first
  dsimp only at read
  split at read
  · next isHigh =>
    split at read
    · cases read
    · next escaped =>
      obtain ⟨⟨lo, t⟩, second, read⟩ := Results.bind_eq_ok.mp read
      obtain ⟨l, low, lowSplit⟩ := hex4_sound second
      split at read
      · next isLow =>
        obtain ⟨rfl, rfl⟩ := Prod.mk.inj (Except.ok.inj read)
        refine ⟨h ++ '\\' :: 'u' :: l, Spelled.pair high isHigh low isLow, ?_⟩
        have marked : r.rest = '\\' :: 'u' :: r.rest.drop 2 := by
          have := take_append_drop 2 r.rest
          rw [not_not.mp escaped] at this
          exact this.symm
        have following : r.rest.drop 2 = l ++ t.rest := lowSplit
        rw [split, marked, following]
        simp
      · cases read
  · next notHigh =>
    split at read
    · cases read
    · next notLow =>
      cases read
      exact ⟨h, .unicode high notHigh notLow, split⟩

theorem escape_sound (read : p.escape = .ok (c, q)) :
    ∃ u, Spelled ('\\' :: u) c ∧ p.rest = u ++ q.rest := by
  obtain ⟨text, i⟩ := p
  cases text with
  | nil => cases read
  | cons e rest =>
    cases named : simpleEscape e with
    | some d =>
      rw [escape_simple named] at read
      cases read
      exact ⟨[e], .simple named, rfl⟩
    | none =>
      by_cases unicode : e = 'u'
      · subst unicode
        change (unicodeEscape ⟨rest, i + 1⟩ >>= _) = _ at read
        obtain ⟨⟨cp, r⟩, decoded, read⟩ := Results.bind_eq_ok.mp read
        dsimp only at read
        split at read
        · cases read
          obtain ⟨u, spelled, split⟩ := unicodeEscape_sound decoded
          exact ⟨'u' :: u, spelled, by rw [cons_append, ← split]⟩
        · cases read
      · simp only [simpleEscape] at named
        simp only [escape] at read
        repeat' (split at named)
        all_goals first
          | (cases named; done)
          | simp_all [err]

theorem stringFrom_sound {fuel : Nat}
    (read : stringFrom fuel out p = some (.ok (text, q))) :
    ∃ body cs, text = out ++ cs ∧ Body body cs ∧ p.rest = body ++ '"' :: q.rest := by
  induction fuel generalizing out p with
  | zero => cases read
  | succ fuel ih =>
    obtain ⟨rest, i⟩ := p
    cases rest with
    | nil => cases read
    | cons c rest =>
      simp only [stringFrom] at read
      split at read
      · next quote =>
        cases read
        exact ⟨[], [], by simp, .nil, by rw [beq_iff_eq.mp quote]; rfl⟩
      · next notQuote =>
        split at read
        · next backslash =>
          cases escaped : escape (next ⟨c :: rest, i⟩) with
          | error e =>
            rw [escaped] at read
            cases read
          | ok result =>
            obtain ⟨decoded, r⟩ := result
            rw [escaped] at read
            obtain ⟨body, cs, rfl, spelled, split⟩ := ih read
            obtain ⟨u, unit, unitSplit⟩ := escape_sound escaped
            refine ⟨'\\' :: u ++ body, decoded :: cs, by simp, .cons unit spelled, ?_⟩
            rw [beq_iff_eq.mp backslash, cons_append, cons_append, append_assoc, ← split]
            exact congrArg _ unitSplit
        · next notBackslash =>
          split at read
          · cases read
          · next printable =>
            obtain ⟨body, cs, rfl, spelled, split⟩ := ih read
            have plain : Spelled [c] c := .plain (by omega) (by simpa using notQuote)
              (by simpa using notBackslash)
            refine ⟨[c] ++ body, c :: cs, by simp, .cons plain spelled, ?_⟩
            simpa using split

theorem string_sound (quote : p.peek = some '"') (read : p.string = .ok (s, q)) :
    ∃ text, Str text s ∧ p.rest = text ++ q.rest := by
  unfold string at read
  dsimp only at read
  obtain ⟨⟨text, r⟩, scanned, read⟩ := Results.bind_eq_ok.mp read
  cases found : stringFrom (p.next.rest.length + 1) [] p.next with
  | none =>
    rw [found] at scanned
    cases scanned
  | some result =>
    rw [found] at scanned
    obtain rfl : result = .ok (text, r) := scanned
    split at read
    · next ijson =>
      cases read
      obtain ⟨body, cs, rfl, spelled, split⟩ := stringFrom_sound found
      refine ⟨'"' :: (body ++ ['"']), ⟨.mk (by simpa using spelled), by simpa using ijson⟩, ?_⟩
      rw [rest_of_peek quote, split]
      simp
    · cases read

theorem memberName_sound (read : p.memberName = .ok (k, q)) :
    ∃ text, Name text k ∧ p.rest = text ++ q.rest := by
  unfold memberName at read
  dsimp only at read
  split at read
  · cases read
  · next quote =>
    obtain ⟨⟨name, r⟩, named, read⟩ := Results.bind_eq_ok.mp read
    split at read
    · cases read
    · next colon =>
      cases read
      obtain ⟨before, white, first⟩ := ws_split p
      obtain ⟨text, str, second⟩ := string_sound (not_not.mp quote) named
      obtain ⟨after, white', third⟩ := ws_split r
      refine ⟨_, .mk white str white', ?_⟩
      rw [first, second, third, rest_of_peek (not_not.mp colon)]
      simp

/-! Values. -/

theorem literal_sound (read : p.literal word v = .ok (w, q)) :
    w = v ∧ p.rest = word.toList ++ q.rest := by
  unfold literal at read
  dsimp only at read
  split at read
  · next starts =>
    cases read
    refine ⟨rfl, ?_⟩
    have := take_append_drop word.toList.length p.rest
    rw [starts] at this
    exact this.symm
  · cases read

theorem Elements.padded (white : Ws w) (derived : Elements body items) : Elements (w ++ body) items := by
  have element : ∀ {text : List Char} {v : Json}, Element text v → Element (w ++ text) v := by
    rintro text v @⟨before, inner, after, _, white', value, white''⟩
    have both : Ws (w ++ before) := by
      intro c held
      rcases mem_append.mp held with first | second
      · exact white c first
      · exact white' c second
    simpa using Element.mk both value white''
  cases derived with
  | last derived => exact .last (element derived)
  | more derived others => simpa using Elements.more (element derived) others

theorem Name.padded (white : Ws w) (derived : Name text k) : Name (w ++ text) k := by
  obtain @⟨before, quoted, after, _, white', str, white''⟩ := derived
  have both : Ws (w ++ before) := by
    intro c held
    rcases mem_append.mp held with first | second
    · exact white c first
    · exact white' c second
  simpa using Name.mk both str white''

/-- What a value has taken once its first character is read: all of it, or up to the first item or
the first name of a container. -/
inductive Taken (p : Parser) : Begun → Prop where
  | complete {before text : List Char} {v : Json} {q : Parser} : Ws before → Value text v →
      p.rest = before ++ (text ++ q.rest) → Taken p (.complete v q)
  | array {before inner : List Char} {q : Parser} : Ws before → Ws inner →
      p.rest = before ++ '[' :: (inner ++ q.rest) → Taken p (.opened (.array []) q)
  | object {before text : List Char} {name : String} {q : Parser} : Ws before → Name text name →
      p.rest = before ++ '\x7b' :: (text ++ q.rest) → Taken p (.opened (.object [] name) q)

variable {before : List Char}

theorem beginArray_sound (white : Ws before)
    (split : o.rest = before ++ p.rest) (starts : p.peek = some '[') (read : p.beginArray = .ok begun) :
    Taken o begun := by
  obtain ⟨inner, white', inside⟩ := ws_split p.next
  have whole : o.rest = before ++ '[' ::
    (inner ++ p.next.ws.rest) := by rw [split, rest_of_peek starts, inside]
  unfold beginArray at read
  dsimp only at read
  split at read
  · next close =>
    cases read
    refine .complete white (.emptyArray white') ?_
    rw [whole, rest_of_peek close]
    simp
  · cases read
    exact .array white white' whole

theorem beginObject_sound (white : Ws before) (split : o.rest = before ++ p.rest)
    (starts : p.peek = some '\x7b') (read : p.beginObject = .ok begun) : Taken o begun := by
  obtain ⟨inner, white', inside⟩ := ws_split p.next
  have whole : o.rest = before ++ '\x7b' :: (inner ++ p.next.ws.rest) := by
    rw [split, rest_of_peek starts, inside]
  unfold beginObject at read
  dsimp only at read
  split at read
  · next close =>
    cases read
    refine .complete white (.emptyObject white') ?_
    rw [whole, rest_of_peek close]
    simp
  · obtain ⟨⟨name, q⟩, named, read⟩ := Results.bind_eq_ok.mp read
    cases read
    obtain ⟨text, isName, nameSplit⟩ := memberName_sound named
    refine .object white (Name.padded white' isName) ?_
    rw [whole, nameSplit]
    simp

theorem map_complete_sound (g : α → Json) {read : Except JsonError (α × Parser)}
    {p o : Parser} (white : Ws before) (split : o.rest = before ++ p.rest)
    (sound : ∀ a q, read = .ok (a, q) → ∃ text, Value text (g a) ∧ p.rest = text ++ q.rest)
    (begins : read.map (fun r => .complete (g r.1) r.2) = .ok begun) : Taken o begun := by
  cases read with
  | error e => cases begins
  | ok result =>
    obtain ⟨a, q⟩ := result
    obtain ⟨text, value, inner⟩ := sound a q rfl
    cases begins
    exact .complete white value (by rw [split, inner])

theorem beginValue_sound (read : p.beginValue = .ok begun) : Taken p begun := by
  obtain ⟨before, white, split⟩ := ws_split p
  unfold beginValue at read
  dsimp only at read
  cases peeked : p.ws.peek with
  | none =>
    rw [peeked] at read
    cases read
  | some c =>
    rw [peeked] at read
    simp only [beq_iff_eq, Bool.or_eq_true] at read
    split at read
    · next isArray => exact beginArray_sound white split (isArray ▸ peeked) read
    split at read
    · next isObject => exact beginObject_sound white split (isObject ▸ peeked) read
    split at read
    · next isString =>
      refine map_complete_sound .string white split (fun s q named => ?_) read
      obtain ⟨text, str, inner⟩ := string_sound (isString ▸ peeked) named
      exact ⟨text, .string str, inner⟩
    split at read
    · refine map_complete_sound id white split (fun v q named => ?_) read
      obtain ⟨rfl, inner⟩ := literal_sound named
      exact ⟨_, .true, inner⟩
    split at read
    · refine map_complete_sound id white split (fun v q named => ?_) read
      obtain ⟨rfl, inner⟩ := literal_sound named
      exact ⟨_, .false, inner⟩
    split at read
    · refine map_complete_sound id white split (fun v q named => ?_) read
      obtain ⟨rfl, inner⟩ := literal_sound named
      exact ⟨_, .null, inner⟩
    split at read
    · refine map_complete_sound id white split (fun v q named => ?_) read
      obtain ⟨text, derived, rfl, inner, _⟩ := number_sound named
      exact ⟨text, .number derived, inner⟩
    · cases read

/-! Containers. The induction is on the bound on the rounds, which each value begun lowers. -/

theorem proceed_array (read : proceed fuel (.array done :: stack) v p = some (.ok r)) : ∃ after q, Ws after ∧
      ((p.rest = after ++ ']' :: q.rest ∧ proceed fuel stack (.array (done ++ [v])) q = some (.ok r)) ∨
        (p.rest = after ++ ',' :: q.rest ∧
          documentFrom fuel (.array (done ++ [v]) :: stack) q = some (.ok r))) := by
  obtain ⟨after, white, split⟩ := ws_split p
  refine ⟨after, p.ws.next, white, ?_⟩
  unfold proceed at read
  simp only [addValue] at read
  by_cases comma : p.ws.peek = some ','
  · rw [if_pos comma] at read
    refine .inr ⟨?_, read⟩
    rw [split, rest_of_peek comma]
  · rw [if_neg comma] at read
    by_cases close : p.ws.peek = some ']'
    · rw [if_pos close] at read
      refine .inl ⟨?_, read⟩
      rw [split, rest_of_peek close]
    · rw [if_neg close] at read
      cases read

theorem proceed_object (read : proceed fuel (.object done name :: stack) v p = some (.ok r)) :
    name ∉ done.map (·.1) ∧ ∃ after q, Ws after ∧ ((p.rest = after ++ '\x7d' :: q.rest ∧
          proceed fuel stack (.object (done ++ [(name, v)])) q = some (.ok r)) ∨
        ∃ text following o, p.rest = after ++ ',' :: (text ++ o.rest) ∧ Name text following ∧
          documentFrom fuel (.object (done ++ [(name, v)]) following :: stack) o = some (.ok r)) := by
  obtain ⟨after, white, split⟩ := ws_split p
  unfold proceed at read
  simp only [addValue] at read
  by_cases twice : (done.any fun m => m.1 == name) = true
  · rw [if_pos twice] at read
    cases read
  · rw [if_neg twice] at read
    refine ⟨?_, after, p.ws.next, white, ?_⟩
    · intro held
      obtain ⟨m, member, same⟩ := mem_map.mp held
      exact twice (any_eq_true.mpr ⟨m, member, beq_iff_eq.mpr same⟩)
    · by_cases comma : p.ws.peek = some ','
      · rw [if_pos comma] at read
        cases named : p.ws.next.memberName with
        | error e =>
          rw [named] at read
          cases read
        | ok result =>
          obtain ⟨following, o⟩ := result
          rw [named] at read
          obtain ⟨text, isName, nameSplit⟩ := memberName_sound named
          refine .inr ⟨text, following, o, ?_, isName, read⟩
          rw [split, rest_of_peek comma, nameSplit]
      · rw [if_neg comma] at read
        by_cases close : p.ws.peek = some '\x7d'
        · rw [if_pos close] at read
          refine .inl ⟨?_, read⟩
          rw [split, rest_of_peek close]
        · rw [if_neg close] at read
          cases read

/-- What a successful run with `stack` open begins with. -/
def ReadsValue (fuel : Nat) : Prop :=
  ∀ {stack : List Open} {p : Parser} {r : Json × Parser}, documentFrom fuel stack p = some (.ok r) →
    ∃ before text v q left, left < fuel ∧ Ws before ∧ Value text v ∧
      p.rest = before ++ (text ++ q.rest) ∧ proceed left stack v q = some (.ok r)

def ReadsElements (fuel : Nat) : Prop :=
  ∀ {stack : List Open} {done : List Json} {p : Parser} {r : Json × Parser},
    documentFrom fuel (.array done :: stack) p = some (.ok r) →
    ∃ body items q left, left < fuel ∧ Elements body items ∧ p.rest = body ++ ']' :: q.rest ∧
      proceed left stack (.array (done ++ items)) q = some (.ok r)

def ReadsMembers (fuel : Nat) : Prop :=
  ∀ {stack : List Open} {done : List (String × Json)} {name : String} {named : List Char} {p : Parser}
    {r : Json × Parser}, documentFrom fuel (.object done name :: stack) p = some (.ok r) → Name named name →
    (done.map (·.1)).Nodup →
    ∃ body members q left, left < fuel ∧ Members body members ∧ ((done ++ members).map (·.1)).Nodup ∧
      named ++ p.rest = body ++ '\x7d' :: q.rest ∧
        proceed left stack (.object (done ++ members)) q = some (.ok r)

theorem readsElements_of (value : ReadsValue fuel) (lower : ∀ k < fuel, ReadsElements k) :
    ReadsElements fuel := by
  intro stack done p r read
  obtain ⟨before, text, v, q, left, less, white, derived, split, goes⟩ := value read
  obtain ⟨after, o, white', closes | continues⟩ := proceed_array goes
  · obtain ⟨afterSplit, goes⟩ := closes
    refine ⟨_, [v], o, left, less, .last (.mk white derived white'), ?_, goes⟩
    rw [split, afterSplit]
    simp
  · obtain ⟨afterSplit, reads⟩ := continues
    obtain ⟨body, items, o', left', less', elements, bodySplit, goes⟩ := lower left less reads
    refine ⟨_, v :: items, o', left', by omega,
      .more (.mk white derived white') elements, ?_, by simpa using goes⟩
    rw [split, afterSplit, bodySplit]
    simp

theorem readsMembers_of (value : ReadsValue fuel) (lower : ∀ k < fuel, ReadsMembers k) :
    ReadsMembers fuel := by
  intro stack done name named p r read isName distinct
  obtain ⟨before, text, v, q, left, less, white, derived, split, goes⟩ := value read
  obtain ⟨absent, after, o, white', closes | continues⟩ := proceed_object goes
  all_goals
    have grown : ((done ++ [(name, v)]).map (·.1)).Nodup := by
      simp only [map_append, map_cons, map_nil, nodup_append]
      refine ⟨distinct, by simp, ?_⟩
      rintro a held b single rfl
      exact absent (mem_singleton.mp single ▸ held)
  · obtain ⟨afterSplit, goes⟩ := closes
    refine ⟨_, [(name, v)], o, left, less, .last isName (.mk white derived white'), grown, ?_, goes⟩
    rw [split, afterSplit]
    simp
  · obtain ⟨nameText, following, o', afterSplit, isFollowing, reads⟩ := continues
    obtain ⟨body, members, o'', left', less', rest, distinct', bodySplit, goes⟩ :=
      lower left less reads isFollowing grown
    refine ⟨_, (name, v) :: members, o'', left', by omega, .more isName (.mk white derived white') rest,
      by simpa using distinct', ?_, by simpa using goes⟩
    rw [split, afterSplit, bodySplit]
    simp

theorem readsValue_succ (elements : ReadsElements fuel) (members : ReadsMembers fuel) :
    ReadsValue (fuel + 1) := by
  intro stack p r read
  rw [documentFrom] at read
  cases begun : p.beginValue with
  | error e =>
    rw [begun] at read
    cases read
  | ok begins =>
    rw [begun] at read
    cases beginValue_sound begun with
    | complete white derived split => exact ⟨_, _, _, _, fuel, by omega, white, derived, split, read⟩
    | array white white' split =>
      obtain ⟨body, items, q, left, less, derived, inner, goes⟩ := elements read
      refine ⟨_, _, _, q, left, by omega, white, .array (Elements.padded white' derived), ?_, goes⟩
      rw [split, inner]
      simp
    | object white isName split =>
      obtain ⟨body, ms, q, left, less, derived, distinct, inner, goes⟩ := members read isName (by simp)
      refine ⟨_, _, _, q, left, by omega, white, .object derived (by simpa using distinct), ?_, goes⟩
      rw [split, inner]
      simp

theorem readsValue (fuel : Nat) : ReadsValue fuel ∧ ReadsElements fuel ∧ ReadsMembers fuel := by
  induction fuel using Nat.strong_induction_on with
  | _ fuel ih =>
    have value : ReadsValue fuel := by
      cases fuel with
      | zero =>
        intro stack p r read
        cases read
      | succ fuel => exact readsValue_succ (ih fuel (by omega)).2.1 (ih fuel (by omega)).2.2
    exact ⟨value, readsElements_of value fun k less => (ih k less).2.1,
      readsMembers_of value fun k less => (ih k less).2.2⟩

end Parser

theorem parse_derives (read : parse octets = .ok v) : Grammar.Message octets v := by
  unfold parse at read
  cases decoded : Utf8.decode octets with
  | none =>
    rw [decoded] at read
    cases read
  | some text =>
    rw [decoded] at read
    obtain ⟨⟨w, p⟩, whole, read⟩ := Results.bind_eq_ok.mp read
    dsimp only at read
    split at read
    · next nothing =>
      cases read
      cases scanned : Parser.documentFrom (text.length + 1) [] ⟨text, 0⟩ with
      | none =>
        rw [scanned] at whole
        cases whole
      | some result =>
        rw [scanned] at whole
        obtain rfl : result = .ok (v, p) := whole
        obtain ⟨before, inner, w, q, left, _, white, derived, split, goes⟩ := (Parser.readsValue _).1 scanned
        cases goes
        obtain ⟨after, white', afterSplit⟩ := Parser.ws_split p
        rw [List.isEmpty_iff.mp nothing, List.append_nil] at afterSplit
        refine ⟨text, (Utf8.encode_of_decode decoded).symm, ?_⟩
        have whole : text = before ++ inner ++ after := by
          rw [List.append_assoc, ← afterSplit]
          exact split
        rw [whole]
        exact .mk white derived white'
    · cases read

end Oac.Json
