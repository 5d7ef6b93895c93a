import Oac.Foundation.Results
import Oac.Json.Parse

/-! The reader always moves forward, so the bounds on its rounds suffice. -/

namespace Oac.Json.Parser

open Results List

variable {p q : Parser}

/-- What is left to read is the end of what there was, and shorter. -/
def After (q p : Parser) : Prop := q.rest.length < p.rest.length

def NotBefore (q p : Parser) : Prop := q.rest.length ≤ p.rest.length

theorem After.of_notBefore (first : After q p) (later : NotBefore r q) : After r p :=
  Nat.lt_of_le_of_lt later first

theorem NotBefore.after (first : NotBefore q p) (later : After r q) : After r p :=
  Nat.lt_of_lt_of_le later first

theorem NotBefore.trans (first : NotBefore q p) (later : NotBefore r q) : NotBefore r p :=
  Nat.le_trans later first

theorem After.notBefore (after : After q p) : NotBefore q p := Nat.le_of_lt after

theorem skip_notBefore (cls : Char → Bool) (p : Parser) : NotBefore (p.skip cls) p :=
  (dropWhile_sublist cls).length_le

theorem ws_notBefore (p : Parser) : NotBefore p.ws p := skip_notBefore isWs p

theorem next_notBefore (p : Parser) : NotBefore p.next p := by
  simp [NotBefore, next]

theorem next_after (peeked : p.peek = some c) : After p.next p := by
  cases held : p.rest with
  | nil => simp [peek, held] at peeked
  | cons first rest => simp [After, next, held]

section Strings

theorem hex4_notBefore (read : p.hex4 = .ok (v, q)) : NotBefore q p := by
  unfold hex4 at read
  dsimp only at read
  split at read
  · cases read
  · split at read
    · cases read
    · cases read
      simp [NotBefore]

theorem unicodeEscape_notBefore (read : p.unicodeEscape = .ok (cp, q)) : NotBefore q p := by
  obtain ⟨⟨hi, r⟩, first, read⟩ := bind_eq_ok.mp read
  have moved := hex4_notBefore first
  dsimp only at read
  split at read
  · split at read
    · cases read
    · obtain ⟨⟨lo, t⟩, second, read⟩ := bind_eq_ok.mp read
      have again : NotBefore t ⟨r.rest.drop 2, r.i + 2⟩ := hex4_notBefore second
      split at read
      · obtain ⟨-, rfl⟩ := Prod.mk.inj (Except.ok.inj read)
        refine moved.trans (NotBefore.trans ?_ again)
        simp [NotBefore]
      · cases read
  · split at read
    · cases read
    · cases read
      exact moved

theorem escape_after (read : p.escape = .ok (c, q)) : After q p := by
  cases held : p.rest with
  | nil =>
    simp only [escape, held] at read
    cases read
  | cons e rest =>
    have stepped : After p.next p := next_after (c := e) (by simp [peek, held])
    simp only [escape, held] at read
    -- every escape but `\u` is one character; a wrong one is an error
    repeat' split at read
    all_goals first
      | (cases read; exact stepped)
      | cases read
      | skip
    obtain ⟨⟨cp, r⟩, unicode, read⟩ := bind_eq_ok.mp read
    split at read
    · cases read
      exact stepped.of_notBefore (unicodeEscape_notBefore unicode)
    · cases read

theorem stringFrom_isSome (fuel : Nat) (out : List Char) (p : Parser)
    (enough : p.rest.length < fuel) : (stringFrom fuel out p).isSome := by
  induction fuel generalizing out p with
  | zero => omega
  | succ fuel ih =>
    unfold stringFrom
    cases held : p.rest with
    | nil => rfl
    | cons c rest =>
      dsimp only
      have stepped : After p.next p := next_after (c := c) (by simp [peek, held])
      split
      · rfl
      · split
        · cases read : p.next.escape with
          | error e => rfl
          | ok r =>
            have moved : After r.2 p.next := escape_after read
            refine ih _ _ ?_
            unfold After at moved stepped
            omega
        · split
          · rfl
          · refine ih _ _ ?_
            rw [held] at enough
            exact Nat.lt_of_succ_lt_succ enough

theorem stringFrom_notBefore (fuel : Nat) (out text : List Char) (p : Parser)
    (read : stringFrom fuel out p = some (.ok (text, q))) : NotBefore q p := by
  induction fuel generalizing out p with
  | zero => cases read
  | succ fuel ih =>
    unfold stringFrom at read
    cases held : p.rest with
    | nil =>
      simp only [held] at read
      cases read
    | cons c rest =>
      simp only [held] at read
      split at read
      · cases read
        exact next_notBefore p
      · split at read
        · cases escaped : p.next.escape with
          | error e => simp only [escaped] at read; cases read
          | ok r =>
            simp only [escaped] at read
            exact ((next_notBefore p).trans (escape_after escaped).notBefore).trans (ih _ _ read)
        · split at read
          · cases read
          · have moved : NotBefore q ⟨rest, p.i + c.utf8Size⟩ := ih _ _ read
            refine NotBefore.trans ?_ moved
            simp [NotBefore, held]

theorem string_after (peeked : p.peek = some c) (read : p.string = .ok (s, q)) : After q p := by
  unfold string at read
  dsimp only at read
  obtain ⟨⟨text, r⟩, scanned, read⟩ := bind_eq_ok.mp read
  have decided : stringFrom (p.next.rest.length + 1) [] p.next = some (.ok (text, r)) := by
    have some := stringFrom_isSome (p.next.rest.length + 1) [] p.next (Nat.lt_succ_self _)
    obtain ⟨result, found⟩ := Option.isSome_iff_exists.mp some
    rw [found, Option.getD_some] at scanned
    rw [found, scanned]
  have moved := stringFrom_notBefore _ _ _ _ decided
  split at read
  · cases read
    exact (next_after peeked).of_notBefore moved
  · cases read

end Strings

section Values

theorem memberName_after (read : p.memberName = .ok (name, q)) : After q p := by
  unfold memberName at read
  dsimp only at read
  split at read
  · cases read
  · next quoted =>
    obtain ⟨⟨s, r⟩, named, read⟩ := bind_eq_ok.mp read
    have moved := (ws_notBefore p).after (string_after (not_not.mp quoted) named)
    split at read
    · cases read
    · cases read
      exact (moved.of_notBefore (ws_notBefore r)).of_notBefore (next_notBefore _)

theorem literal_after (nonempty : 0 < word.toList.length) (read : p.literal word v = .ok (w, q)) :
    After q p := by
  unfold literal at read
  dsimp only at read
  split at read
  · next found =>
    cases read
    have long : word.toList.length ≤ p.rest.length := by
      have taken := congrArg length found
      rw [length_take] at taken
      omega
    simp only [After, length_drop]
    omega
  · cases read

theorem digits1_notBefore (read : p.digits1 reason = .ok q) : NotBefore q p := by
  unfold digits1 at read
  dsimp only at read
  split at read
  · cases read
  · cases read
    exact skip_notBefore _ p

theorem integerPart_after (read : p.integerPart = .ok q) : After q p := by
  unfold integerPart at read
  split at read
  · next c peeked =>
    split at read
    · cases read
      exact next_after peeked
    · split at read
      · next isDigit =>
        cases read
        cases held : p.rest with
        | nil => simp [peek, held] at peeked
        | cons first rest =>
          have same : first = c := by simpa [peek, held] using peeked
          have shorter := (dropWhile_sublist (l := rest) Char.isDigit).length_le
          simp only [After, skip, held, dropWhile_cons, same, isDigit, if_true, length_cons]
          omega
      · cases read
  · cases read

theorem fractionPart_notBefore (read : p.fractionPart = .ok q) : NotBefore q p := by
  unfold fractionPart at read
  split at read
  · exact (next_notBefore p).trans (digits1_notBefore read)
  · cases read
    exact Nat.le_refl _

theorem exponentPart_notBefore (read : p.exponentPart = .ok q) : NotBefore q p := by
  unfold exponentPart at read
  split at read
  · refine (next_notBefore p).trans (NotBefore.trans ?_ (digits1_notBefore read))
    split
    · exact next_notBefore _
    · exact Nat.le_refl _
  · cases read
    exact Nat.le_refl _

theorem number_after (read : p.number = .ok (v, q)) : After q p := by
  obtain ⟨r, integer, read⟩ := bind_eq_ok.mp read
  obtain ⟨t, fraction, read⟩ := bind_eq_ok.mp read
  obtain ⟨u, exponent, read⟩ := bind_eq_ok.mp read
  cases read
  have start : NotBefore (if p.peek = some '-' then p.next else p) p := by
    split
    · exact next_notBefore p
    · exact Nat.le_refl _
  exact ((start.after (integerPart_after integer)).of_notBefore
    (fractionPart_notBefore fraction)).of_notBefore (exponentPart_notBefore exponent)

def Begun.parser : Begun → Parser
  | .complete _ p => p
  | .opened _ p => p

theorem beginArray_after (peeked : p.peek = some c) (read : p.beginArray = .ok begun) :
    After begun.parser p := by
  unfold beginArray at read
  have moved := (next_after peeked).of_notBefore (ws_notBefore p.next)
  dsimp only at read
  split at read
  · cases read
    exact moved.of_notBefore (next_notBefore _)
  · cases read
    exact moved

theorem beginObject_after (peeked : p.peek = some c) (read : p.beginObject = .ok begun) :
    After begun.parser p := by
  unfold beginObject at read
  have moved := (next_after peeked).of_notBefore (ws_notBefore p.next)
  dsimp only at read
  split at read
  · cases read
    exact moved.of_notBefore (next_notBefore _)
  · obtain ⟨⟨name, r⟩, named, read⟩ := bind_eq_ok.mp read
    cases read
    exact moved.of_notBefore (memberName_after named).notBefore

theorem map_complete_after {read : Except JsonError (Json × Parser)} {f : Json × Parser → Begun}
    (sameParser : ∀ r, (f r).parser = r.2) (moves : ∀ v q, read = .ok (v, q) → After q p)
    (begins : read.map f = .ok begun) : After begun.parser p := by
  cases read with
  | error e => cases begins
  | ok r =>
    cases begins
    rw [sameParser]
    exact moves r.1 r.2 rfl

theorem beginValue_after {begun : Begun} (read : p.beginValue = .ok begun) : After begun.parser p := by
  unfold beginValue at read
  dsimp only at read
  refine (ws_notBefore p).after ?_
  cases peeked : p.ws.peek with
  | none =>
    rw [peeked] at read
    cases read
  | some c =>
    rw [peeked] at read
    dsimp only at read
    split at read
    · exact beginArray_after peeked read
    split at read
    · exact beginObject_after peeked read
    split at read
    · cases quoted : p.ws.string with
      | error e => rw [quoted] at read; cases read
      | ok r =>
        rw [quoted] at read
        cases read
        exact string_after peeked quoted
    iterate 3
      split at read
      · exact map_complete_after (fun _ => rfl) (fun _ _ => literal_after (by decide)) read
    split at read
    · exact map_complete_after (fun _ => rfl) (fun _ _ => number_after) read
    · cases read

theorem addValue_notBefore (stack : List Open) (v : Json) (p : Parser)
    (added : addValue stack v p = .ok (.more left q)) : NotBefore q p := by
  induction stack generalizing v p with
  | nil => cases added
  | cons container stack ih =>
    cases container with
    | array items =>
      simp only [addValue] at added
      split at added
      · cases added
        exact (ws_notBefore p).trans (next_notBefore _)
      · split at added
        · exact ((ws_notBefore p).trans (next_notBefore _)).trans (ih _ _ added)
        · cases added
    | object members name =>
      simp only [addValue] at added
      split at added
      · cases added
      · split at added
        · obtain ⟨⟨again, r⟩, named, added⟩ := bind_eq_ok.mp added
          cases added
          exact ((ws_notBefore p).trans (next_notBefore _)).trans (memberName_after named).notBefore
        · split at added
          · exact ((ws_notBefore p).trans (next_notBefore _)).trans (ih _ _ added)
          · cases added

theorem documentFrom_isSome (fuel : Nat) (stack : List Open) (p : Parser)
    (enough : p.rest.length < fuel) : (documentFrom fuel stack p).isSome := by
  induction fuel generalizing stack p with
  | zero => omega
  | succ fuel ih =>
    unfold documentFrom
    cases begun : p.beginValue with
    | error e => rfl
    | ok started =>
      have moved := beginValue_after begun
      cases started with
      | opened container q =>
        change q.rest.length < p.rest.length at moved
        exact ih _ _ (by omega)
      | complete v q =>
        change q.rest.length < p.rest.length at moved
        dsimp only
        cases added : addValue stack v q with
        | error e => rfl
        | ok more =>
          cases more with
          | whole v r => rfl
          | more left r =>
            have further : r.rest.length ≤ q.rest.length := addValue_notBefore _ _ _ added
            exact ih _ _ (by omega)

end Values

end Oac.Json.Parser
