import Oac.CanonicalText
import Oac.Json.Held
import Oac.Json.Integers

/-! The signing input is faithful: it tells apart any two objects that differ in more than the order
of members, the spelling of numbers and the member `security.signature`, and any two domains. -/

namespace Oac

open Results Utf8 Json.Grammar List
open Libraries hiding isZero

open Json (sortMembers comma)

/-- What is assumed of the library writers of strings and doubles: each writes a JSON string literal
or a JSON number, and no two strings or two finite doubles in the same way, but for the two
zeros. -/
structure LeafWriters [Libraries] : Prop where
  quoted : ∀ s text, writeString s = .ok text → ∃ named, Quoted text.toList named
  strings : ∀ s t text, writeString s = .ok text → writeString t = .ok text → s = t
  numbers : ∀ x text, isFinite x = true → writeDouble x = .ok text → Number text.toList
  doubles : ∀ x y text, isFinite x = true → isFinite y = true →
    writeDouble x = .ok text → writeDouble y = .ok text →
    x = y ∨ Libraries.isZero x = true ∧ Libraries.isZero y = true
  zero : Libraries.isZero zero = true
  zeroFinite : ∀ x, Libraries.isZero x = true → isFinite x = true

section Same

variable [Libraries]

/-- Spellings of the same double; the two zeros are the same. -/
def SameDouble (n m : JsonNumber) : Prop :=
  parseDouble n.raw = parseDouble m.raw ∨
    Libraries.isZero (parseDouble n.raw) = true ∧ Libraries.isZero (parseDouble m.raw) = true

mutual

/-- Equal up to the order of members at every depth and up to the spelling of numbers. -/
def Same : Json → Json → Prop
  | .null, .null => True
  | .bool a, .bool b => a = b
  | .number n, .number m => SameDouble n m
  | .string s, .string t => s = t
  | .array items, .array others => SameItems items others
  | .object members, .object others => members.length = others.length ∧ SameMembers members others
  | _, _ => False

def SameItems : List Json → List Json → Prop
  | [], [] => True
  | v :: rest, w :: others => Same v w ∧ SameItems rest others
  | _, _ => False

/-- Each member is among the others, with the same value. -/
def SameMembers : List (String × Json) → List (String × Json) → Prop
  | [], _ => True
  | (k, v) :: rest, others => (∃ w, (k, w) ∈ others ∧ Same v w) ∧ SameMembers rest others

end

theorem sameItems_iff : SameItems items others ↔ Forall₂ Same items others := by
  induction items generalizing others with
  | nil => cases others <;> simp [SameItems]
  | cons v rest ih => cases others <;> simp [SameItems, ih]

theorem sameMembers_iff : SameMembers members others ↔ ∀ m ∈ members, ∃ w, (m.1, w) ∈ others ∧ Same m.2 w := by
  induction members with
  | nil => simp [SameMembers]
  | cons m rest ih => simp [SameMembers, ih]

end Same

section Leaves

def afterQuote : Bool → List Char → Option (List Char)
  | _, [] => none
  | true, _ :: rest => afterQuote false rest
  | false, c :: rest =>
    if c = '"' then some rest else if c = '\\' then afterQuote true rest else afterQuote false rest

theorem afterQuote_plain (notQuote : c ≠ '"') (notSlash : c ≠ '\\') :
    afterQuote false (c :: rest) = afterQuote false rest := by
  rw [afterQuote, if_neg notQuote, if_neg notSlash]

theorem afterQuote_escape (e : Char) (rest : List Char) :
    afterQuote false ('\\' :: e :: rest) = afterQuote false rest := by
  rw [afterQuote, if_neg (by decide), if_pos rfl, afterQuote]

theorem afterQuote_hex (hex : Hex4 h n) : afterQuote false (h ++ rest) = afterQuote false rest := by
  have plain : ∀ c ∈ h, c ≠ '"' ∧ c ≠ '\\' := by
    intro c held
    have isHex := hex4_digits hex c held
    constructor
    · rintro rfl
      cases isHex
    · rintro rfl
      cases isHex
  clear hex
  induction h with
  | nil => rfl
  | cons c others ih =>
    obtain ⟨first, later⟩ := forall_mem_cons.mp plain
    rw [cons_append, afterQuote_plain first.1 first.2]
    exact ih later

theorem afterQuote_spelled (spelled : Spelled u c) :
    afterQuote false (u ++ rest) = afterQuote false rest := by
  cases spelled with
  | plain _ notQuote notSlash => exact afterQuote_plain notQuote notSlash
  | simple => exact afterQuote_escape _ _
  | unicode hex => exact (afterQuote_escape _ _).trans (afterQuote_hex hex)
  | pair high _ low _ =>
    rw [cons_append, cons_append, afterQuote_escape, append_assoc, afterQuote_hex high,
      cons_append, cons_append, afterQuote_escape, afterQuote_hex low]

theorem afterQuote_quoted (quoted : Quoted text s) (rest : List Char) :
    ∃ body, text = '"' :: body ∧ afterQuote false (body ++ rest) = some rest := by
  cases quoted with
  | @mk body _ spelled =>
    refine ⟨body ++ ['"'], rfl, ?_⟩
    rw [append_assoc]
    have closing : ∀ {body cs : List Char}, Body body cs →
        afterQuote false (body ++ (['"'] ++ rest)) = some rest := by
      intro body cs spelled
      induction spelled with
      | nil => rfl
      | cons first _ ih => rw [append_assoc, afterQuote_spelled first, ih]
    exact closing spelled

theorem quoted_append (quoted : Quoted text s) (quoted' : Quoted text' s')
    (same : text ++ rest = text' ++ rest') : text = text' ∧ rest = rest' := by
  obtain ⟨body, rfl, after⟩ := afterQuote_quoted quoted rest
  obtain ⟨body', rfl, after'⟩ := afterQuote_quoted quoted' rest'
  have bodies : body ++ rest = body' ++ rest' := tail_eq_of_cons_eq same
  rw [bodies, after'] at after
  cases after
  exact ⟨append_cancel_right same, rfl⟩

/-- What may follow a value inside a text: the end, a comma or the end of a container. -/
def Ends : List Char → Prop
  | [] => True
  | c :: _ => c = ',' ∨ c = ']' ∨ c = '\x7d'

theorem takeWhile_number (chars : ∀ c ∈ text, isNumberChar c = true) (ends : Ends rest) :
    (text ++ rest).takeWhile isNumberChar = text := by
  have stops : rest.takeWhile isNumberChar = [] := by
    cases rest with
    | nil => rfl
    | cons c others => obtain rfl | rfl | rfl := ends <;> rfl
  rw [takeWhile_append_of_pos chars, stops, append_nil]

theorem number_append (number : Number text) (number' : Number text')
    (same : text ++ rest = text' ++ rest') (ends : Ends rest) (ends' : Ends rest') :
    text = text' ∧ rest = rest' := by
  have texts : text = text' := by
    rw [← takeWhile_number (number_chars number).2 ends, same, takeWhile_number (number_chars number').2 ends']
  subst texts
  exact ⟨rfl, append_cancel_left same⟩

end Leaves

section Unambiguous

variable [Libraries]

/-- The text of a value can be split off a text that goes on with the end of a value, and says the
value. -/
def Unambiguous (v : Json) : Prop :=
  ∀ w text text' rest rest', canonical v = .ok text → canonical w = .ok text' →
    text ++ rest = text' ++ rest' → Ends rest → Ends rest' → Same v w ∧ rest = rest'

/-- What the first character of a value's text says about the value. -/
inductive ValueKind where
  | null
  | yes
  | no
  | number
  | string
  | array
  | object
  deriving DecidableEq

def kindOf : Json → ValueKind
  | .null => .null
  | .bool true => .yes
  | .bool false => .no
  | .number _ => .number
  | .string _ => .string
  | .array _ => .array
  | .object _ => .object

def kindAt (c : Char) : Option ValueKind :=
  if c = 'n' then some .null
  else if c = 't' then some .yes
  else if c = 'f' then some .no
  else if c = '"' then some .string
  else if c = '[' then some .array
  else if c = '\x7b' then some .object
  else if isNumberChar c then some .number
  else none

theorem canonical_string (written : canonical (.string s) = .ok text) :
    ∃ literal, writeString s = .ok literal ∧ text = literal.toList := by
  rw [canonical_scalar rfl] at written
  obtain ⟨literal, scalar, rfl⟩ := map_eq_ok.mp written
  exact ⟨literal, mapError_eq_ok.mp scalar, rfl⟩

/-- The double a number is written as. -/
def normalDouble (n : JsonNumber) : Double :=
  if Libraries.isZero (parseDouble n.raw) then zero else parseDouble n.raw

theorem canonical_number :
    canonical (.number n) = .ok text ↔ isFinite (parseDouble n.raw) = true ∧
      ∃ literal, writeDouble (normalDouble n) = .ok literal ∧ text = literal.toList := by
  rw [canonical_scalar rfl, map_eq_ok]
  unfold canonicalScalar normalDouble
  cases finite : isFinite (parseDouble n.raw) with
  | false => simp [finite]
  | true =>
    simp only [finite, Bool.not_true, Bool.false_eq_true, if_false, true_and, jcs, mapError_eq_ok]
    simp only [eq_comm]

variable (leaf : LeafWriters)

include leaf in
theorem normalDouble_finite (finite : isFinite (parseDouble n.raw) = true) :
    isFinite (normalDouble n) = true := by
  unfold normalDouble
  split
  · exact leaf.zeroFinite _ leaf.zero
  · exact finite

include leaf in
theorem canonical_kind (written : canonical v = .ok text) :
    ∃ c rest, text = c :: rest ∧ kindAt c = some (kindOf v) := by
  cases v with
  | null =>
    cases written
    exact ⟨_, _, rfl, by decide⟩
  | bool b => cases b <;> cases written <;> exact ⟨_, _, rfl, by decide⟩
  | number n =>
    obtain ⟨finite, literal, wrote, rfl⟩ := canonical_number.mp written
    obtain ⟨⟨c, rest, spelled⟩, chars⟩ := number_chars (leaf.numbers _ _ (normalDouble_finite leaf finite) wrote)
    have isNumber := chars c (by rw [spelled]; exact mem_cons_self)
    refine ⟨c, rest, spelled, ?_⟩
    have others : c ≠ 'n' ∧ c ≠ 't' ∧ c ≠ 'f' ∧ c ≠ '"' ∧ c ≠ '[' ∧ c ≠ '\x7b' := by
      refine ⟨?_, ?_, ?_, ?_, ?_, ?_⟩ <;>
        · rintro rfl
          revert isNumber
          decide
    simp [kindAt, kindOf, others, isNumber]
  | string s =>
    obtain ⟨literal, wrote, rfl⟩ := canonical_string written
    obtain ⟨named, quoted⟩ := leaf.quoted _ _ wrote
    obtain ⟨body, spelled, -⟩ := afterQuote_quoted quoted []
    exact ⟨'"', body, spelled, rfl⟩
  | array items =>
    rw [canonical_array] at written
    obtain ⟨texts, -, rfl⟩ := map_eq_ok.mp written
    exact ⟨_, _, rfl, rfl⟩
  | object members =>
    rw [canonical_object] at written
    obtain ⟨texts, -, rfl⟩ := map_eq_ok.mp written
    exact ⟨_, _, rfl, rfl⟩

/-- Values with the same outermost shape. -/
inductive Alike : Json → Json → Prop where
  | null : Alike .null .null
  | bool (b : Bool) : Alike (.bool b) (.bool b)
  | number (n m : JsonNumber) : Alike (.number n) (.number m)
  | string (s t : String) : Alike (.string s) (.string t)
  | array (items others : List Json) : Alike (.array items) (.array others)
  | object (members others : List (String × Json)) : Alike (.object members) (.object others)

omit [Libraries] in
theorem alike_of_kind (kind : kindOf v = kindOf w) : Alike v w := by
  revert kind
  fun_cases kindOf v <;> fun_cases kindOf w <;> rintro ⟨⟩
  all_goals constructor

theorem alike_of_same (same : Same v w) : Alike v w := by
  cases v <;> cases w <;> try cases same
  all_goals constructor

theorem alike_of_texts (leaf : LeafWriters) (written : canonical v = .ok text)
    (written' : canonical w = .ok text') (same : text ++ rest = text' ++ rest') : Alike v w := by
  obtain ⟨c, others, rfl, kind⟩ := canonical_kind leaf written
  obtain ⟨c', others', rfl, kind'⟩ := canonical_kind leaf written'
  obtain ⟨rfl, -⟩ := cons.inj same
  exact alike_of_kind (Option.some.inj (kind.symm.trans kind'))

theorem sameDouble_of_normal (leaf : LeafWriters) (equal : normalDouble n = normalDouble m ∨
      Libraries.isZero (normalDouble n) = true ∧ Libraries.isZero (normalDouble m) = true) : SameDouble n m := by
  have isZero : ∀ k : JsonNumber, Libraries.isZero (normalDouble k) = Libraries.isZero (parseDouble k.raw) := by
    intro k
    unfold normalDouble
    split
    · next zero => rw [zero, leaf.zero]
    · rfl
  rw [isZero, isZero] at equal
  obtain equal | zeros := equal
  · have zeros := congrArg Libraries.isZero equal
    rw [isZero, isZero] at zeros
    unfold normalDouble at equal
    rw [zeros] at equal
    cases zero : Libraries.isZero (parseDouble m.raw) with
    | true => exact .inr ⟨zeros.trans zero, zero⟩
    | false =>
      rw [zero] at equal
      exact .inl equal
  · exact .inr zeros

theorem value_starts (leaf : LeafWriters) (closes : close = ']' ∨ close = '\x7d') (v : Json)
    (text : List Char) (written : canonical v = .ok text) :
    ∃ c others, text = c :: others ∧ c ≠ ',' ∧ c ≠ close := by
  obtain ⟨c, others, spelled, kind⟩ := canonical_kind leaf written
  have none_ : ∀ d, d = ',' ∨ d = ']' ∨ d = '\x7d' → kindAt d = none := by
    rintro d (rfl | rfl | rfl) <;> decide
  refine ⟨c, others, spelled, ?_, ?_⟩
  · rintro rfl
    cases kind
  · rintro rfl
    rw [none_ c (.inr closes)] at kind
    cases kind

theorem memberText_eq_ok :
    memberText m = .ok text ↔ ∃ name value, writeString m.1 = .ok name ∧ canonical m.2 = .ok value ∧
      text = name.toList ++ ':' :: value := by
  constructor
  · intro written
    obtain ⟨name, named, written⟩ := bind_eq_ok.mp written
    obtain ⟨value, valued, written⟩ := bind_eq_ok.mp written
    cases written
    exact ⟨name, value, mapError_eq_ok.mp named, valued, rfl⟩
  · rintro ⟨name, value, named, valued, rfl⟩
    exact bind_eq_ok.mpr ⟨name, mapError_eq_ok.mpr named, bind_eq_ok.mpr ⟨value, valued, rfl⟩⟩

theorem member_starts (leaf : LeafWriters) (m : String × Json) (text : List Char)
    (written : memberText m = .ok text) :
    ∃ c others, text = c :: others ∧ c ≠ ',' ∧ c ≠ '\x7d' := by
  obtain ⟨name, value, named, -, rfl⟩ := memberText_eq_ok.mp written
  obtain ⟨_, quoted⟩ := leaf.quoted _ _ named
  obtain ⟨body, spelled, -⟩ := afterQuote_quoted quoted []
  exact ⟨'"', body ++ ':' :: value, by rw [spelled]; rfl, by decide, by decide⟩

omit [Libraries] in
/-- A list of texts that can each be split off, with commas between them and an end after them, can
be split. -/
theorem joined_split (first : Bool)
    (starts : ∀ a t, text a t → ∃ c others, t = c :: others ∧ c ≠ ',' ∧ c ≠ close)
    (splits : ∀ a ∈ l, ∀ b t t' r r', text a t → text b t' → t ++ r = t' ++ r' →
      Ends r → Ends r' → same a b ∧ r = r')
    (closes : Ends [close]) (notComma : close ≠ ',') (each : Forall₂ text l texts)
    (each' : Forall₂ text l' texts')
    (whole : joined first texts ++ close :: rest = joined first texts' ++ close :: rest') :
    Forall₂ same l l' ∧ rest = rest' := by
  have ends : ∀ (ts : List (List Char)) r, Ends (joined false ts ++ close :: r) := by
    intro ts r
    cases ts with
    | nil => exact closes
    | cons t others => exact .inl rfl
  induction each generalizing l' texts' first with
  | nil =>
    cases each' with
    | nil => exact ⟨.nil, tail_eq_of_cons_eq whole⟩
    | cons begun _ =>
      exfalso
      obtain ⟨c, others, rfl, different, notClose⟩ := starts _ _ begun
      cases first with
      | true => exact notClose (head_eq_of_cons_eq whole).symm
      | false => exact notComma (head_eq_of_cons_eq whole)
  | @cons a t l texts begun _ ih =>
    cases each' with
    | nil =>
      exfalso
      obtain ⟨c, others, rfl, different, notClose⟩ := starts _ _ begun
      cases first with
      | true => exact notClose (head_eq_of_cons_eq whole)
      | false => exact notComma (head_eq_of_cons_eq whole).symm
    | @cons b t' l' texts' begun' others' =>
      simp only [joined, append_assoc] at whole
      have tails := append_cancel_left whole
      obtain ⟨alike, following⟩ := splits a mem_cons_self b t t' _ _ begun begun' tails
        (ends texts rest) (ends texts' rest')
      obtain ⟨others, ended⟩ := ih false (fun a held => splits a (mem_cons_of_mem _ held)) others' following
      exact ⟨.cons alike others, ended⟩

theorem member_append (leaf : LeafWriters) (value : Unambiguous m.2) (written : memberText m = .ok text)
    (written' : memberText n = .ok text') (same : text ++ rest = text' ++ rest') (ends : Ends rest)
    (ends' : Ends rest') : (m.1 = n.1 ∧ Same m.2 n.2) ∧ rest = rest' := by
  obtain ⟨name, valueText, named, valued, rfl⟩ := memberText_eq_ok.mp written
  obtain ⟨name', valueText', named', valued', rfl⟩ := memberText_eq_ok.mp written'
  obtain ⟨_, quoted⟩ := leaf.quoted _ _ named
  obtain ⟨_, quoted'⟩ := leaf.quoted _ _ named'
  rw [append_assoc, append_assoc] at same
  obtain ⟨names, colons⟩ := quoted_append quoted quoted' same
  have sameName : m.1 = n.1 := leaf.strings _ _ name named (String.toList_inj.mp names ▸ named')
  obtain ⟨alike, ended⟩ := value n.2 _ _ rest rest' valued valued' (tail_eq_of_cons_eq colons) ends ends'
  exact ⟨⟨sameName, alike⟩, ended⟩

theorem same_of_sorted
    (alike : Forall₂ (fun m n => m.1 = n.1 ∧ Same m.2 n.2) (sortMembers members) (sortMembers others)) :
    Same (.object members) (.object others) := by
  have lengths := alike.length_eq
  rw [(Json.sortMembers_perm members).length_eq, (Json.sortMembers_perm others).length_eq] at lengths
  refine ⟨lengths, sameMembers_iff.mpr fun m held => ?_⟩
  obtain ⟨n, there, name, value⟩ := exists_of_forall₂ alike ((Json.sortMembers_perm members).mem_iff.mpr held)
  refine ⟨n.2, ?_, value⟩
  rw [name]
  exact (Json.sortMembers_perm others).mem_iff.mp there

include leaf in
theorem unambiguous (v : Json) : Unambiguous v := by
  intro w text text' rest rest' written written' same ends ends'
  induction v using Json.induct generalizing w text text' rest rest' with
  | null =>
    cases alike_of_texts leaf written written' same
    cases written.symm.trans written'
    exact ⟨trivial, append_cancel_left same⟩
  | bool a =>
    cases alike_of_texts leaf written written' same
    cases written.symm.trans written'
    exact ⟨rfl, append_cancel_left same⟩
  | number n =>
    cases alike_of_texts leaf written written' same
    obtain ⟨finite, literal, wrote, rfl⟩ := canonical_number.mp written
    obtain ⟨finite', literal', wrote', rfl⟩ := canonical_number.mp written'
    have normal := normalDouble_finite leaf finite
    have normal' := normalDouble_finite leaf finite'
    obtain ⟨texts, ended⟩ := number_append (leaf.numbers _ _ normal wrote)
      (leaf.numbers _ _ normal' wrote') same ends ends'
    rw [String.toList_inj.mp texts] at wrote
    exact ⟨sameDouble_of_normal leaf (leaf.doubles _ _ _ normal normal' wrote wrote'), ended⟩
  | string s =>
    cases alike_of_texts leaf written written' same
    obtain ⟨literal, wrote, rfl⟩ := canonical_string written
    obtain ⟨literal', wrote', rfl⟩ := canonical_string written'
    obtain ⟨_, quoted⟩ := leaf.quoted _ _ wrote
    obtain ⟨_, quoted'⟩ := leaf.quoted _ _ wrote'
    obtain ⟨texts, ended⟩ := quoted_append quoted quoted' same
    exact ⟨leaf.strings _ _ literal wrote (String.toList_inj.mp texts ▸ wrote'), ended⟩
  | array items each =>
    cases alike_of_texts leaf written written' same
    rw [canonical_array] at written written'
    obtain ⟨texts, wrote, rfl⟩ := map_eq_ok.mp written
    obtain ⟨texts', wrote', rfl⟩ := map_eq_ok.mp written'
    simp only [append_assoc, cons_append, nil_append, cons.injEq, true_and] at same
    obtain ⟨alike, ended⟩ := joined_split true (value_starts leaf (.inl rfl))
      (fun v held w t t' r r' => each v held w t t' r r') (.inr (.inl rfl)) (by decide)
      (mapM_eq_ok.mp wrote) (mapM_eq_ok.mp wrote') same
    exact ⟨sameItems_iff.mpr alike, ended⟩
  | object members each =>
    cases alike_of_texts leaf written written' same
    rw [canonical_object] at written written'
    obtain ⟨texts, wrote, rfl⟩ := map_eq_ok.mp written
    obtain ⟨texts', wrote', rfl⟩ := map_eq_ok.mp written'
    simp only [append_assoc, cons_append, nil_append, cons.injEq, true_and] at same
    obtain ⟨alike, ended⟩ := joined_split true (member_starts leaf)
      (fun m held n t t' r r' first second => member_append leaf
        (each m ((Json.sortMembers_perm members).mem_iff.mp held)) first second)
      (.inr (.inr rfl)) (by decide) (mapM_eq_ok.mp wrote) (mapM_eq_ok.mp wrote') same
    exact ⟨same_of_sorted alike, ended⟩

/-- Equal canonical texts are texts of the same value. -/
theorem same_of_canonical (leaf : LeafWriters) (written : canonical v = .ok text)
    (written' : canonical w = .ok text) : Same v w :=
  (unambiguous leaf v w text text [] [] written written' rfl trivial trivial).1

end Unambiguous

section Congruence

variable [Libraries] {ms ns : List (String × Json)}

theorem members_congr (names : ms.map (·.1) = ns.map (·.1))
    (values : ∀ m ∈ ms, ∀ n ∈ ns, m.1 = n.1 → ∀ text, canonical m.2 = .ok text → canonical n.2 = .ok text)
    (written : ms.mapM memberText = .ok texts) : ns.mapM memberText = .ok texts := by
  rw [mapM_eq_ok] at written ⊢
  induction written generalizing ns with
  | nil =>
    rw [map_eq_nil_iff.mp names.symm]
    exact .nil
  | @cons m text rest texts first _ ih =>
    cases ns with
    | nil => cases names
    | cons n others =>
      obtain ⟨name, tail⟩ := cons.inj names
      have sameName : m.1 = n.1 := name
      refine .cons ?_ (ih tail fun a heldA b heldB => ?_)
      · obtain ⟨nameText, valueText, named, valued, rfl⟩ := memberText_eq_ok.mp first
        refine memberText_eq_ok.mpr ⟨nameText, valueText, sameName ▸ named, ?_, rfl⟩
        exact values m mem_cons_self n mem_cons_self sameName valueText valued
      · exact values a (mem_cons_of_mem m heldA) b (mem_cons_of_mem n heldB)

theorem items_congr (each : ∀ v ∈ items, ∀ w text, Same v w → Distinct v →
    Distinct w → canonical v = .ok text →
      canonical w = .ok text) (same : Forall₂ Same items others) (distinct : ∀ v ∈ items, Distinct v)
    (distinct' : ∀ v ∈ others, Distinct v) (written : items.mapM canonical = .ok texts) :
    others.mapM canonical = .ok texts := by
  rw [mapM_eq_ok] at written ⊢
  induction same generalizing texts with
  | nil => exact written
  | @cons v w rest others alike _ ih =>
    cases written with
    | cons first tail =>
      refine .cons ?_ (ih (fun a held => each a (mem_cons_of_mem v held))
        (fun a held => distinct a (mem_cons_of_mem v held))
        (fun a held => distinct' a (mem_cons_of_mem w held)) tail)
      exact each v mem_cons_self w _ alike (distinct v mem_cons_self) (distinct' w mem_cons_self) first

omit [Libraries] in
theorem names_perm (lengths : ms.length = ns.length)
    (distinct : (ms.map (·.1)).Nodup) (among : ∀ m ∈ ms, ∃ w, (m.1, w) ∈ ns) :
    (ms.map (·.1)).Perm (ns.map (·.1)) := by
  have subset : ms.map (·.1) ⊆ ns.map (·.1) := by
    intro name held
    obtain ⟨m, member, rfl⟩ := mem_map.mp held
    obtain ⟨w, there⟩ := among m member
    exact mem_map.mpr ⟨_, there, rfl⟩
  refine (subperm_of_subset distinct subset).perm_of_length_le ?_
  rw [length_map, length_map, lengths]

/-- Values that are the same have the same canonical text. -/
theorem canonical_congr (leaf : LeafWriters) (v : Json) : ∀ w text, Same v w →
    Distinct v → Distinct w → canonical v = .ok text → canonical w = .ok text := by
  induction v using Json.induct with
  | null =>
    intro w text same _ _ written
    cases alike_of_same same
    exact written
  | bool a =>
    intro w text same _ _ written
    cases alike_of_same same
    exact written
  | number n =>
    intro w text same _ _ written
    cases alike_of_same same
    obtain ⟨finite, literal, wrote, rfl⟩ := canonical_number.mp written
    refine canonical_number.mpr ?_
    obtain equal | ⟨zero, zero'⟩ := same
    · unfold normalDouble at wrote ⊢
      rw [equal] at finite wrote
      exact ⟨finite, literal, wrote, rfl⟩
    · unfold normalDouble at wrote ⊢
      rw [if_pos zero] at wrote
      rw [if_pos zero']
      exact ⟨leaf.zeroFinite _ zero', literal, wrote, rfl⟩
  | string s =>
    intro w text same _ _ written
    cases alike_of_same same
    cases same
    exact written
  | array items each =>
    intro w text same distinct distinct' written
    cases alike_of_same same
    rw [canonical_array] at written ⊢
    obtain ⟨texts, wrote, rfl⟩ := map_eq_ok.mp written
    refine map_eq_ok.mpr ⟨texts, ?_, rfl⟩
    exact items_congr each (sameItems_iff.mp same) (distinctItems_iff.mp distinct)
      (distinctItems_iff.mp distinct') wrote
  | object members each =>
    intro w text same distinct distinct' written
    cases alike_of_same same with
    | object _ others =>
      rw [canonical_object] at written ⊢
      obtain ⟨texts, wrote, rfl⟩ := map_eq_ok.mp written
      refine map_eq_ok.mpr ⟨texts, ?_, rfl⟩
      obtain ⟨lengths, among⟩ := same
      rw [sameMembers_iff] at among
      have perm := names_perm lengths distinct.1 fun m held => (among m held).imp fun _ => And.left
      refine members_congr (Json.sortMembers_names perm) (fun m heldM n heldN name text valued => ?_) wrote
      have inMembers := (Json.sortMembers_perm members).mem_iff.mp heldM
      have inOthers := (Json.sortMembers_perm others).mem_iff.mp heldN
      obtain ⟨w, there, alike⟩ := among m inMembers
      -- the name is in the other object once, so the value found there is this one
      have only : n = (m.1, w) := inj_on_of_nodup_map distinct'.1 inOthers there name.symm
      rw [only]
      exact each m inMembers w text alike (distinctMembers_iff.mp distinct.2 m inMembers)
        (distinctMembers_iff.mp distinct'.2 _ there) valued

end Congruence

section WithoutSignature

/-- An object with the member `security.signature` left out and nothing else changed. -/
def withoutSignature (o : JsonObject) : JsonObject :=
  o.map fun m => if m.1 = "security" then
    match m.2 with
    | .object sec => (m.1, .object (JsonObject.remove sec "signature").2)
    | _ => m
  else m

/-- A member `security`, if there is one, is an object. -/
def SecurityObject (o : JsonObject) : Prop := ∀ m ∈ o, m.1 = "security" → ∃ sec, m.2 = .object sec

theorem withoutSignature_names (o : JsonObject) : (withoutSignature o).map (·.1) = o.map (·.1) := by
  rw [withoutSignature, map_map]
  refine map_congr_left fun m _ => ?_
  simp only [Function.comp_apply]
  split
  · split <;> rfl
  · rfl

theorem withoutSignature_absent (absent : ∀ m ∈ o, m.1 ≠ "security") : withoutSignature o = o := by
  unfold withoutSignature
  rw [map_congr_left fun m held => if_neg (absent m held), map_id']

theorem withoutSignature_distinct (distinct : Distinct (.object o)) :
    Distinct (.object (withoutSignature o)) := by
  obtain ⟨names, values⟩ := distinct
  rw [distinctMembers_iff] at values
  refine ⟨?_, distinctMembers_iff.mpr fun m held => ?_⟩
  · rw [withoutSignature_names]
    exact names
  · obtain ⟨n, member, rfl⟩ := mem_map.mp held
    have kept := values n member
    split
    · split
      · next sec spelled =>
        rw [spelled] at kept
        obtain ⟨inner, each⟩ := kept
        have sublist : (JsonObject.remove sec "signature").2.Sublist sec := eraseP_sublist
        refine ⟨inner.sublist (sublist.map _), distinctMembers_iff.mpr fun m held => ?_⟩
        exact distinctMembers_iff.mp each m (sublist.subset held)
      · exact kept
    · exact kept

variable [Libraries]

/-- The canonical text does not depend on the order of members. -/
theorem canonical_perm (distinct : (ms.map (·.1)).Nodup) (perm : ms.Perm ns) :
    canonical (.object ms) = canonical (.object ns) := by
  have sorted : sortMembers ms = sortMembers ns := by
    refine Perm.eq_of_pairwise ?_ (Json.sortMembers_sorted ms) (Json.sortMembers_sorted ns) ?_
    · intro a b heldA heldB first second
      have inMs := (Json.sortMembers_perm ms).mem_iff.mp heldA
      have inMs' := perm.mem_iff.mpr ((Json.sortMembers_perm ns).mem_iff.mp heldB)
      exact inj_on_of_nodup_map distinct inMs inMs' (Json.encodeUtf16_injective (le_antisymm first second))
    · exact ((Json.sortMembers_perm ms).trans perm).trans (Json.sortMembers_perm ns).symm
  rw [canonical_object, canonical_object, sorted]

theorem signedText_eq_ok (distinct : (o.map (·.1)).Nodup) :
    signedText o = .ok text ↔ SecurityObject o ∧ canonical (.object (withoutSignature o)) = .ok text := by
  unfold signedText JsonObject.remove JsonObject.get
  cases found : o.find? (·.1 == "security") with
  | none =>
    have absent : ∀ m ∈ o, m.1 ≠ "security" := by
      intro m held
      simpa using find?_eq_none.mp found m held
    rw [withoutSignature_absent absent]
    have fine : SecurityObject o := fun m held named => absurd named (absent m held)
    simp [fine]
  | some m =>
    obtain ⟨named, front, back, rfl, before⟩ := find?_eq_some_iff_append.mp found
    obtain ⟨name, v⟩ := m
    obtain rfl : name = "security" := by simpa using named
    have inFront : ∀ m ∈ front, m.1 ≠ "security" := by
      intro m held
      simpa using before m held
    have inBack : ∀ m ∈ back, m.1 ≠ "security" := by
      intro m held same
      rw [map_append] at distinct
      refine (nodup_cons.mp (nodup_middle.mp distinct)).1 (mem_append_right _ ?_)
      exact mem_map.mpr ⟨m, held, same⟩
    have others : ∀ m ∈ front ++ back, m.1 ≠ "security" :=
      fun m held => (mem_append.mp held).elim (inFront m) (inBack m)
    have erased : (front ++ ("security", v) :: back).eraseP (·.1 == "security") = front ++ back := by
      rw [eraseP_append_right _ (by simpa using inFront), eraseP_cons_of_pos rfl]
    have atSecurity : SecurityObject (front ++ ("security", v) :: back) ↔ ∃ sec, v = .object sec := by
      constructor
      · exact fun fine => fine _ mem_append_cons_self rfl
      · rintro isObject m held named
        obtain here | there := mem_append.mp held
        · exact absurd named (inFront m here)
        · obtain rfl | there := mem_cons.mp there
          · exact isObject
          · exact absurd named (inBack m there)
    rw [erased, atSecurity]
    simp only [Option.map_some]
    cases v with
    | object sec =>
      have removed : withoutSignature (front ++ ("security", .object sec) :: back) =
          front ++ ("security", .object (sec.eraseP (·.1 == "signature"))) :: back := by
        have frontKept := withoutSignature_absent inFront
        have backKept := withoutSignature_absent inBack
        unfold withoutSignature at frontKept backKept ⊢
        rw [map_append, map_cons, frontKept, backKept]
        rfl
      dsimp only
      rw [removed, JsonObject.insert_absent _ others]
      have names : ((front ++
          ("security", Json.object (sec.eraseP (·.1 == "signature"))) :: back).map (·.1)).Nodup := by
        rw [map_append] at distinct ⊢
        exact distinct
      rw [canonical_perm names (perm_middle.trans (perm_append_singleton _ _).symm)]
      simp
    | null | bool | number | string | array => simp

omit [Libraries] in
theorem securityObject_withoutSignature : SecurityObject (withoutSignature o) ↔ SecurityObject o := by
  unfold SecurityObject withoutSignature
  rw [forall_mem_map]
  refine forall₂_congr fun m _ => ?_
  by_cases named : m.1 = "security"
  · obtain ⟨name, v⟩ := m
    obtain rfl : name = "security" := named
    cases v <;> simp
  · simp [named]

theorem securityObject_congr {ms ns : JsonObject} (same : Same (.object ms) (.object ns))
    (distinct : Distinct (.object ms)) (distinct' : Distinct (.object ns)) (fine : SecurityObject ms) :
    SecurityObject ns := by
  obtain ⟨lengths, among⟩ := (same : ms.length = ns.length ∧ SameMembers ms ns)
  rw [sameMembers_iff] at among
  have perm := names_perm lengths distinct.1 fun m held => (among m held).imp fun _ => And.left
  intro n held named
  obtain ⟨m, member, name⟩ := mem_map.mp (perm.mem_iff.mpr (mem_map_of_mem held))
  have sameName : m.1 = n.1 := name
  obtain ⟨sec, isObject⟩ := fine m member (sameName.trans named)
  obtain ⟨w, there, alike⟩ := among m member
  have only : n = (m.1, w) := inj_on_of_nodup_map distinct'.1 held there sameName.symm
  rw [isObject] at alike
  cases alike_of_same alike with
  | object _ sec' => exact ⟨sec', by rw [only]⟩

end WithoutSignature

section Domains

theorem domain_octets (d : SigningDomain) (rest : List UInt8) :
    (encode d.text.toList ++ 0 :: rest).takeWhile (· ≠ 0) = encode d.text.toList := by
  have nonzero : ∀ b ∈ encode d.text.toList, decide (b ≠ 0) = true := by
    cases d <;> decide +kernel
  rw [takeWhile_append_of_pos nonzero]
  simp

theorem domain_append {d d' : SigningDomain}
    (same : encode d.text.toList ++ 0 :: rest = encode d'.text.toList ++ 0 :: rest') :
    d = d' ∧ rest = rest' := by
  have octets := congrArg (takeWhile (· ≠ 0)) same
  rw [domain_octets, domain_octets] at octets
  have texts := encode_injective octets
  have equal : d = d' := by
    revert texts
    cases d <;> cases d' <;> decide
  subst equal
  exact ⟨rfl, tail_eq_of_cons_eq (append_cancel_left same)⟩

variable [Libraries]

theorem signingInput_eq_ok : signingInput d o = .ok input ↔
      ∃ text, signedText o = .ok text ∧ input = encode d.text.toList ++ 0 :: encode text := by
  unfold signingInput
  rw [bind_eq_ok]
  refine exists_congr fun text => and_congr_right fun _ => ?_
  rw [Except.ok.injEq]
  exact eq_comm

/-- Two objects have one signing input exactly when they are signed under one domain and are the
same but for the order of members, the spelling of numbers and the member `security.signature`. -/
theorem signing_input_faithful (leaf : LeafWriters) (d d' : SigningDomain) (o o' : JsonObject)
    (distinct : Distinct (.object o)) (distinct' : Distinct (.object o')) :
    (∃ input, signingInput d o = .ok input ∧ signingInput d' o' = .ok input) ↔
      d = d' ∧ Same (.object (withoutSignature o)) (.object (withoutSignature o')) ∧
        ∃ input, signingInput d o = .ok input := by
  constructor
  · rintro ⟨input, first, second⟩
    obtain ⟨text, signed, rfl⟩ := signingInput_eq_ok.mp first
    obtain ⟨text', signed', same⟩ := signingInput_eq_ok.mp second
    obtain ⟨equal, octets⟩ := domain_append same
    cases encode_injective octets
    obtain ⟨-, written⟩ := (signedText_eq_ok distinct.1).mp signed
    obtain ⟨-, written'⟩ := (signedText_eq_ok distinct'.1).mp signed'
    exact ⟨equal, same_of_canonical leaf written written', _, first⟩
  · rintro ⟨rfl, same, input, first⟩
    obtain ⟨text, signed, rfl⟩ := signingInput_eq_ok.mp first
    obtain ⟨fine, written⟩ := (signedText_eq_ok distinct.1).mp signed
    have inner := withoutSignature_distinct distinct
    have inner' := withoutSignature_distinct distinct'
    have fine' := securityObject_congr same inner inner' (securityObject_withoutSignature.mpr fine)
    have written' := canonical_congr leaf _ _ _ same inner inner' written
    have signed' := (signedText_eq_ok distinct'.1).mpr ⟨securityObject_withoutSignature.mp fine', written'⟩
    exact ⟨_, first, signingInput_eq_ok.mpr ⟨text, signed', rfl⟩⟩

end Domains

section Exact

/-- Writers for which no two strings and no two numbers look alike: strings as the compact writer
has them, and natural numbers for doubles, with the range that doubles have. -/
@[reducible] def exactLibraries : Libraries where
  Double := Nat
  parseDouble raw :=
    let mantissa := raw.toList.takeWhile Char.isDigit
    let exponent := (raw.toList.dropWhile (· ≠ 'e')).tail
    Nat.ofDigitChars 10 mantissa 0 * 10 ^ Nat.ofDigitChars 10 exponent 0
  isFinite x := decide (Nat.log2 x < 1024)
  isZero x := decide (x = 0)
  zero := 0
  writeDouble x := .ok (toString x)
  writeString s := .ok (String.ofList (Json.writeString s))
  verifyStrict _ _ _ := true
  keyId _ := ⟨String.ofList (replicate 64 'a'), by decide +kernel⟩

theorem quoted_unique (first : Quoted text s) (second : Quoted text t) : s = t := by
  obtain @⟨body, _, spelled⟩ := first
  generalize written : '"' :: (body ++ ['"']) = text at second
  obtain @⟨body', _, spelled'⟩ := second
  have bodies : body = body' := append_cancel_right (tail_eq_of_cons_eq written)
  subst bodies
  let fuel := s.toList.length + t.toList.length + 1
  obtain ⟨i, read⟩ := Json.Parser.stringFrom_body spelled [] fuel [] 0 (by omega)
  obtain ⟨j, read'⟩ := Json.Parser.stringFrom_body spelled' [] fuel [] 0 (by omega)
  rw [read] at read'
  simp only [nil_append, Option.some.injEq, Except.ok.injEq, Prod.mk.injEq] at read'
  exact String.toList_inj.mp read'.1

theorem exactLibraries_leafWriters : @LeafWriters exactLibraries := by
  refine @LeafWriters.mk exactLibraries ?_ ?_ ?_ ?_ rfl ?_
  · rintro s text ⟨⟩
    refine ⟨s, ?_⟩
    rw [String.toList_ofList]
    exact Json.writeString_quoted s
  · rintro s t text ⟨⟩ second
    have same : Json.writeString t = Json.writeString s := String.ofList_injective (Except.ok.inj second)
    exact quoted_unique (Json.writeString_quoted s) (same ▸ Json.writeString_quoted t)
  · rintro x text - ⟨⟩
    exact JsonNumber.fromU64_number x
  · rintro x y text - - ⟨⟩ second
    have same := congrArg String.toList (Except.ok.inj second)
    rw [Decimal.toString_toList, Decimal.toString_toList] at same
    exact .inl (Decimal.text_injective same).symm
  · intro (x : Nat) (zero : decide (x = 0) = true)
    rw [of_decide_eq_true zero]
    decide +kernel

def sampleSigned : JsonObject :=
  [("ttl", .number ⟨"7.0"⟩), ("security", .object [("principal", .string "p"), ("signature", .string "x")])]

def sampleRearranged : JsonObject :=
  [("security", .object [("signature", .string "y"), ("principal", .string "p")]), ("ttl", .number ⟨"7"⟩)]

theorem signing_input_faithful_rearranged :
    ∃ input, @signingInput exactLibraries .receipt sampleSigned = .ok input ∧
      @signingInput exactLibraries .receipt sampleRearranged = .ok input := by
  refine (@signing_input_faithful exactLibraries exactLibraries_leafWriters _ _ _ _ ?_ ?_).mpr ⟨rfl, ?_, ?_⟩
  · simp [sampleSigned, Distinct, DistinctMembers]
  · simp [sampleRearranged, Distinct, DistinctMembers]
  · refine ⟨rfl, ⟨.number ⟨"7"⟩, .tail _ (.head _), .inl rfl⟩,
      ⟨.object [("principal", .string "p")], .head _, ?_⟩, trivial⟩
    exact ⟨rfl, ⟨.string "p", .head _, rfl⟩, trivial⟩
  · have written : (@signingInput exactLibraries .receipt sampleSigned).toOption.isSome := by decide +kernel
    obtain ⟨input, found⟩ := Option.isSome_iff_exists.mp written
    exact ⟨input, ok_of_toOption found⟩

end Exact

end Oac
