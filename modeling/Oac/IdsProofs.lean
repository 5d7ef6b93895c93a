import Mathlib.Data.List.TakeDrop
import Oac.Foundation.Decimal
import Oac.Ids
import Oac.Json.Parse

/-! The identifier and scalar forms are ASCII, so each is a string that I-JSON admits, and the text
of a version is read back. -/

namespace Oac

open Option
open List hiding after all_eq_true any_eq_false getElem?_eq_some_iff

def Ascii (s : List Char) : Prop := ∀ c ∈ s, c.toNat < 128

theorem isNoncharacter_ascii (small : c.toNat < 128) : isNoncharacter c = false := by
  simp only [isNoncharacter, Bool.or_eq_false_iff, Bool.and_eq_false_iff, decide_eq_false_iff_not]
  omega

theorem Ascii.ijson (ascii : Ascii s) : isIjsonString s = true := by
  unfold isIjsonString
  rw [Bool.not_eq_true', List.any_eq_false]
  intro c held
  rw [isNoncharacter_ascii (ascii c held)]
  decide

section Characters

variable {c : Char}

theorem isDigit_ascii (digit : c.isDigit = true) : c.toNat < 128 := by
  simp only [Char.isDigit, Bool.and_eq_true, decide_eq_true_eq, ge_iff_le, UInt32.le_iff_toNat_le] at digit
  exact Nat.lt_of_le_of_lt digit.2 (by decide)

theorem isLower_ascii (lower : c.isLower = true) : c.toNat < 128 := by
  have bound : c.val ≤ 'z'.val := of_decide_eq_true (Bool.and_eq_true_iff.mp lower).2
  exact Nat.lt_of_le_of_lt (UInt32.le_iff_toNat_le.mp bound) (by decide)

theorem isUpper_ascii (upper : c.isUpper = true) : c.toNat < 128 := by
  have bound : c.val ≤ 'Z'.val := (of_decide_eq_true upper).2
  exact Nat.lt_of_le_of_lt (UInt32.le_iff_toNat_le.mp bound) (by decide)

theorem isAlphanum_ascii (alphanumeric : c.isAlphanum = true) : c.toNat < 128 := by
  rcases Bool.or_eq_true_iff.mp alphanumeric with letter | digit
  · rcases Bool.or_eq_true_iff.mp letter with upper | lower
    · exact isUpper_ascii upper
    · exact isLower_ascii lower
  · exact isDigit_ascii digit

theorem isTokenChar_ascii (token : isTokenChar c = true) : c.toNat < 128 := by
  simp only [isTokenChar, Bool.or_eq_true, beq_iff_eq] at token
  obtain (((alphanumeric | rfl) | rfl) | rfl) | rfl := token
  · exact isAlphanum_ascii alphanumeric
  all_goals decide

end Characters

theorem isToken_ascii (valid : isToken s = true) : Ascii s.toList := by
  intro c held
  simp only [isToken, Bool.and_eq_true, List.all_eq_true] at valid
  exact isTokenChar_ascii (valid.2 c held)

theorem isKeyId_ascii (valid : isKeyId s = true) : Ascii s.toList := by
  intro c held
  simp only [isKeyId, Bool.and_eq_true, List.all_eq_true, Bool.or_eq_true, decide_eq_true_eq] at valid
  obtain digit | ⟨-, below⟩ := valid.2 c held
  · exact isDigit_ascii digit
  · exact Nat.lt_of_le_of_lt (UInt32.le_iff_toNat_le.mp below) (by decide)

theorem isToken_of_isSessionId (valid : isSessionId s = true) : isToken s = true := by
  have letters := List.all_eq_true.mp (by decide : crockford.all isTokenChar = true)
  unfold isSessionId at valid
  unfold isToken
  split at valid
  · cases valid
  · next first rest spelled =>
    simp only [Bool.and_eq_true, decide_eq_true_eq, List.all_eq_true, contains_iff_mem] at valid
    obtain ⟨⟨⟨count, least⟩, most⟩, others⟩ := valid
    have leading : isTokenChar first = true := by
      have digit : first.isDigit = true := by
        simp only [Char.isDigit, Bool.and_eq_true, decide_eq_true_eq, ge_iff_le]
        exact ⟨least, UInt32.le_trans most (by decide)⟩
      simp [isTokenChar, Char.isAlphanum, digit]
    simp only [spelled, length_cons, count, all_cons, leading, Bool.true_and, Bool.and_eq_true, List.all_eq_true]
    exact ⟨by decide, fun c held => letters c (others c held)⟩

def SessionId.toToken (id : SessionId) : Token := ⟨id.text, isToken_of_isSessionId id.valid⟩

section Timestamps

variable {b : List Char}

theorem digits_ascii (read : digits b = some value) : Ascii b := by
  intro c held
  unfold digits at read
  split at read
  · cases read
  · next numeric =>
    simp only [Bool.or_eq_true, Bool.not_eq_true', not_or, Bool.not_eq_false, List.all_eq_true] at numeric
    exact isDigit_ascii (numeric.2 c held)

theorem fractionNanos_ascii (read : fractionNanos b = some nanos) : Ascii b := by
  cases b with
  | nil =>
    intro c held
    cases held
  | cons point f =>
    simp only [fractionNanos] at read
    split at read
    · next formed =>
      simp only [Bool.and_eq_true, beq_iff_eq] at formed
      obtain ⟨_, spelled, -⟩ := map_eq_some_iff.mp read
      intro c held
      obtain same | inside := mem_cons.mp held
      · rw [same, formed.1.1]
        decide
      · exact digits_ascii spelled c inside
    · cases read

theorem mem_slice (here : b[i]? = some c) (least : start ≤ i) (most : i < stop) : c ∈ slice b start stop := by
  have found : (slice b start stop)[i - start]? = some c := by
    rw [slice, getElem?_drop, Nat.add_sub_cancel' least, getElem?_take_of_lt most]
    exact here
  exact mem_of_getElem? found

theorem timestampNanos_ascii (valid : timestampNanos s = some nanos) : Ascii s.toList := by
  unfold timestampNanos at valid
  dsimp only at valid
  split at valid
  · cases valid
  · next shaped =>
    simp only [Bool.or_eq_true, decide_eq_true_eq, bne_iff_ne, ne_eq, not_or, not_not] at shaped
    obtain ⟨⟨⟨⟨⟨⟨long, dash⟩, dash'⟩, tee⟩, colon⟩, colon'⟩, last⟩ := shaped
    obtain ⟨_, year, valid⟩ := bind_eq_some_iff.mp valid
    obtain ⟨_, month, valid⟩ := bind_eq_some_iff.mp valid
    obtain ⟨_, day, valid⟩ := bind_eq_some_iff.mp valid
    obtain ⟨_, hour, valid⟩ := bind_eq_some_iff.mp valid
    obtain ⟨_, minute, valid⟩ := bind_eq_some_iff.mp valid
    obtain ⟨_, second, valid⟩ := bind_eq_some_iff.mp valid
    obtain ⟨_, fraction, valid⟩ := bind_eq_some_iff.mp valid
    rw [getLast?_eq_getElem?] at last
    -- every index is a separator, inside one of the digit groups, or inside the fraction
    intro c held
    obtain ⟨i, here⟩ := mem_iff_getElem?.mp held
    have below : i < s.toList.length := (List.getElem?_eq_some_iff.mp here).1
    have separator : ∀ {k : Nat} {d : Char}, s.toList[k]? = some d → d.toNat < 128 → i = k → c.toNat < 128 := by
      intro k d there ascii same
      rw [same, there] at here
      exact some.inj here ▸ ascii
    have place : i < 4 ∨ i = 4 ∨ (5 ≤ i ∧ i < 7) ∨ i = 7 ∨ (8 ≤ i ∧ i < 10) ∨ i = 10 ∨ (11 ≤ i ∧ i < 13) ∨
        i = 13 ∨ (14 ≤ i ∧ i < 16) ∨ i = 16 ∨ (17 ≤ i ∧ i < 19) ∨ (19 ≤ i ∧ i < s.toList.length - 1) ∨
        i = s.toList.length - 1 := by
      omega
    rcases place with h | h | h | h | h | h | h | h | h | h | h | h | h
    · exact digits_ascii year c (mem_slice here (Nat.zero_le i) h)
    · exact separator dash (by decide) h
    · exact digits_ascii month c (mem_slice here h.1 h.2)
    · exact separator dash' (by decide) h
    · exact digits_ascii day c (mem_slice here h.1 h.2)
    · exact separator tee (by decide) h
    · exact digits_ascii hour c (mem_slice here h.1 h.2)
    · exact separator colon (by decide) h
    · exact digits_ascii minute c (mem_slice here h.1 h.2)
    · exact separator colon' (by decide) h
    · exact digits_ascii second c (mem_slice here h.1 h.2)
    · exact fractionNanos_ascii fraction c (mem_slice here h.1 h.2)
    · exact separator last (by decide) h

end Timestamps

theorem Token.ijson (token : Token) : isIjsonString token.text.toList = true :=
  (isToken_ascii token.valid).ijson

theorem SessionId.ijson (id : SessionId) : isIjsonString id.text.toList = true :=
  (isToken_ascii (isToken_of_isSessionId id.valid)).ijson

theorem KeyId.ijson (id : KeyId) : isIjsonString id.text.toList = true :=
  (isKeyId_ascii id.valid).ijson

theorem Timestamp.ijson (t : Timestamp) : isIjsonString t.text.toList = true :=
  (timestampNanos_ascii t.valid).ijson

section Versions

theorem versionPart_text (short : n < 10 ^ 4) : versionPart (Decimal.text n) = some n := by
  have digits : (Decimal.text n).all isAsciiDigit = true := List.all_eq_true.mpr fun _ => Decimal.text_isDigit
  have some_ := Decimal.text_ne_nil n
  have length := (Decimal.text_length_le (by decide)).mpr short
  have positive := length_pos_iff.mpr some_
  have leading := Decimal.text_leading n
  have value : Oac.digits (Decimal.text n) = some n := by
    unfold Oac.digits
    rw [if_neg (by simp [digits, some_]), Decimal.text_value]
  have form : (decide (1 ≤ (Decimal.text n).length) && decide ((Decimal.text n).length ≤ 4) &&
      (Decimal.text n).all isAsciiDigit &&
      (decide ((Decimal.text n).length = 1) || (Decimal.text n).head? != some '0')) = true := by
    simpa [digits, length, Nat.succ_le_of_lt positive] using leading
  unfold versionPart
  rw [if_pos form, value]

theorem splitOnce_append (after : List Char) (absent : ∀ c ∈ before, c ≠ separator) :
    splitOnce separator (before ++ separator :: after) = some (before, after) := by
  have plain : ∀ c ∈ before, (c != separator) = true := by simpa using absent
  unfold splitOnce
  rw [span_eq_takeWhile_dropWhile, takeWhile_append_of_pos plain, dropWhile_append_of_pos plain]
  simp

theorem Version.text_toList (v : Version) :
    v.text.toList = Decimal.text v.major ++ '.' :: Decimal.text v.minor := by
  unfold Version.text
  rw [String.toList_append, String.toList_append, Decimal.toString_toList, Decimal.toString_toList]
  simp

theorem Version.splitOnce_text (v : Version) :
    splitOnce '.' v.text.toList = some (Decimal.text v.major, Decimal.text v.minor) := by
  rw [Version.text_toList]
  refine splitOnce_append _ ?_
  rintro c held rfl
  have digit := Decimal.text_isDigit held
  revert digit
  decide

theorem Version.parse_text (major : v.major < 10 ^ 4) (minor : v.minor < 10 ^ 4) :
    Version.parse v.text = some v := by
  unfold Version.parse
  rw [Version.splitOnce_text]
  simp [versionPart_text major, versionPart_text minor]

theorem Version.ijson (v : Version) : isIjsonString v.text.toList = true := by
  refine Ascii.ijson fun c held => ?_
  rw [Version.text_toList] at held
  obtain held | held := mem_append.mp held
  · exact isDigit_ascii (Decimal.text_isDigit held)
  · obtain rfl | held := mem_cons.mp held
    · decide
    · exact isDigit_ascii (Decimal.text_isDigit held)

end Versions

section PartTypes

theorem mem_splitOn {s : List Char} (held : c ∈ s) : c = x ∨ ∃ l ∈ s.splitOn x, c ∈ l := by
  unfold splitOn
  induction s with
  | nil => cases held
  | cons d rest ih =>
    rw [splitOnP_cons_eq_if_modifyHead]
    split
    · next here =>
      obtain rfl | held := mem_cons.mp held
      · exact .inl (beq_iff_eq.mp here)
      · exact (ih held).imp_right fun ⟨l, listed, there⟩ => ⟨l, mem_cons_of_mem _ listed, there⟩
    · obtain ⟨first, others, parts⟩ := exists_cons_of_ne_nil (splitOnP_ne_nil (· == x) rest)
      rw [parts] at ih ⊢
      obtain rfl | held := mem_cons.mp held
      · exact .inr ⟨_, mem_cons_self, mem_cons_self⟩
      · refine (ih held).imp_right fun ⟨l, listed, there⟩ => ?_
        obtain rfl | listed := mem_cons.mp listed
        · exact ⟨_, mem_cons_self, mem_cons_of_mem _ there⟩
        · exact ⟨l, mem_cons_of_mem _ listed, there⟩

theorem splitOnce_eq_some (split : splitOnce separator text = some (before, after)) :
    text = before ++ separator :: after := by
  unfold splitOnce at split
  rw [span_eq_takeWhile_dropWhile] at split
  cases rest : text.dropWhile (· != separator) with
  | nil =>
    rw [rest] at split
    cases split
  | cons c tail =>
    have here : c = separator := by
      have stopped := head?_dropWhile_not (· != separator) text
      rw [rest] at stopped
      simpa using stopped
    rw [rest] at split
    cases split
    subst here
    rw [← rest, takeWhile_append_dropWhile]

theorem isLowerName_ascii (valid : isLowerName limit b = true) : Ascii b := by
  simp only [isLowerName, Bool.and_eq_true, List.all_eq_true] at valid
  intro c held
  have tail := valid.2 c held
  simp only [isNameTail, Bool.or_eq_true, beq_iff_eq] at tail
  rcases tail with (lower | digit) | rfl
  · exact isLower_ascii lower
  · exact isDigit_ascii digit
  · decide

theorem isReverseDns_ascii (valid : isReverseDns p = true) : Ascii p := by
  simp only [isReverseDns, Bool.and_eq_true, List.all_eq_true] at valid
  intro c held
  obtain rfl | ⟨label, listed, there⟩ := mem_splitOn (x := '.') held
  · decide
  · have label := valid.2 label listed
    simp only [isDnsLabel, Bool.and_eq_true, List.all_eq_true] at label
    have plain := label.2 c there
    rw [Bool.or_eq_true, beq_iff_eq] at plain
    rcases plain with alphanumeric | rfl
    · exact isAlphanum_ascii alphanumeric
    · decide

theorem partType_ascii (known : (isCoreType t || isExtensionType t) = true) : Ascii t.toList := by
  rw [Bool.or_eq_true] at known
  obtain core | extension := known
  · exact isLowerName_ascii core
  · unfold isExtensionType at extension
    split at extension
    · cases extension
    · next dns name parts =>
      rw [Bool.and_eq_true] at extension
      intro c held
      rw [splitOnce_eq_some parts] at held
      obtain held | held := mem_append.mp held
      · exact isReverseDns_ascii extension.1 c held
      · obtain rfl | held := mem_cons.mp held
        · decide
        · exact isLowerName_ascii extension.2 c held

end PartTypes

end Oac
