import Mathlib.Data.List.Basic

/-! UTF-8 octets: a decoder that takes no overlong form, no encoded surrogate and no truncation, and
its inverse, the encoder of the standard library. -/

namespace Utf8

open List
open String hiding length_append

def isTail (b : UInt8) : Bool := decide (0x80 ≤ b.toNat) && decide (b.toNat ≤ 0xBF)

/-- The second octet allowed after the first octet of a three-octet character. -/
def isSecondOfThree (b0 b1 : UInt8) : Bool :=
  if b0.toNat = 0xE0 then decide (0xA0 ≤ b1.toNat) && decide (b1.toNat ≤ 0xBF)
  else if b0.toNat = 0xED then decide (0x80 ≤ b1.toNat) && decide (b1.toNat ≤ 0x9F)
  else isTail b1

/-- The second octet allowed after the first octet of a four-octet character. -/
def isSecondOfFour (b0 b1 : UInt8) : Bool :=
  if b0.toNat = 0xF0 then decide (0x90 ≤ b1.toNat) && decide (b1.toNat ≤ 0xBF)
  else if b0.toNat = 0xF4 then decide (0x80 ≤ b1.toNat) && decide (b1.toNat ≤ 0x8F)
  else isTail b1

/-- The characters an octet string encodes, or nothing when it is not well-formed UTF-8. -/
def decode : List UInt8 → Option (List Char)
  | [] => some []
  | b0 :: rest =>
    if b0.toNat ≤ 0x7F then (decode rest).map (Char.ofNat b0.toNat :: ·)
    else match rest with
      | [] => none
      | b1 :: rest =>
        if 0xC2 ≤ b0.toNat ∧ b0.toNat ≤ 0xDF then
          if isTail b1 then
            (decode rest).map (Char.ofNat ((b0.toNat - 0xC0) * 64 + (b1.toNat - 0x80)) :: ·)
          else none
        else match rest with
          | [] => none
          | b2 :: rest =>
            if 0xE0 ≤ b0.toNat ∧ b0.toNat ≤ 0xEF then
              if isSecondOfThree b0 b1 && isTail b2 then
                (decode rest).map (Char.ofNat ((b0.toNat - 0xE0) * 4096 +
                  (b1.toNat - 0x80) * 64 + (b2.toNat - 0x80)) :: ·)
              else none
            else match rest with
              | [] => none
              | b3 :: rest =>
                if 0xF0 ≤ b0.toNat ∧ b0.toNat ≤ 0xF4 then
                  if isSecondOfFour b0 b1 && isTail b2 && isTail b3 then
                    (decode rest).map (Char.ofNat ((b0.toNat - 0xF0) * 262144 +
                      (b1.toNat - 0x80) * 4096 + (b2.toNat - 0x80) * 64 +
                      (b3.toNat - 0x80)) :: ·)
                  else none
                else none

def encode (text : List Char) : List UInt8 := text.flatMap utf8EncodeChar

theorem toNat_octet (small : n < 256) : (UInt8.ofNat n).toNat = n := by
  simp [UInt8.toNat_ofNat', Nat.mod_eq_of_lt small]

theorem isTail_iff : isTail b = true ↔ 0x80 ≤ b.toNat ∧ b.toNat ≤ 0xBF := by
  simp [isTail]

/-- The second octet keeps the value out of the two-octet range and out of the surrogates. -/
theorem isSecondOfThree_iff : isSecondOfThree b0 b1 = true ↔ 0x80 ≤ b1.toNat ∧ b1.toNat ≤ 0xBF ∧
    (b0.toNat = 0xE0 → 0xA0 ≤ b1.toNat) ∧ (b0.toNat = 0xED → b1.toNat ≤ 0x9F) := by
  unfold isSecondOfThree isTail
  split
  · simp; omega
  · split
    · simp; omega
    · simp; omega

theorem isSecondOfFour_iff : isSecondOfFour b0 b1 = true ↔ 0x80 ≤ b1.toNat ∧ b1.toNat ≤ 0xBF ∧
    (b0.toNat = 0xF0 → 0x90 ≤ b1.toNat) ∧ (b0.toNat = 0xF4 → b1.toNat ≤ 0x8F) := by
  unfold isSecondOfFour isTail
  split
  · simp; omega
  · split
    · simp; omega
    · simp; omega

theorem decode_one (rest : List UInt8) (most : v ≤ 0x7F) :
    decode (UInt8.ofNat v :: rest) = (decode rest).map (Char.ofNat v :: ·) := by
  rw [decode.eq_def]
  dsimp only
  rw [toNat_octet (by omega), if_pos most]

theorem decode_two (rest : List UInt8) (least : 0x7F < v) (most : v ≤ 0x7FF) :
    decode (UInt8.ofNat (v / 64 % 32 + 0xC0) :: UInt8.ofNat (v % 64 + 0x80) :: rest) =
      (decode rest).map (Char.ofNat v :: ·) := by
  have first := toNat_octet (n := v / 64 % 32 + 0xC0) (by omega)
  have second := toNat_octet (n := v % 64 + 0x80) (by omega)
  have whole : (v / 64 % 32 + 0xC0 - 0xC0) * 64 + (v % 64 + 0x80 - 0x80) = v := by omega
  rw [decode.eq_def]
  simp only [isTail, first, second, whole]
  rw [if_neg (by omega), if_pos (by omega), if_pos (by simp; omega)]

theorem decode_three (rest : List UInt8) (least : 0x7FF < v) (most : v ≤ 0xFFFF)
    (scalar : v < 0xD800 ∨ 0xDFFF < v) :
    decode (UInt8.ofNat (v / 4096 % 16 + 0xE0) :: UInt8.ofNat (v / 64 % 64 + 0x80) ::
        UInt8.ofNat (v % 64 + 0x80) :: rest) = (decode rest).map (Char.ofNat v :: ·) := by
  have first := toNat_octet (n := v / 4096 % 16 + 0xE0) (by omega)
  have second := toNat_octet (n := v / 64 % 64 + 0x80) (by omega)
  have third := toNat_octet (n := v % 64 + 0x80) (by omega)
  have whole : (v / 4096 % 16 + 0xE0 - 0xE0) * 4096 + (v / 64 % 64 + 0x80 - 0x80) * 64 +
      (v % 64 + 0x80 - 0x80) = v := by omega
  have allowed : isSecondOfThree (UInt8.ofNat (v / 4096 % 16 + 0xE0))
    (UInt8.ofNat (v / 64 % 64 + 0x80)) = true :=
    isSecondOfThree_iff.mpr (by rw [first]; omega)
  rw [decode.eq_def]
  simp only [allowed, isTail, first, second, third, whole]
  rw [if_neg (by omega), if_neg (by omega), if_pos (by omega), if_pos (by simp; omega)]

theorem decode_four (rest : List UInt8) (least : 0xFFFF < v) (most : v < 0x110000) :
    decode (UInt8.ofNat (v / 262144 % 8 + 0xF0) :: UInt8.ofNat (v / 4096 % 64 + 0x80) ::
        UInt8.ofNat (v / 64 % 64 + 0x80) :: UInt8.ofNat (v % 64 + 0x80) :: rest) =
      (decode rest).map (Char.ofNat v :: ·) := by
  have first := toNat_octet (n := v / 262144 % 8 + 0xF0) (by omega)
  have second := toNat_octet (n := v / 4096 % 64 + 0x80) (by omega)
  have third := toNat_octet (n := v / 64 % 64 + 0x80) (by omega)
  have fourth := toNat_octet (n := v % 64 + 0x80) (by omega)
  have whole : (v / 262144 % 8 + 0xF0 - 0xF0) * 262144 + (v / 4096 % 64 + 0x80 - 0x80) * 4096 +
      (v / 64 % 64 + 0x80 - 0x80) * 64 + (v % 64 + 0x80 - 0x80) = v := by omega
  have allowed : isSecondOfFour (UInt8.ofNat (v / 262144 % 8 + 0xF0))
    (UInt8.ofNat (v / 4096 % 64 + 0x80)) = true :=
    isSecondOfFour_iff.mpr (by rw [first]; omega)
  rw [decode.eq_def]
  simp only [allowed, isTail, first, second, third, fourth, whole]
  rw [if_neg (by omega), if_neg (by omega), if_neg (by omega), if_pos (by omega), if_pos (by simp; omega)]

theorem decode_encodeChar (c : Char) (rest : List UInt8) :
    decode (utf8EncodeChar c ++ rest) = (decode rest).map (c :: ·) := by
  have valid : c.val.toNat < 0xD800 ∨ 0xDFFF < c.val.toNat ∧ c.val.toNat < 0x110000 := c.valid
  have same : Char.ofNat c.val.toNat = c := c.ofNat_toNat
  fun_cases utf8EncodeChar
  · rw [cons_append, nil_append, decode_one rest (by omega), same]
  · simp only [cons_append, nil_append]
    rw [decode_two rest (by omega) (by omega), same]
  · simp only [cons_append, nil_append]
    rw [decode_three rest (by omega) (by omega) (by omega), same]
  · simp only [cons_append, nil_append]
    rw [decode_four rest (by omega) (by omega), same]

theorem decode_encode (text : List Char) : decode (encode text) = some text := by
  induction text with
  | nil => rfl
  | cons c rest ih =>
    unfold encode at ih ⊢
    rw [flatMap_cons, decode_encodeChar, ih]
    rfl

theorem val_ofNat (valid : v.isValidChar) : (Char.ofNat v).val.toNat = v := by
  unfold Char.ofNat
  rw [dif_pos valid]
  rfl

theorem ofNat_eq (same : n = b.toNat) : UInt8.ofNat n = b := by
  subst same
  exact UInt8.ofNat_toNat

theorem encodeChar_one (most : b.toNat ≤ 0x7F) : utf8EncodeChar (Char.ofNat b.toNat) = [b] := by
  have value := val_ofNat (v := b.toNat) (by unfold Nat.isValidChar; omega)
  unfold utf8EncodeChar
  simp only [value, if_pos most, UInt8.ofNat_toNat]

theorem encodeChar_two (first : 0xC2 ≤ b0.toNat ∧ b0.toNat ≤ 0xDF) (second : isTail b1 = true) :
    utf8EncodeChar (Char.ofNat ((b0.toNat - 0xC0) * 64 + (b1.toNat - 0x80))) = [b0, b1] := by
  rw [isTail_iff] at second
  have value := val_ofNat (v := (b0.toNat - 0xC0) * 64 + (b1.toNat - 0x80)) (by unfold Nat.isValidChar; omega)
  unfold utf8EncodeChar
  rw [if_neg (by omega), if_pos (by omega), ofNat_eq (b := b0) (by omega), ofNat_eq (b := b1) (by omega)]

theorem encodeChar_three (first : 0xE0 ≤ b0.toNat ∧ b0.toNat ≤ 0xEF)
    (second : isSecondOfThree b0 b1 = true) (third : isTail b2 = true) :
    utf8EncodeChar (Char.ofNat ((b0.toNat - 0xE0) * 4096 + (b1.toNat - 0x80) * 64 + (b2.toNat - 0x80))) =
      [b0, b1, b2] := by
  rw [isSecondOfThree_iff] at second
  rw [isTail_iff] at third
  have value := val_ofNat (v := (b0.toNat - 0xE0) * 4096 + (b1.toNat - 0x80) * 64 + (b2.toNat - 0x80))
    (by unfold Nat.isValidChar; omega)
  unfold utf8EncodeChar
  rw [if_neg (by omega), if_neg (by omega), if_pos (by omega), ofNat_eq (b := b0) (by omega),
    ofNat_eq (b := b1) (by omega), ofNat_eq (b := b2) (by omega)]

theorem encodeChar_four (first : 0xF0 ≤ b0.toNat ∧ b0.toNat ≤ 0xF4)
    (second : isSecondOfFour b0 b1 = true) (third : isTail b2 = true) (fourth : isTail b3 = true) :
    utf8EncodeChar (Char.ofNat ((b0.toNat - 0xF0) * 262144 + (b1.toNat - 0x80) * 4096 +
      (b2.toNat - 0x80) * 64 + (b3.toNat - 0x80))) = [b0, b1, b2, b3] := by
  rw [isSecondOfFour_iff] at second
  rw [isTail_iff] at third fourth
  have value := val_ofNat (v := (b0.toNat - 0xF0) * 262144 + (b1.toNat - 0x80) * 4096 +
      (b2.toNat - 0x80) * 64 + (b3.toNat - 0x80)) (by unfold Nat.isValidChar; omega)
  unfold utf8EncodeChar
  rw [if_neg (by omega), if_neg (by omega), if_neg (by omega), ofNat_eq (b := b0) (by omega),
    ofNat_eq (b := b1) (by omega), ofNat_eq (b := b2) (by omega), ofNat_eq (b := b3) (by omega)]

theorem encode_cons (c : Char) (rest : List Char) : encode (c :: rest) = utf8EncodeChar c ++ encode rest := rfl

theorem encode_of_decode (read : decode octets = some text) : encode text = octets := by
  fun_induction decode octets generalizing text <;>
    simp only [Option.map_eq_some_iff, reduceCtorEq, Option.some.injEq] at read
  case case1 =>
    subst read
    rfl
  all_goals
    obtain ⟨others, read, rfl⟩ := read
    rename_i ih
    rw [encode_cons, ih read]
  case case2 _ _ most => rw [encodeChar_one most, singleton_append]
  case case4 _ _ _ _ first second => simp [encodeChar_two first second]
  case case7 _ _ _ _ _ _ first second =>
    obtain ⟨second, third⟩ := Bool.and_eq_true_iff.mp second
    simp [encodeChar_three first second third]
  case case10 _ _ _ _ _ _ _ _ first second =>
    obtain ⟨second, fourth⟩ := Bool.and_eq_true_iff.mp second
    obtain ⟨second, third⟩ := Bool.and_eq_true_iff.mp second
    simp [encodeChar_four first second third fourth]

theorem encodeChar_ascii (ascii : c.toNat ≤ 0x7F) : utf8EncodeChar c = [UInt8.ofNat c.toNat] := by
  exact if_pos ascii

/-- A character outside ASCII starts with an octet that is neither ASCII nor a continuation
octet. -/
theorem encodeChar_wide (wide : 0x7F < c.toNat) :
    ∃ b tail, utf8EncodeChar c = b :: tail ∧ 0xC0 ≤ b.toNat ∧ ∀ t ∈ tail, isTail t = true := by
  have tails : ∀ v : Nat, isTail (UInt8.ofNat (v % 64 + 0x80)) = true := by
    intro v
    rw [isTail_iff, toNat_octet (by omega)]
    omega
  have wide : 0x7F < c.val.toNat := wide
  unfold utf8EncodeChar
  rw [if_neg (by omega)]
  split
  · refine ⟨_, _, rfl, ?_, by simp [tails, -UInt8.ofNat_add]⟩
    rw [toNat_octet (by omega)]
    omega
  · split
    · refine ⟨_, _, rfl, ?_, by simp [tails, -UInt8.ofNat_add]⟩
      rw [toNat_octet (by omega)]
      omega
    · refine ⟨_, _, rfl, ?_, by simp [tails, -UInt8.ofNat_add]⟩
      rw [toNat_octet (by omega)]
      omega

theorem encode_append (first second : List Char) : encode (first ++ second) = encode first ++ encode second :=
  flatMap_append

theorem encode_ascii_length (ascii : ∀ c ∈ text, c.toNat ≤ 0x7F) : (encode text).length = text.length := by
  induction text with
  | nil => rfl
  | cons c rest ih =>
    rw [encode_cons, encodeChar_ascii (ascii c (by simp)), length_append,
      ih fun d held => ascii d (by simp [held])]
    simp [Nat.add_comm]

theorem encode_length_bounds (text : List Char) :
    text.length ≤ (encode text).length ∧ (encode text).length ≤ 4 * text.length := by
  induction text with
  | nil => exact ⟨Nat.le_refl 0, Nat.le_refl 0⟩
  | cons c rest ih =>
    have least : 0 < (utf8EncodeChar c).length := by
      rw [length_utf8EncodeChar]
      exact c.utf8Size_pos
    have most : (utf8EncodeChar c).length ≤ 4 := by
      rw [length_utf8EncodeChar]
      exact c.utf8Size_le_four
    rw [encode_cons, length_append, length_cons]
    omega

theorem encode_injective (same : encode text = encode text') : text = text' := by
  have decoded := congrArg decode same
  rw [decode_encode, decode_encode] at decoded
  exact Option.some.inj decoded

end Utf8
