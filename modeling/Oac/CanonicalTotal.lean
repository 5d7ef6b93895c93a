import Oac.SigningInput

/-! Which values have a canonical text: those whose numbers are all finite as doubles. -/

namespace Oac

open Libraries Decimal JsonNumber Results

open Json (sortMembers)

variable [Libraries]

/-- What is assumed of the library writers: they write every string and every finite double, and
zero and the integers that doubles hold exactly are finite. -/
structure TotalWriters : Prop where
  strings : ∀ s, ∃ text, writeString s = .ok text
  doubles : ∀ x, isFinite x = true → ∃ text, writeDouble x = .ok text
  zero : isFinite zero = true
  integers : ∀ n, n < 2 ^ 53 → isFinite (parseDouble (fromU64 n).raw) = true

def FiniteNumber (n : JsonNumber) : Prop := isFinite (parseDouble n.raw) = true

variable (writers : TotalWriters)

include writers in
theorem memberText_exists_iff : (∃ text, memberText m = .ok text) ↔ ∃ text, canonical m.2 = .ok text := by
  constructor
  · rintro ⟨text, written⟩
    obtain ⟨_, value, -, written, -⟩ := memberText_eq_ok.mp written
    exact ⟨value, written⟩
  · rintro ⟨value, written⟩
    obtain ⟨name, named⟩ := writers.strings m.1
    exact ⟨_, memberText_eq_ok.mpr ⟨name, value, named, written, rfl⟩⟩

include writers in
theorem canonical_exists_iff (v : Json) : (∃ text, canonical v = .ok text) ↔ EachNumber FiniteNumber v := by
  induction v using Json.induct with
  | null => exact iff_of_true ⟨_, rfl⟩ trivial
  | bool b => cases b <;> exact iff_of_true ⟨_, rfl⟩ trivial
  | number n =>
    constructor
    · rintro ⟨text, written⟩
      exact (canonical_number.mp written).1
    · intro finite
      have normal : isFinite (normalDouble n) = true := by
        fun_cases normalDouble
        · exact writers.zero
        · exact finite
      obtain ⟨literal, wrote⟩ := writers.doubles _ normal
      exact ⟨_, canonical_number.mpr ⟨finite, literal, wrote, rfl⟩⟩
  | string s =>
    obtain ⟨literal, wrote⟩ := writers.strings s
    rw [canonical_scalar rfl]
    exact iff_of_true ⟨_, map_eq_ok.mpr ⟨literal, mapError_eq_ok.mpr wrote, rfl⟩⟩ trivial
  | array items each =>
    calc (∃ text, canonical (.array items) = .ok text)
      _ ↔ ∃ texts, items.mapM canonical = .ok texts := by rw [canonical_array, map_exists_iff]
      _ ↔ ∀ v ∈ items, ∃ text, canonical v = .ok text := mapM_exists_iff
      _ ↔ ∀ v ∈ items, EachNumber FiniteNumber v := forall₂_congr each
      _ ↔ EachNumber FiniteNumber (.array items) := eachNumberItems_iff.symm
  | object members each =>
    calc (∃ text, canonical (.object members) = .ok text)
      _ ↔ ∃ texts, (sortMembers members).mapM memberText = .ok texts := by rw [canonical_object, map_exists_iff]
      _ ↔ ∀ m ∈ sortMembers members, ∃ text, memberText m = .ok text := mapM_exists_iff
      _ ↔ ∀ m ∈ members, ∃ text, canonical m.2 = .ok text := by
        simp only [memberText_exists_iff writers, (Json.sortMembers_perm members).mem_iff]
      _ ↔ ∀ m ∈ members, EachNumber FiniteNumber m.2 := forall₂_congr each
      _ ↔ EachNumber FiniteNumber (.object members) := eachNumberMembers_iff.symm

omit [Libraries] in
theorem exactLibraries_integer (n : Nat) : exactLibraries.parseDouble (fromU64 n).raw = n := by
  have digits : ∀ c ∈ text n, c.isDigit = true := fun c => text_isDigit
  have noExponent : ∀ c ∈ text n, decide (c ≠ 'e') = true := by
    intro c held
    refine decide_eq_true fun same => ?_
    have digit := digits c held
    rw [same] at digit
    revert digit
    decide
  have value : Nat.ofDigitChars 10 (text n) 0 = n := Nat.ofDigitChars_ten_toDigits
  have whole : (text n).takeWhile Char.isDigit = text n := List.takeWhile_eq_self_iff.mpr digits
  have rest : (text n).dropWhile (· ≠ 'e') = [] := List.dropWhile_eq_nil_iff.mpr noExponent
  have read : exactLibraries.parseDouble (fromU64 n).raw =
      Nat.ofDigitChars 10 ((fromU64 n).raw.toList.takeWhile Char.isDigit) 0 *
        10 ^ Nat.ofDigitChars 10 ((fromU64 n).raw.toList.dropWhile (· ≠ 'e')).tail 0 := rfl
  rw [read, fromU64_toList, whole, rest, value, List.tail_nil, Nat.ofDigitChars_nil, Nat.pow_zero, Nat.mul_one]

omit [Libraries] in
theorem exactLibraries_total : @TotalWriters exactLibraries := by
  refine @TotalWriters.mk exactLibraries (fun _ => ⟨_, rfl⟩) (fun _ _ => ⟨_, rfl⟩) (by decide +kernel) ?_
  intro n small
  rw [exactLibraries_integer]
  refine decide_eq_true ?_
  by_cases zero : n = 0
  · rw [zero]
    decide
  · exact Nat.lt_trans ((Nat.log2_lt zero).mpr small) (by decide)

end Oac
