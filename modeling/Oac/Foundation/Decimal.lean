import Mathlib.Data.Nat.Basic
import Mathlib.Tactic.IntervalCases

/-! Decimal texts of numbers: digits only, no leading zero, and read back to the number. -/

namespace Decimal

/-- The decimal digits of `n`, most significant first. -/
def text (n : Nat) : List Char := Nat.toDigits 10 n

theorem toString_toList (n : Nat) : (toString n).toList = text n := Nat.toList_repr

theorem text_isDigit (held : c ∈ text n) : c.isDigit = true :=
  Nat.isDigit_of_mem_toDigits (by decide) (by decide) held

theorem text_ne_nil (n : Nat) : text n ≠ [] := Nat.toDigits_ne_nil

theorem text_small (small : n < 10) : text n = [n.digitChar] := Nat.toDigits_of_lt_base small

theorem text_large (large : 10 ≤ n) : text n = text (n / 10) ++ [(n % 10).digitChar] :=
  Nat.toDigits_of_base_le (by decide) large

theorem text_head (positive : 0 < n) : ∃ d rest, text n = d :: rest ∧ d ≠ '0' := by
  induction n using Nat.strong_induction_on with
  | _ n ih =>
    by_cases small : n < 10
    · refine ⟨n.digitChar, [], text_small small, ?_⟩
      interval_cases n <;> decide
    · obtain ⟨d, rest, spelled, notZero⟩ := ih (n / 10) (by omega) (by omega)
      refine ⟨d, rest ++ [(n % 10).digitChar], ?_, notZero⟩
      rw [text_large (by omega), spelled, List.cons_append]

theorem text_leading (n : Nat) : (text n).length = 1 ∨ (text n).head? ≠ some '0' := by
  cases n with
  | zero => exact .inl rfl
  | succ n =>
    obtain ⟨d, rest, spelled, notZero⟩ := text_head (Nat.succ_pos n)
    rw [spelled]
    exact .inr fun same => notZero (Option.some.inj same)

theorem text_value (n : Nat) : (text n).foldl (fun a d => a * 10 + (d.toNat - '0'.toNat)) 0 = n := by
  have value : Nat.ofDigitChars 10 (text n) 0 = n := Nat.ofDigitChars_ten_toDigits
  unfold Nat.ofDigitChars at value
  simpa only [Nat.mul_comm 10] using value

theorem text_injective (same : text n = text m) : n = m := by
  rw [← text_value n, same, text_value]

theorem text_length_le (positive : 0 < k) : (text n).length ≤ k ↔ n < 10 ^ k :=
  Nat.length_toDigits_le_iff (by decide) positive

end Decimal
