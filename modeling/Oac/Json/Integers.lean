import Oac.Foundation.Decimal
import Oac.Json.Grammar

/-! Integers as JSON numbers: what `from_u64` of `core/src/json.rs` writes is a number of the
grammar and is read back by the plain-integer check. -/

namespace Oac.JsonNumber

open Decimal

theorem fromU64_toList (v : Nat) : (fromU64 v).raw.toList = text v := toString_toList v

theorem decimal_integer (v : Nat) : Json.Grammar.Integer (text v) := by
  cases v with
  | zero => exact .zero
  | succ v =>
    obtain ⟨d, rest, spelled, notZero⟩ := text_head (Nat.succ_pos v)
    have digits : ∀ c ∈ d :: rest, c.isDigit = true := fun c held => text_isDigit (spelled ▸ held)
    obtain ⟨first, others⟩ := List.forall_mem_cons.mp digits
    rw [spelled]
    exact .digits first notZero others

theorem fromU64_number (v : Nat) : Json.Grammar.Number (fromU64 v).raw.toList := by
  have number := Json.Grammar.Number.mk .absent (decimal_integer v) .absent .absent
  rw [fromU64_toList]
  simpa using number

theorem plainIntegerIn_fromU64 {v min max : Nat} (fits : v < 2 ^ 64) (least : min ≤ v)
    (most : v ≤ max) : (fromU64 v).plainIntegerIn min max = some v := by
  have digits : (text v).all Char.isDigit = true := List.all_eq_true.mpr fun _ => text_isDigit
  have leading := text_leading v
  unfold plainIntegerIn
  simp only [fromU64_toList, text_value]
  rw [if_neg (by simpa [digits, text_ne_nil] using leading.resolve_left),
    if_pos (by simp [least, most]; omega)]

end Oac.JsonNumber
