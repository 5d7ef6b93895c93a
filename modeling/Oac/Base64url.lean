import Oac.Canonical
import Oac.Foundation.Utf8

/-! The unpadded base64url encoder of `core/src/base64url.rs`, and that the strict decoder reads
back what it writes. A chunk of octets and its characters are two ways to cut one 24-bit word. -/

namespace Oac.Base64url

open List

def alphabet : List Char :=
  "ABCDEFGHIJKLMNOPQRSTUVWXYZabcdefghijklmnopqrstuvwxyz0123456789-_".toList

def digit (v : Nat) : Char := alphabet.getD v 'A'

/-- The 24-bit word of a chunk whose octets start at position `k`. -/
def octetWord : List UInt8 → Nat → Nat
  | [], _ => 0
  | b :: rest, k => (b.toNat <<< (16 - 8 * k)) ||| octetWord rest (k + 1)

def encodeChunk (chunk : List UInt8) : List Char :=
  let n := octetWord chunk 0
  (range (chunk.length + 1)).map fun k => digit ((n >>> (18 - 6 * k)) &&& 63)

def encodeChunks : List UInt8 → List Char
  | [] => []
  | a :: b :: c :: rest => encodeChunk [a, b, c] ++ encodeChunks rest
  | chunk => encodeChunk chunk

def encode (octets : List UInt8) : String := String.ofList (encodeChunks octets)

section Words

theorem value_digit (small : v < 64) : value (digit v) = some v := by
  have every : ∀ v : Fin 64, value (digit v) = some v.val := by decide +kernel
  exact every ⟨v, small⟩

theorem shift_or (fits : b < 2 ^ i) : a <<< i ||| b = a * 2 ^ i + b := by
  rw [← Nat.shiftLeft_add_eq_or_of_lt fits, Nat.shiftLeft_eq]

theorem shift_and (n i : Nat) : (n >>> i) &&& 63 = n / 2 ^ i % 64 := by
  rw [Nat.shiftRight_eq_div_pow]
  exact Nat.and_two_pow_sub_one_eq_mod _ 6

theorem octetWord_one (a : UInt8) : octetWord [a] 0 = a.toNat * 65536 := by
  rw [octetWord, octetWord, shift_or (by decide)]
  omega

theorem octetWord_two (a b : UInt8) : octetWord [a, b] 0 = a.toNat * 65536 + b.toNat * 256 := by
  have second : octetWord [b] 1 = b.toNat * 256 := by
    rw [octetWord, octetWord, shift_or (by decide)]
    omega
  have small := b.toNat_lt
  rw [octetWord, second]
  exact shift_or (by omega)

theorem octetWord_three (a b c : UInt8) :
    octetWord [a, b, c] 0 = a.toNat * 65536 + b.toNat * 256 + c.toNat := by
  have third : octetWord [c] 2 = c.toNat := by
    rw [octetWord, octetWord, shift_or (by decide)]
    omega
  have small := c.toNat_lt
  have second : octetWord [b, c] 1 = b.toNat * 256 + c.toNat := by
    rw [octetWord, third]
    exact shift_or (by omega)
  have small' := b.toNat_lt
  rw [octetWord, second, shift_or (by omega)]
  omega

def digitWord : List Nat → Nat → Nat
  | [], _ => 0
  | v :: rest, k => v * 2 ^ (18 - 6 * k) + digitWord rest (k + 1)

theorem word_digits (small : ∀ v ∈ vs, v < 64) (fits : vs.length + k ≤ 4) :
    word (vs.map digit) k = some (digitWord vs k) ∧ digitWord vs k < 2 ^ (24 - 6 * k) := by
  induction vs generalizing k with
  | nil => exact ⟨rfl, Nat.two_pow_pos _⟩
  | cons v rest ih =>
    obtain ⟨first, others⟩ := forall_mem_cons.mp small
    rw [length_cons] at fits
    obtain ⟨read, bound⟩ := ih (k := k + 1) others (by omega)
    have place : 24 - 6 * (k + 1) = 18 - 6 * k := by omega
    have next : 24 - 6 * k = (18 - 6 * k) + 6 := by omega
    rw [place] at bound
    constructor
    · simp only [map_cons, word, value_digit first, read, Option.bind_eq_bind, Option.bind_some,
        shift_or bound, digitWord]
    · rw [digitWord, next, Nat.pow_add]
      have scaled : v * 2 ^ (18 - 6 * k) ≤ 63 * 2 ^ (18 - 6 * k) := Nat.mul_le_mul_right _ (by omega)
      omega

end Words

section Chunks

def digits (n m : Nat) : List Nat := (range (m + 1)).map fun k => n / 2 ^ (18 - 6 * k) % 64

theorem encodeChunk_eq (chunk : List UInt8) :
    encodeChunk chunk = (digits (octetWord chunk 0) chunk.length).map digit := by
  simp only [encodeChunk, digits, shift_and, map_map]
  rfl

theorem digitWord_digits (small : n < 2 ^ 24) (some_ : 1 ≤ m) (few : m ≤ 3)
    (rest : n % 2 ^ (24 - 8 * m) = 0) : digitWord (digits n m) 0 = n := by
  obtain rfl | rfl | rfl : m = 1 ∨ m = 2 ∨ m = 3 := by omega
  all_goals
    simp only [digits, range_succ, range_zero, nil_append, map_cons, map_nil, cons_append, digitWord]
    omega

theorem chunkOctets_digits (within : n < 2 ^ 24) (some_ : 1 ≤ m) (few : m ≤ 3)
    (rest : n % 2 ^ (24 - 8 * m) = 0) :
    chunkOctets ((digits n m).map digit) = some ((range m).map fun k => UInt8.ofNat (n / 2 ^ (16 - 8 * k))) := by
  have small : ∀ v ∈ digits n m, v < 64 := by
    intro v held
    obtain ⟨k, -, rfl⟩ := mem_map.mp held
    exact Nat.mod_lt _ (by decide)
  have length : (digits n m).length = m + 1 := by simp [digits]
  have read := (word_digits (k := 0) small (by omega)).1
  unfold chunkOctets
  rw [read, digitWord_digits within some_ few rest]
  simp only [Option.bind_eq_bind, Option.bind_some, length_map, length, Nat.add_sub_cancel,
    Nat.shiftRight_eq_div_pow, Nat.one_shiftLeft, Nat.and_two_pow_sub_one_eq_mod, rest]
  exact if_neg fun unused => unused.2 rfl

theorem octet_eq (same : n % 256 = b.toNat) : UInt8.ofNat n = b := by
  rw [← UInt8.toNat_inj]
  exact same

theorem chunkOctets_encodeChunk (some_ : chunk ≠ []) (short : chunk.length ≤ 3) :
    chunkOctets (encodeChunk chunk) = some chunk := by
  rw [encodeChunk_eq]
  match chunk, some_, short with
  | [a], _, _ =>
    have smallA := a.toNat_lt
    rw [octetWord_one, length_singleton, chunkOctets_digits (by omega) (by decide) (by decide) (by omega)]
    have first : UInt8.ofNat (a.toNat * 65536 / 2 ^ 16) = a := octet_eq (by omega)
    exact congrArg some (congrArg (· :: []) first)
  | [a, b], _, _ =>
    have smallA := a.toNat_lt
    have smallB := b.toNat_lt
    have length : [a, b].length = 2 := rfl
    rw [octetWord_two, length, chunkOctets_digits (by omega) (by decide) (by decide) (by omega)]
    have first : UInt8.ofNat ((a.toNat * 65536 + b.toNat * 256) / 2 ^ 16) = a := octet_eq (by omega)
    have second : UInt8.ofNat ((a.toNat * 65536 + b.toNat * 256) / 2 ^ 8) = b := octet_eq (by omega)
    exact congrArg some (congrArg₂ (fun x y => [x, y]) first second)
  | [a, b, c], _, _ =>
    have smallA := a.toNat_lt
    have smallB := b.toNat_lt
    have smallC := c.toNat_lt
    have length : [a, b, c].length = 3 := rfl
    rw [octetWord_three, length, chunkOctets_digits (by omega) (by decide) (by decide) (by omega)]
    have first : UInt8.ofNat ((a.toNat * 65536 + b.toNat * 256 + c.toNat) / 2 ^ 16) = a := octet_eq (by omega)
    have second : UInt8.ofNat ((a.toNat * 65536 + b.toNat * 256 + c.toNat) / 2 ^ 8) = b := octet_eq (by omega)
    have third : UInt8.ofNat ((a.toNat * 65536 + b.toNat * 256 + c.toNat) / 2 ^ 0) = c := octet_eq (by omega)
    exact congrArg some (congrArg₂ cons first (congrArg₂ (fun x y => [x, y]) second third))

end Chunks

section Whole

theorem encodeChunk_length (chunk : List UInt8) : (encodeChunk chunk).length = chunk.length + 1 := by
  simp [encodeChunk]

theorem decodeChunks_short (some_ : chunk ≠ []) (short : chunk.length ≤ 3) :
    decodeChunks chunk = chunkOctets chunk := by
  match chunk, some_, short with
  | [a], _, _ => rfl
  | [a, b], _, _ => rfl
  | [a, b, c], _, _ => rfl

theorem decodeChunks_encodeChunks (octets : List UInt8) :
    decodeChunks (encodeChunks octets) = some octets ∧
      (encodeChunks octets).length = (octets.length * 4 + 2) / 3 := by
  fun_induction encodeChunks octets with
  | case1 => exact ⟨rfl, rfl⟩
  | case2 a b c rest ih =>
    obtain ⟨read, length⟩ := ih
    have chunk : chunkOctets (encodeChunk [a, b, c]) = some [a, b, c] :=
      chunkOctets_encodeChunk (by simp) (by simp)
    have four := encodeChunk_length [a, b, c]
    obtain ⟨w, x, y, z, spelled⟩ : ∃ w x y z, encodeChunk [a, b, c] = [w, x, y, z] := length_eq_four.mp four
    rw [spelled] at chunk ⊢
    constructor
    · simp only [cons_append, nil_append, decodeChunks, chunk, read, Option.bind_eq_bind, Option.bind_some]
    · simp only [cons_append, nil_append, length_cons, length]
      omega
  | case3 chunk notEmpty notThree =>
    have short : chunk.length ≤ 2 := by
      match chunk, notThree with
      | [], _ | [_], _ | [_, _], _ => simp
      | a :: b :: c :: rest, no => exact absurd rfl (no a b c rest)
    have length := encodeChunk_length chunk
    have some_ : encodeChunk chunk ≠ [] := by
      intro nothing
      rw [nothing] at length
      cases length
    rw [decodeChunks_short some_ (by omega)]
    refine ⟨chunkOctets_encodeChunk (fun nothing => notEmpty nothing) (by omega), ?_⟩
    have positive : 0 < chunk.length := length_pos_iff.mpr fun nothing => notEmpty nothing
    omega

theorem decodeExact_encode (length : octets.length = n) : decodeExact n (encode octets) = some octets := by
  obtain ⟨read, chars⟩ := decodeChunks_encodeChunks octets
  unfold decodeExact encode
  rw [String.toList_ofList, chars, read]
  simp [length]

theorem mem_encodeChunk (held : c ∈ encodeChunk chunk) : c.toNat < 128 := by
  have every : ∀ v : Fin 64, (digit v).toNat < 128 := by decide +kernel
  rw [encodeChunk_eq] at held
  obtain ⟨v, there, rfl⟩ := mem_map.mp held
  obtain ⟨k, -, rfl⟩ := mem_map.mp there
  exact every ⟨_, Nat.mod_lt _ (by decide)⟩

theorem encode_ascii (octets : List UInt8) : ∀ c ∈ (encode octets).toList, c.toNat < 128 := by
  unfold encode
  rw [String.toList_ofList]
  fun_induction encodeChunks octets with
  | case1 => rintro c ⟨⟩
  | case2 a b c rest ih => exact forall_mem_append.mpr ⟨fun d held => mem_encodeChunk held, ih⟩
  | case3 chunk _ _ => exact fun c held => mem_encodeChunk held

end Whole

end Oac.Base64url
