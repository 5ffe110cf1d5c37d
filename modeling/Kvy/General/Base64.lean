import Mathlib.Data.List.Basic

/-!
# Base64url

Bytes as text over sixty-four characters without padding. Reading skips characters that are
not of the alphabet and takes the two characters of plain base64 as well, so it never fails;
it returns the bytes that were written.
-/

namespace Kvy.General.Base64

/-- The characters of base64url in the order of their values. -/
def alphabet : List Char := "ABCDEFGHIJKLMNOPQRSTUVWXYZabcdefghijklmnopqrstuvwxyz0123456789-_".toList

/-- The character of six bits. -/
def charOf (sextet : Nat) : Char := alphabet.getD sextet 'A'

/-- The six bits of a character, if it has any. -/
def sextetOf (char : Char) : Option Nat :=
  match char with
  | '+' => some 62
  | '/' => some 63
  | char => alphabet.idxOf? char

/-- Cut bytes into groups of six bits. -/
def sextets : List UInt8 → List Nat
  | first :: second :: third :: rest =>
    first.toNat / 4 :: (first.toNat % 4 * 16 + second.toNat / 16) ::
      (second.toNat % 16 * 4 + third.toNat / 64) :: third.toNat % 64 :: sextets rest
  | [first, second] =>
    [first.toNat / 4, first.toNat % 4 * 16 + second.toNat / 16, second.toNat % 16 * 4]
  | [first] => [first.toNat / 4, first.toNat % 4 * 16]
  | [] => []

/-- Join groups of six bits to bytes; bits that do not fill a byte are dropped. -/
def bytes : List Nat → List UInt8
  | first :: second :: third :: fourth :: rest =>
    UInt8.ofNat (first * 4 + second / 16) :: UInt8.ofNat (second % 16 * 16 + third / 4) ::
      UInt8.ofNat (third % 4 * 64 + fourth) :: bytes rest
  | [first, second, third] =>
    [UInt8.ofNat (first * 4 + second / 16), UInt8.ofNat (second % 16 * 16 + third / 4)]
  | [first, second] => [UInt8.ofNat (first * 4 + second / 16)]
  | _ => []

/-- Bytes as base64url text. -/
def encode (input : List UInt8) : List Char := (sextets input).map charOf

/-- Bytes from base64url text. -/
def decode (text : List Char) : List UInt8 := bytes (text.filterMap sextetOf)

/-- Reading a character returns the bits it was written for. -/
theorem sextet_of_char : ∀ sextet < 64, sextetOf (charOf sextet) = some sextet := by
  decide +kernel

/-- Groups have six bits. -/
theorem sextets_bound (input : List UInt8) : ∀ sextet ∈ sextets input, sextet < 64 := by
  fun_induction sextets input with
  | case1 first second third rest inductionHypothesis =>
    have firstBound := first.toNat_lt
    have secondBound := second.toNat_lt
    have thirdBound := third.toNat_lt
    intro sextet member
    simp only [List.mem_cons] at member
    rcases member with rfl | rfl | rfl | rfl | member
    · omega
    · omega
    · omega
    · omega
    · exact inductionHypothesis sextet member
  | case2 first second =>
    have firstBound := first.toNat_lt
    have secondBound := second.toNat_lt
    intro sextet member
    simp only [List.mem_cons, List.not_mem_nil, or_false] at member
    omega
  | case3 first =>
    have firstBound := first.toNat_lt
    intro sextet member
    simp only [List.mem_cons, List.not_mem_nil, or_false] at member
    omega
  | case4 => simp

/-- A byte is known by its number. -/
theorem byte_eq (byte : UInt8) {value : Nat} (same : value = byte.toNat) : UInt8.ofNat value = byte := by
  rw [same, UInt8.ofNat_toNat]

/-- Joining undoes cutting. -/
theorem bytes_sextets (input : List UInt8) : bytes (sextets input) = input := by
  fun_induction sextets input with
  | case1 first second third rest inductionHypothesis =>
    have firstBound := first.toNat_lt
    have secondBound := second.toNat_lt
    have thirdBound := third.toNat_lt
    rw [bytes, inductionHypothesis, byte_eq first, byte_eq second,
      byte_eq third]
    · omega
    · omega
    · omega
  | case2 first second =>
    have firstBound := first.toNat_lt
    have secondBound := second.toNat_lt
    rw [bytes, byte_eq first, byte_eq second]
    · omega
    · omega
  | case3 first =>
    have firstBound := first.toNat_lt
    rw [bytes, byte_eq first]
    omega
  | case4 => rfl

/-- Reading returns the bytes that were written. -/
theorem decode_encode (input : List UInt8) : decode (encode input) = input := by
  have read : ((sextets input).map charOf).filterMap sextetOf = sextets input := by
    rw [List.filterMap_map]
    have each : ∀ sextet ∈ sextets input, (sextetOf ∘ charOf) sextet = some sextet :=
      fun sextet member => sextet_of_char sextet (sextets_bound input sextet member)
    rw [List.filterMap_congr each, List.filterMap_some]
  rw [decode, encode, read, bytes_sextets]

end Kvy.General.Base64
