import Mathlib.Algebra.Ring.Int.Defs
import Mathlib.Algebra.Ring.Nat
import Mathlib.Data.Rat.Defs
import Mathlib.Data.List.TakeWhile

/-!
# Finite decimal numbers and their text

A finite decimal is an integer scaled down by a power of ten, stored without
trailing fractional zeros, so equal numbers are equal records. Printing writes
plain decimal notation; reading accepts an optional fraction and exponent, with
no superfluous leading zero.

Reading what printing wrote returns the number and the untouched remainder.
Binary rounding is outside this module: every decimal denotes itself.
-/

namespace Kvy.General

/-- The number `mantissa / 10 ^ scale`, in lowest scale. -/
structure Decimal where
  mantissa : Int
  scale : Nat
  normal : scale = 0 ∨ mantissa % 10 ≠ 0
deriving DecidableEq

namespace Decimal

/-- Drop trailing fractional zeros. Each dropped zero divides the mantissa
exactly, so the denoted number is unchanged. -/
def ofScaled (mantissa : Int) : Nat → Decimal
  | 0 => ⟨mantissa, 0, Or.inl rfl⟩
  | scale + 1 =>
    if divisible : mantissa % 10 = 0 then ofScaled (mantissa / 10) scale
    else ⟨mantissa, scale + 1, Or.inr divisible⟩

/-- An integer has no fractional part. -/
def ofInt (value : Int) : Decimal := ⟨value, 0, Or.inl rfl⟩

/-- The denoted rational number. -/
def toRat (number : Decimal) : ℚ := mkRat number.mantissa (10 ^ number.scale)

/-- A number already in lowest scale is its own reduction. -/
theorem of_scaled_normal (number : Decimal) : ofScaled number.mantissa number.scale = number := by
  obtain ⟨mantissa, scale, normal⟩ := number
  cases scale with
  | zero => rfl
  | succ scale =>
    have odd : mantissa % 10 ≠ 0 := normal.resolve_left (Nat.succ_ne_zero scale)
    simp [ofScaled, odd]

/-- Digits of a natural number, left-padded with zeros so that at least one
digit precedes a fraction of the given length. -/
def paddedDigits (magnitude scale : Nat) : List Char :=
  let digits := Nat.toDigits 10 magnitude
  List.replicate (scale + 1 - digits.length) '0' ++ digits

/-- Plain decimal notation, with a fraction exactly when the scale is positive. -/
def text (number : Decimal) : List Char :=
  let digits := paddedDigits number.mantissa.natAbs number.scale
  let whole := digits.take (digits.length - number.scale)
  let fraction := digits.drop (digits.length - number.scale)
  let sign := if number.mantissa < 0 then ['-'] else []
  sign ++ whole ++ (if number.scale = 0 then [] else '.' :: fraction)

/-- An optional sign and at least one digit, as an exponent carries them. -/
def readExponent (input : List Char) : Option (Int × List Char) :=
  let (negative, unsigned) :=
    match input with
    | '-' :: rest => (true, rest)
    | '+' :: rest => (false, rest)
    | rest => (false, rest)
  let digits := unsigned.takeWhile Char.isDigit
  let magnitude : Int := Nat.ofDigitChars 10 digits 0
  if digits = [] then none
  else some (if negative then -magnitude else magnitude, unsigned.dropWhile Char.isDigit)

/-- The fraction after a whole part; a bare point is not a fraction. -/
def readFraction (input : List Char) : Option (List Char × List Char) :=
  match input with
  | '.' :: rest =>
    let digits := rest.takeWhile Char.isDigit
    if digits = [] then none else some (digits, rest.dropWhile Char.isDigit)
  | rest => some ([], rest)

/-- The exponent after a fraction, zero when there is none. -/
def readScale (input : List Char) : Option (Int × List Char) :=
  match input with
  | 'e' :: rest => readExponent rest
  | 'E' :: rest => readExponent rest
  | rest => some (0, rest)

/-- Scale a mantissa by a signed power of ten. -/
def shifted (mantissa : Int) (scale : Nat) (exponent : Int) : Decimal :=
  if (scale : Int) ≤ exponent then ofInt (mantissa * 10 ^ (exponent - scale).toNat)
  else ofScaled mantissa (scale - exponent).toNat

/-- Read an unsigned number; a whole part of several digits starts nonzero. -/
def readUnsigned (negative : Bool) (input : List Char) : Option (Decimal × List Char) :=
  let whole := input.takeWhile Char.isDigit
  if whole = [] ∨ (whole.head? = some '0' ∧ 1 < whole.length) then none
  else do
    let (fraction, rest) ← readFraction (input.dropWhile Char.isDigit)
    let (exponent, rest) ← readScale rest
    let magnitude : Int := Nat.ofDigitChars 10 (whole ++ fraction) 0
    some (shifted (if negative then -magnitude else magnitude) fraction.length exponent, rest)

/-- Read a number from the front of a text. -/
def read (input : List Char) : Option (Decimal × List Char) :=
  match input with
  | '-' :: rest => readUnsigned true rest
  | rest => readUnsigned false rest

/-- A remainder at which a printed number ends. -/
def Ends (rest : List Char) : Prop :=
  ∀ char ∈ rest.head?, char.isDigit = false ∧ char ≠ '.' ∧ char ≠ 'e' ∧ char ≠ 'E'

/-- A padded text consists of digits only. -/
theorem padded_digits (magnitude scale : Nat) :
    ∀ char ∈ paddedDigits magnitude scale, char.isDigit = true := by
  intro char member
  rcases List.mem_append.mp member with zeros | digits
  · rw [List.eq_of_mem_replicate zeros]
    decide
  · exact Nat.isDigit_of_mem_toDigits (by decide) (by decide) digits

/-- Padding keeps the number the digits denote. -/
theorem padded_value (magnitude scale : Nat) :
    Nat.ofDigitChars 10 (paddedDigits magnitude scale) 0 = magnitude := by
  simp [paddedDigits, Nat.ofDigitChars_append]

/-- Padding leaves room for one digit before the fraction. -/
theorem padded_length (magnitude scale : Nat) : scale < (paddedDigits magnitude scale).length := by
  have nonempty : 0 < (Nat.toDigits 10 magnitude).length := Nat.length_toDigits_pos
  simp only [paddedDigits, List.length_append, List.length_replicate]
  omega

/-- Digits without padding start with zero for zero alone. -/
theorem digits_head (magnitude : Nat) (zero : (Nat.toDigits 10 magnitude).head? = some '0') :
    (Nat.toDigits 10 magnitude).length = 1 := by
  induction magnitude using Nat.strong_induction_on with
  | _ magnitude inductionHypothesis =>
    by_cases small : magnitude < 10
    · rw [Nat.toDigits_of_lt_base small]
      rfl
    · have split := Nat.toDigits_of_base_le (b := 10) (by decide) (Nat.le_of_not_lt small)
      have nonempty : Nat.toDigits 10 (magnitude / 10) ≠ [] := Nat.toDigits_ne_nil
      have higher : (Nat.toDigits 10 (magnitude / 10)).head? = some '0' := by
        rw [split] at zero
        cases shape : Nat.toDigits 10 (magnitude / 10) with
        | nil => exact absurd shape nonempty
        | cons first rest => simpa [shape] using zero
      have single := inductionHypothesis (magnitude / 10) (by omega) higher
      have below : magnitude / 10 < 10 := by
        have bound := (Nat.length_toDigits_le_iff (b := 10) (k := 1) (by decide) (by decide)).mp
          (Nat.le_of_eq single)
        simpa using bound
      rw [Nat.toDigits_of_lt_base below] at higher
      have vanishes : magnitude / 10 = 0 := by simpa using higher
      omega

/-- The whole part of a padded text has no superfluous leading zero. -/
theorem whole_lead (magnitude scale : Nat) :
    let digits := paddedDigits magnitude scale
    let whole := digits.take (digits.length - scale)
    ¬ (whole.head? = some '0' ∧ 1 < whole.length) := by
  intro digits whole
  rintro ⟨zero, long⟩
  have room : scale < digits.length := padded_length magnitude scale
  have headed : whole.head? = digits.head? := by
    simp only [whole, List.head?_take]
    simp [Nat.sub_ne_zero_of_lt room]
  have wholeLength : whole.length = digits.length - scale := by simp [whole]
  have unpadded : scale + 1 - (Nat.toDigits 10 magnitude).length = 0 := by
    by_contra padded
    have total : digits.length = scale + 1 := by
      simp only [digits, paddedDigits, List.length_append, List.length_replicate]
      omega
    omega
  have plain : digits = Nat.toDigits 10 magnitude := by
    simp [digits, paddedDigits, unpadded]
  rw [headed, plain] at zero
  have single := digits_head magnitude zero
  rw [plain] at wholeLength
  omega

/-- Digits followed by a non-digit are exactly the longest digit prefix. -/
theorem take_digits (digits rest : List Char) (only : ∀ char ∈ digits, char.isDigit = true)
    (stop : ∀ char ∈ rest.head?, char.isDigit = false) :
    (digits ++ rest).takeWhile Char.isDigit = digits ∧
      (digits ++ rest).dropWhile Char.isDigit = rest := by
  have stopped : rest.takeWhile Char.isDigit = [] ∧ rest.dropWhile Char.isDigit = rest := by
    cases rest with
    | nil => simp
    | cons first tail =>
      have different : first.isDigit = false := stop first (by simp)
      simp [different]
  constructor
  · rw [List.takeWhile_append_of_pos only, stopped.1, List.append_nil]
  · rw [List.dropWhile_append_of_pos only, stopped.2]

/-- The printed fraction, read back at a stopping remainder. -/
theorem read_fraction_text (digits rest : List Char)
    (only : ∀ char ∈ digits, char.isDigit = true) (ends : Ends rest) :
    readFraction ((if digits = [] then [] else '.' :: digits) ++ rest) = some (digits, rest) := by
  have stop : ∀ char ∈ rest.head?, char.isDigit = false := fun char member => (ends char member).1
  by_cases absent : digits = []
  · subst absent
    cases rest with
    | nil => rfl
    | cons first tail =>
      have point : first ≠ '.' := (ends first (by simp)).2.1
      simp [readFraction, point]
  · obtain ⟨taken, dropped⟩ := take_digits digits rest only stop
    simp [readFraction, absent, taken, dropped]

/-- No exponent follows a number that ends here. -/
theorem read_scale_absent (rest : List Char) (ends : Ends rest) :
    readScale rest = some (0, rest) := by
  cases rest with
  | nil => rfl
  | cons first tail =>
    obtain ⟨_, _, lower, upper⟩ := ends first (by simp)
    simp only [readScale]
    split
    · exact absurd (List.cons.inj ‹_›).1 lower
    · exact absurd (List.cons.inj ‹_›).1 upper
    · rfl

/-- Reading the digits of a printed magnitude restores it with the given sign.

The whole part ends at the point or at the remainder, the fraction at the
remainder; together they are the padded digits, whose value is the magnitude. -/
theorem read_unsigned_text (negative : Bool) (magnitude scale : Nat) (rest : List Char)
    (ends : Ends rest) :
    let digits := paddedDigits magnitude scale
    let whole := digits.take (digits.length - scale)
    let fraction := digits.drop (digits.length - scale)
    readUnsigned negative (whole ++ (if scale = 0 then [] else '.' :: fraction) ++ rest) =
      some (ofScaled (if negative then -magnitude else magnitude) scale, rest) := by
  intro digits whole fraction
  have room : scale < digits.length := padded_length magnitude scale
  have only : ∀ char ∈ digits, char.isDigit = true := padded_digits magnitude scale
  have wholeOnly : ∀ char ∈ whole, char.isDigit = true :=
    fun char member => only char (List.mem_of_mem_take member)
  have fractionOnly : ∀ char ∈ fraction, char.isDigit = true :=
    fun char member => only char (List.mem_of_mem_drop member)
  have fractionLength : fraction.length = scale := by
    simp only [fraction, List.length_drop]
    omega
  have wholeNonempty : whole ≠ [] := by
    intro none
    have length := congrArg List.length none
    simp only [whole, List.length_take, List.length_nil] at length
    omega
  have absent : fraction = [] ↔ scale = 0 := by
    rw [← fractionLength, List.length_eq_zero_iff]
  have marked : (if scale = 0 then [] else '.' :: fraction) =
      (if fraction = [] then [] else '.' :: fraction) := by
    simp only [absent]
  have stop : ∀ char ∈ ((if scale = 0 then [] else '.' :: fraction) ++ rest).head?,
      char.isDigit = false := by
    intro char member
    by_cases none : scale = 0
    · exact (ends char (by simpa [none] using member)).1
    · have point : char = '.' := by simpa [none, eq_comm] using member
      subst point
      decide
  obtain ⟨taken, dropped⟩ := take_digits whole _ wholeOnly stop
  have rejoined : whole ++ fraction = digits := List.take_append_drop _ _
  have lead : ¬ (whole.head? = some '0' ∧ 1 < whole.length) := whole_lead magnitude scale
  have reduced : ∀ mantissa : Int,
      shifted mantissa fraction.length 0 = ofScaled mantissa scale := by
    intro mantissa
    rw [fractionLength]
    cases scale with
    | zero => simp [shifted, ofScaled, ofInt]
    | succ scale =>
      have later : ¬ ((scale + 1 : Nat) : Int) ≤ 0 := by omega
      simp only [shifted, if_neg later]
      congr 1
  have fractionRead : readFraction ((if scale = 0 then [] else '.' :: fraction) ++ rest) =
      some (fraction, rest) := by
    rw [marked]
    exact read_fraction_text fraction rest fractionOnly ends
  rw [List.append_assoc]
  simp only [readUnsigned, taken, dropped, wholeNonempty, lead, or_self, ↓reduceIte,
    fractionRead, Option.bind_eq_bind, Option.bind_some, read_scale_absent rest ends, rejoined,
    reduced]
  rw [padded_value]

/-- A whole part starts with a digit, never with a sign. -/
theorem whole_starts (magnitude scale : Nat) :
    ∃ first tail, (let digits := paddedDigits magnitude scale
      digits.take (digits.length - scale)) = first :: tail ∧ first.isDigit = true := by
  have room := padded_length magnitude scale
  cases shape : paddedDigits magnitude scale with
  | nil => simp [shape] at room
  | cons first tail =>
    have digit : first.isDigit = true := padded_digits magnitude scale first (by simp [shape])
    have positive : (first :: tail).length - scale = ((first :: tail).length - scale - 1) + 1 := by
      rw [shape] at room
      omega
    refine ⟨first, tail.take ((first :: tail).length - scale - 1), ?_, digit⟩
    simp only
    rw [positive, List.take_succ_cons]
    rfl

/-- Reading a printed number restores it and leaves the remainder untouched. -/
theorem read_text (number : Decimal) (rest : List Char) (ends : Ends rest) :
    read (number.text ++ rest) = some (number, rest) := by
  have restored := read_unsigned_text (decide (number.mantissa < 0)) number.mantissa.natAbs
    number.scale rest ends
  have mantissa : (if decide (number.mantissa < 0) = true then -(number.mantissa.natAbs : Int)
      else number.mantissa.natAbs) = number.mantissa := by
    by_cases negative : number.mantissa < 0
    · rw [if_pos (decide_eq_true negative)]
      omega
    · rw [if_neg (by simp [negative])]
      omega
  rw [mantissa, of_scaled_normal] at restored
  by_cases negative : number.mantissa < 0
  · simpa [text, read, negative] using restored
  · obtain ⟨first, tail, shape, digit⟩ := whole_starts number.mantissa.natAbs number.scale
    have unsigned : first ≠ '-' := by
      rintro rfl
      exact absurd digit (by decide)
    simp only [text, negative, ↓reduceIte, List.nil_append]
    simp only [negative, decide_false] at restored
    rw [← restored]
    simp only [shape, List.cons_append, read]
    split
    · exact absurd (List.cons.inj ‹_›).1 unsigned
    · rfl

/-- A printed number starts with a sign or a digit. -/
theorem text_starts (number : Decimal) :
    ∃ first tail, number.text = first :: tail ∧ (first = '-' ∨ first.isDigit = true) := by
  obtain ⟨first, tail, shape, digit⟩ := whole_starts number.mantissa.natAbs number.scale
  by_cases negative : number.mantissa < 0
  · exact ⟨'-', number.text.tail, by simp [text, negative], Or.inl rfl⟩
  · exact ⟨first, number.text.tail, by simp [text, negative, shape], Or.inr digit⟩

/-- A printed number consists of digits, a sign and a point. -/
theorem text_chars (number : Decimal) :
    ∀ char ∈ number.text, char = '-' ∨ char = '.' ∨ char.isDigit = true := by
  intro char member
  have digits := padded_digits number.mantissa.natAbs number.scale
  simp only [text, List.mem_append] at member
  rcases member with (sign | whole) | fraction
  · split at sign
    · exact Or.inl (by simpa using sign)
    · exact absurd sign (by simp)
  · exact Or.inr (Or.inr (digits char (List.mem_of_mem_take whole)))
  · split at fraction
    · exact absurd fraction (by simp)
    · rcases List.mem_cons.mp fraction with point | tail
      · exact Or.inr (Or.inl point)
      · exact Or.inr (Or.inr (digits char (List.mem_of_mem_drop tail)))

end Decimal
end Kvy.General
