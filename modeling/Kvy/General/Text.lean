import Kvy.General.StableSort
import Mathlib.Data.List.Lex
import Mathlib.Order.Nat

/-!
# Text functions

A string of Unicode scalars is also a sequence of sixteen-bit units. Comparing strings
unit by unit is the default order of the language's sort. Trimming, the text between two
tags, and rewriting by patterns that are matched at the head of what is left.
-/

namespace Kvy.General

/-- The units of a scalar: itself, or a pair of surrogates. -/
def unitsOf (char : Char) : List Nat :=
  let scalar := char.toNat
  if scalar < 0x10000 then [scalar]
  else [0xD800 + (scalar - 0x10000) / 0x400, 0xDC00 + (scalar - 0x10000) % 0x400]

/-- The units of a string. -/
def codeUnits (text : String) : List Nat := text.toList.flatMap unitsOf

/-- A scalar is no surrogate. -/
theorem scalar_bounds (char : Char) :
    char.toNat < 0xD800 ∨ 0xDFFF < char.toNat ∧ char.toNat < 0x110000 := char.valid

theorem units_of_ne_nil (char : Char) : unitsOf char ≠ [] := by
  unfold unitsOf
  simp only
  split <;> simp

/-- Units tell which scalar they begin with: no unit of a pair is a scalar. -/
theorem units_of_append {first second : Char} {rest others : List Nat}
    (same : unitsOf first ++ rest = unitsOf second ++ others) : first = second ∧ rest = others := by
  have firstBounds := scalar_bounds first
  have secondBounds := scalar_bounds second
  suffices equal : first.toNat = second.toNat ∧ rest = others from
    ⟨Char.toNat_inj.mp equal.1, equal.2⟩
  simp only [unitsOf] at same
  split at same <;> split at same <;>
    simp only [List.cons_append, List.nil_append, List.cons.injEq] at same
  · exact same
  · omega
  · omega
  · obtain ⟨high, low, tails⟩ := same
    exact ⟨by omega, tails⟩

/-- Different strings have different units. -/
theorem code_units_injective : Function.Injective codeUnits := by
  have texts : ∀ first second : List Char, first.flatMap unitsOf = second.flatMap unitsOf →
      first = second := by
    intro first
    induction first with
    | nil =>
      rintro (_ | ⟨char, rest⟩) same
      · rfl
      · exact absurd (List.append_eq_nil_iff.mp same.symm).1 (units_of_ne_nil char)
    | cons char rest inductionHypothesis =>
      rintro (_ | ⟨other, others⟩) same
      · exact absurd (List.append_eq_nil_iff.mp same).1 (units_of_ne_nil char)
      · obtain ⟨rfl, tails⟩ := units_of_append same
        rw [inductionHypothesis others tails]
  intro first second same
  exact String.toList_inj.mp (texts _ _ same)

namespace Text

/-- White space and line terminators. -/
def isSpace (char : Char) : Bool :=
  let scalar := char.toNat
  (9 ≤ scalar && scalar ≤ 13) || scalar == 0x20 || scalar == 0xA0 || scalar == 0x1680 ||
    (0x2000 ≤ scalar && scalar ≤ 0x200A) || scalar == 0x2028 || scalar == 0x2029 ||
    scalar == 0x202F || scalar == 0x205F || scalar == 0x3000 || scalar == 0xFEFF

/-- The text without space at its ends. -/
def trim (text : List Char) : List Char :=
  ((text.dropWhile isSpace).reverse.dropWhile isSpace).reverse

/-- A string without space at its ends. -/
def trimString (text : String) : String := String.ofList (trim text.toList)

/-- What follows the first occurrence of a tag. -/
def after? (tag : List Char) : List Char → Option (List Char)
  | [] => if tag.isEmpty then some [] else none
  | char :: rest =>
    if tag.isPrefixOf (char :: rest) then some ((char :: rest).drop tag.length) else after? tag rest

/-- What precedes the first occurrence of a tag. -/
def before? (tag : List Char) : List Char → Option (List Char)
  | [] => if tag.isEmpty then some [] else none
  | char :: rest =>
    if tag.isPrefixOf (char :: rest) then some [] else (before? tag rest).map (char :: ·)

/-- The text between a tag and the next occurrence of another. -/
def between? (opening closing text : List Char) : Option (List Char) :=
  (after? opening text).bind (before? closing)

/-- Drop every match of a pattern that returns what follows a match at the head. -/
def removeMatches (skip : List Char → Option (List Char)) : Nat → List Char → List Char
  | 0, text => text
  | _ + 1, [] => []
  | fuel + 1, char :: rest =>
    match skip (char :: rest) with
    | some left => removeMatches skip fuel left
    | none => char :: removeMatches skip fuel rest

/-- Write every run of space as one blank. -/
def collapseSpaces (inside : Bool) : List Char → List Char
  | [] => []
  | char :: rest =>
    if isSpace char then
      if inside then collapseSpaces true rest else ' ' :: collapseSpaces true rest
    else char :: collapseSpaces false rest

/-- The first code units of a text. A pair that does not fit whole is left out. -/
def firstUnits : Nat → List Char → List Char
  | _, [] => []
  | count, char :: rest =>
    if (unitsOf char).length ≤ count then
      char :: firstUnits (count - (unitsOf char).length) rest
    else []

end Text

end Kvy.General
