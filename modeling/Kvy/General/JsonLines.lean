import Kvy.General.JsonRoundTrip

/-!
# JSON Lines

Compact JSON text never contains a line feed, so a file with one compact value on
each line splits back into exactly those texts. Reading skips blank lines, lines
that are not JSON, and values that the reader does not accept.
-/

namespace Kvy.General.Json

universe u
variable {α : Type u}

/-- A quoted character does not end a line. -/
theorem quote_char_inline (char : Char) : '\n' ∉ quoteChar char := by
  intro member
  have digit : ∀ value < 16, hexDigit value ≠ '\n' := by decide
  unfold quoteChar at member
  split_ifs at member with quoted backslash newline carriage tab backspace feed control
  all_goals simp only [List.mem_cons, List.not_mem_nil, Char.reduceEq, or_false, false_or,
    or_self] at member
  · rcases member with high | low
    · exact digit _ (by omega) high.symm
    · exact digit _ (by omega) low.symm
  · exact newline member.symm

theorem quote_inline (string : String) : '\n' ∉ quote string := by
  simp only [quote, List.cons_append, List.mem_cons, List.mem_append, List.mem_flatMap,
    List.not_mem_nil, Char.reduceEq, or_false, false_or, not_exists, not_and]
  exact fun char _ => quote_char_inline char

mutual
/-- Compact text stays on one line. -/
theorem render_inline (depth : Nat) : ∀ value : Json, '\n' ∉ render 0 depth value
  | .null => by simp [render]
  | .bool true => by simp [render]
  | .bool false => by simp [render]
  | .num number => by
    intro member
    rcases number.text_chars '\n' (by simpa [render] using member) with sign | point | digit
    · exact absurd sign (by decide)
    · exact absurd point (by decide)
    · exact absurd digit (by decide)
  | .str string => by simpa [render] using quote_inline string
  | .arr [] => by simp [render]
  | .arr (first :: rest) => by
    simp [render, lineBreak, render_inline (depth + 1) first, render_items_inline depth rest]
  | .obj [] => by simp [render]
  | .obj ((key, value) :: rest) => by
    simp [render, lineBreak, colon, quote_inline key, render_inline (depth + 1) value,
      render_fields_inline depth rest]
theorem render_items_inline (depth : Nat) : ∀ items : List Json, '\n' ∉ renderItems 0 depth items
  | [] => by simp [renderItems, lineBreak]
  | item :: rest => by
    simp [renderItems, lineBreak, render_inline (depth + 1) item, render_items_inline depth rest]
theorem render_fields_inline (depth : Nat) :
    ∀ fields : List (String × Json), '\n' ∉ renderFields 0 depth fields
  | [] => by simp [renderFields, lineBreak]
  | (key, value) :: rest => by
    simp [renderFields, lineBreak, colon, quote_inline key, render_inline (depth + 1) value,
      render_fields_inline depth rest]
end

/-- A line of whitespace only. -/
def isBlank (line : List Char) : Bool := line.all isSpace

/-- One compact value on each line. -/
def writeLines (values : List Json) : List Char :=
  values.flatMap (fun value => value.stringify 0 ++ ['\n'])

/-- The accepted values of a text's lines, in order. -/
def readLines (accept : Json → Option α) (text : List Char) : List α :=
  (text.splitOn '\n').filterMap
    (fun line => if isBlank line then none else (parse line).bind accept)

/-- A blank line is no value. -/
theorem parse_blank {line : List Char} (blank : isBlank line = true) : parse line = none := by
  have nothing : skipSpace line = [] := List.dropWhile_eq_nil_iff.mpr (List.all_eq_true.mp blank)
  simp [parse, readValue, nothing]

/-- A text is read line by line. -/
theorem read_lines_eq (accept : Json → Option α) (text : List Char) :
    readLines accept text = (text.splitOn '\n').filterMap (fun line => (parse line).bind accept) := by
  refine List.filterMap_congr (fun line _ => ?_)
  split
  · rename_i blank
    rw [parse_blank blank, Option.bind_none]
  · rfl

/-- A line is read before the lines behind it. -/
theorem read_lines_line (accept : Json → Option α) {line : List Char} (inline : '\n' ∉ line)
    (rest : List Char) :
    readLines accept (line ++ '\n' :: rest) =
      ((parse line).bind accept).toList ++ readLines accept rest := by
  rw [read_lines_eq, read_lines_eq, List.splitOn_append_cons_self_of_not_mem inline]
  cases accepted : (parse line).bind accept <;> simp [accepted]

/-- Written values are read back in order, without those the reader refuses. -/
theorem read_write_lines (accept : Json → Option α) (values : List Json)
    (distinct : ∀ value ∈ values, value.distinct = true) :
    readLines accept (writeLines values) = values.filterMap accept := by
  induction values with
  | nil => simp [readLines, writeLines, isBlank]
  | cons value rest inductionHypothesis =>
    have first : parse (value.stringify 0) = some value :=
      parse_stringify value 0 (distinct value (by simp))
    have inline : '\n' ∉ value.stringify 0 := render_inline 0 value
    have tail := inductionHypothesis
      (fun other member => distinct other (List.mem_cons_of_mem value member))
    have opened : writeLines (value :: rest) = value.stringify 0 ++ '\n' :: writeLines rest := by
      simp [writeLines]
    rw [opened, read_lines_line accept inline, first, tail, Option.bind_some]
    cases accepted : accept value <;> simp [accepted]

end Kvy.General.Json
