import Kvy.Cli.Claude.TranscriptLine
import Kvy.General.Utf8

/-!
# Transcript entries

A transcript holds one JSON value on each line. What is read of it is a prefix of its bytes,
which may end inside a line or inside a character. Every line but the last one of a prefix is
a line of the transcript, and a longer prefix has the same lines at the same places.
-/

namespace Kvy.Cli.Claude

open General

/-- `RawJSONLines`: the fields that are checked, and the whole value, which is passed through. -/
inductive RawJSONLines where
  | user (uuid : String) (isSidechain isMeta : Option Bool) (line : Json)
  | assistant (uuid : String) (line : Json)
  | summary (summary leafUuid : String) (line : Json)
  | system (uuid : String) (line : Json)

/-- `RawJSONLinesSchema`. -/
def rawJSONLinesSchema (raw : Json) : Option RawJSONLines :=
  match typeOf raw with
  | some "user" => do
    let isSidechain ← Schema.optional Schema.boolean (raw.field? "isSidechain")
    let isMeta ← Schema.optional Schema.boolean (raw.field? "isMeta")
    return .user (← Schema.string (raw.field? "uuid")) isSidechain isMeta raw
  | some "assistant" => return .assistant (← Schema.string (raw.field? "uuid")) raw
  | some "summary" => do
    let summary ← Schema.string (raw.field? "summary")
    return .summary summary (← Schema.string (raw.field? "leafUuid")) raw
  | some "system" => return .system (← Schema.string (raw.field? "uuid")) raw
  | _ => none

/-- `INTERNAL_CLAUDE_EVENT_TYPES`. -/
def internalClaudeEventTypes : List String := ["file-history-snapshot", "change", "queue-operation"]

/-- `messageKey`. -/
def messageKey : RawJSONLines → String
  | .user uuid _ _ _ | .assistant uuid _ | .system uuid _ => uuid
  | .summary summary leafUuid _ => "summary:" ++ leafUuid ++ ":" ++ summary

/-- An entry of a transcript and its key. -/
structure Entry where
  key : String
  message : RawJSONLines

/-- The entry of a line, where the line is not blank, is JSON, is not internal and has a
known shape. -/
def lineEntry (line : List Char) : Option Entry :=
  if Text.trim line = [] then none
  else (Json.parse line).bind fun raw =>
    if (typeOf raw).any (· ∈ internalClaudeEventTypes) then none
    else (rawJSONLinesSchema raw).map fun message => ⟨messageKey message, message⟩

/-- `readSessionEntries`, of the bytes that are read. -/
def readSessionEntries (contents : List UInt8) : List Entry :=
  ((Utf8.decode contents).splitOn '\n').filterMap lineEntry

/-! ## The lines of a prefix -/

/-- A line of a session's transcript as it is read: its place, its bytes so far, and whether a
line feed follows. -/
structure ReadLine where
  session : String
  number : Nat
  text : List UInt8
  ended : Bool
deriving DecidableEq

/-- The entry of a line as it is read. -/
def ReadLine.entry? (line : ReadLine) : Option Entry := lineEntry (Utf8.decode line.text)

/-- The texts of the lines that a line feed ends. -/
def endedTexts (contents : List UInt8) : List (List UInt8) := (contents.splitOn 10).dropLast

/-- The bytes after the last line feed. -/
def openText (contents : List UInt8) : List UInt8 :=
  (contents.splitOn 10).getLast (List.splitOn_ne_nil 10 contents)

/-- A line that a line feed ends. -/
def endedLine (session : String) (number : Nat) (text : List UInt8) : ReadLine :=
  ⟨session, number, text, true⟩

/-- Lines that line feeds end, numbered. -/
def endedLines (session : String) (texts : List (List UInt8)) : List ReadLine :=
  texts.mapIdx (endedLine session)

/-- The lines of the bytes that are read. No line feed follows the last one. -/
def linesOf (session : String) (contents : List UInt8) : List ReadLine :=
  endedLines session (endedTexts contents) ++
    [⟨session, (endedTexts contents).length, openText contents, false⟩]

/-- The entries that are read are the entries of the lines. -/
theorem read_session_entries (session : String) (contents : List UInt8) :
    readSessionEntries contents = (linesOf session contents).filterMap ReadLine.entry? := by
  have texts : (linesOf session contents).map ReadLine.text = contents.splitOn 10 := by
    have ended : (endedLines session (endedTexts contents)).map ReadLine.text =
        endedTexts contents := by
      apply List.ext_getElem
      · simp [endedLines]
      · intro number inside _
        simp [endedLines, endedLine]
    rw [linesOf, List.map_append, ended]
    exact List.dropLast_append_getLast (List.splitOn_ne_nil 10 contents)
  have cut : (Utf8.decode contents).splitOn '\n' = (contents.splitOn 10).map Utf8.decode :=
    Utf8.decode_split 10 (by decide) (by decide) contents
  rw [readSessionEntries, cut, ← texts, List.map_map, List.filterMap_map]
  rfl

/-- A line feed ends a line. -/
theorem ended_texts_cut {first : List UInt8} (inline : 10 ∉ first) (rest : List UInt8) :
    endedTexts (first ++ 10 :: rest) = first :: endedTexts rest := by
  rw [endedTexts, List.splitOn_append_cons_self_of_not_mem inline,
    List.dropLast_cons_of_ne_nil (List.splitOn_ne_nil 10 rest)]
  rfl

/-- Longer bytes have the same lines, and perhaps more. -/
theorem ended_texts_extend (contents more : List UInt8) :
    endedTexts contents <+: endedTexts (contents ++ more) := by
  by_cases feed : 10 ∈ contents
  · obtain ⟨first, rest, rfl, inline⟩ := List.eq_append_cons_of_mem feed
    rw [List.append_assoc, List.cons_append, ended_texts_cut inline, ended_texts_cut inline]
    exact (List.prefix_cons_inj first).mpr (ended_texts_extend rest more)
  · rw [endedTexts, List.splitOn_eq_singleton feed]
    exact List.nil_prefix
termination_by contents.length
decreasing_by subst_vars; simp only [List.length_append, List.length_cons]; omega

/-- The lines of a prefix that line feeds end are the first lines of the whole. -/
theorem ended_lines_extend (session : String) {contents whole : List UInt8}
    (read : contents <+: whole) :
    endedLines session (endedTexts contents) <+: endedLines session (endedTexts whole) := by
  obtain ⟨more, rfl⟩ := read
  obtain ⟨texts, shape⟩ := ended_texts_extend contents more
  rw [endedLines, endedLines, ← shape, List.mapIdx_append]
  exact List.prefix_append _ _

end Kvy.Cli.Claude
