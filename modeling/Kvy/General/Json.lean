import Kvy.General.Decimal
import Kvy.General.OrderedMap

/-!
# JSON values and JSON text

Values are trees of finite decimals, strings, arrays and field lists. Writing
follows the two layouts of a serializer with an indentation width: zero writes
compact text, a positive width puts each item on its own indented line. Reading
accepts any whitespace between tokens, every standard escape and duplicate keys,
the last of which wins in the place of the first.

Strings are sequences of Unicode scalar values. A pair of surrogate escapes
denotes one scalar; a lone surrogate escape has no scalar and is refused.
Property enumeration follows the written order of the fields.
-/

namespace Kvy.General

/-- A JSON value. -/
inductive Json where
  | null
  | bool (value : Bool)
  | num (number : Decimal)
  | str (string : String)
  | arr (items : List Json)
  | obj (fields : List (String × Json))

instance : Inhabited Json := ⟨.null⟩

namespace Json

mutual
/-- Every object inside the value has distinct keys. -/
def distinct : Json → Bool
  | .arr items => distinctItems items
  | .obj fields => decide (fields.map Prod.fst).Nodup && distinctFields fields
  | _ => true
def distinctItems : List Json → Bool
  | [] => true
  | item :: rest => item.distinct && distinctItems rest
def distinctFields : List (String × Json) → Bool
  | [] => true
  | (_, value) :: rest => value.distinct && distinctFields rest
end

/-- Distinctness of the fields' values, one field at a time. -/
theorem distinct_fields_iff (fields : List (String × Json)) :
    distinctFields fields = true ↔ ∀ field ∈ fields, field.2.distinct = true := by
  induction fields with
  | nil => simp [distinctFields]
  | cons field rest inductionHypothesis => simp [distinctFields, inductionHypothesis]

/-- The value of an object's own property; no other value has properties. -/
def field? (key : String) : Json → Option Json
  | .obj fields => fields.lookup key
  | _ => none

/-! ## Writing -/

/-- A hexadecimal digit in lower case. -/
def hexDigit (value : Nat) : Char := Nat.digitChar value

/-- A character inside a string literal. Only the quote, the backslash and
control characters are escaped. -/
def quoteChar (char : Char) : List Char :=
  if char = '"' then ['\\', '"']
  else if char = '\\' then ['\\', '\\']
  else if char = '\n' then ['\\', 'n']
  else if char = '\r' then ['\\', 'r']
  else if char = '\t' then ['\\', 't']
  else if char.toNat = 8 then ['\\', 'b']
  else if char.toNat = 12 then ['\\', 'f']
  else if char.toNat < 32 then
    ['\\', 'u', '0', '0', hexDigit (char.toNat / 16), hexDigit (char.toNat % 16)]
  else [char]

/-- A string literal. -/
def quote (string : String) : List Char :=
  '"' :: string.toList.flatMap quoteChar ++ ['"']

/-- The layout between items: nothing when compact, else a new indented line. -/
def lineBreak (space depth : Nat) : List Char :=
  if space = 0 then [] else '\n' :: List.replicate (space * depth) ' '

/-- The separator between a key and its value. -/
def colon (space : Nat) : List Char := if space = 0 then [':'] else [':', ' ']

mutual
/-- The text of a value at a nesting depth. -/
def render (space depth : Nat) : Json → List Char
  | .null => ['n', 'u', 'l', 'l']
  | .bool true => ['t', 'r', 'u', 'e']
  | .bool false => ['f', 'a', 'l', 's', 'e']
  | .num number => number.text
  | .str string => quote string
  | .arr [] => ['[', ']']
  | .arr (first :: rest) =>
    '[' :: (lineBreak space (depth + 1) ++ (render space (depth + 1) first ++
      renderItems space depth rest))
  | .obj [] => ['{', '}']
  | .obj ((key, value) :: rest) =>
    '{' :: (lineBreak space (depth + 1) ++ (quote key ++ (colon space ++
      (render space (depth + 1) value ++ renderFields space depth rest))))
/-- The items after the first one, with the closing bracket. -/
def renderItems (space depth : Nat) : List Json → List Char
  | [] => lineBreak space depth ++ [']']
  | item :: rest =>
    ',' :: (lineBreak space (depth + 1) ++ (render space (depth + 1) item ++
      renderItems space depth rest))
/-- The fields after the first one, with the closing brace. -/
def renderFields (space depth : Nat) : List (String × Json) → List Char
  | [] => lineBreak space depth ++ ['}']
  | (key, value) :: rest =>
    ',' :: (lineBreak space (depth + 1) ++ (quote key ++ (colon space ++
      (render space (depth + 1) value ++ renderFields space depth rest))))
end

/-- The JSON text of a value with the given indentation width. -/
def stringify (value : Json) (space : Nat) : List Char := render space 0 value

/-! ## Reading -/

/-- JSON whitespace. -/
def isSpace (char : Char) : Bool :=
  char = ' ' || char = '\n' || char = '\r' || char = '\t'

/-- Drop leading whitespace. -/
def skipSpace (text : List Char) : List Char := text.dropWhile isSpace

/-- The value of a hexadecimal digit in either case. -/
def hexValue (char : Char) : Option Nat :=
  if '0' ≤ char ∧ char ≤ '9' then some (char.toNat - '0'.toNat)
  else if 'a' ≤ char ∧ char ≤ 'f' then some (char.toNat - 'a'.toNat + 10)
  else if 'A' ≤ char ∧ char ≤ 'F' then some (char.toNat - 'A'.toNat + 10)
  else none

/-- The code unit of four hexadecimal digits. -/
def hexUnit (a b c d : Char) : Option Nat := do
  let a ← hexValue a
  let b ← hexValue b
  let c ← hexValue c
  let d ← hexValue d
  pure (((a * 16 + b) * 16 + c) * 16 + d)

/-- The code unit of a one-character escape. -/
def shortEscape (char : Char) : Option Nat :=
  if char = '"' ∨ char = '\\' ∨ char = '/' then some char.toNat
  else if char = 'b' then some 8
  else if char = 'f' then some 12
  else if char = 'n' then some 10
  else if char = 'r' then some 13
  else if char = 't' then some 9
  else none

/-- The code points and code units of a string literal after its opening quote,
up to the closing quote. Control characters must be escaped. -/
def readUnits : List Char → Option (List Nat × List Char)
  | [] => none
  | char :: rest =>
    if char = '"' then some ([], rest)
    else if char = '\\' then
      match rest with
      | 'u' :: a :: b :: c :: d :: tail => do
        let unit ← hexUnit a b c d
        let (units, after) ← readUnits tail
        pure (unit :: units, after)
      | escape :: tail => do
        let unit ← shortEscape escape
        let (units, after) ← readUnits tail
        pure (unit :: units, after)
      | [] => none
    else if char.toNat < 32 then none
    else do
      let (units, after) ← readUnits rest
      pure (char.toNat :: units, after)

/-- Join surrogate pairs into scalars; every other unit must be a scalar. -/
def joinUnits : List Nat → Option (List Char)
  | [] => some []
  | unit :: rest =>
    if unit.isValidChar then (joinUnits rest).map (Char.ofNat unit :: ·)
    else match rest with
      | low :: tail =>
        if 0xd800 ≤ unit ∧ unit < 0xdc00 ∧ 0xdc00 ≤ low ∧ low < 0xe000 then
          (joinUnits tail).map
            (Char.ofNat (0x10000 + (unit - 0xd800) * 0x400 + (low - 0xdc00)) :: ·)
        else none
      | [] => none

/-- A string literal after its opening quote. -/
def readString (text : List Char) : Option (String × List Char) := do
  let (units, rest) ← readUnits text
  let chars ← joinUnits units
  pure (String.ofList chars, rest)

/-- Consume a fixed word. -/
def readWord (word : List Char) (value : Json) (text : List Char) : Option (Json × List Char) :=
  if word.isPrefixOf text then some (value, text.drop word.length) else none

/-- The object of a sequence of written fields. A repeated key keeps its first
position and its last value. -/
def ofFields (fields : List (String × Json)) : List (String × Json) :=
  fields.foldl (fun object field => setEntry field.1 field.2 object) []

mutual
/-- A value at the front of a text. Each nested call consumes one fuel. -/
def readValue : Nat → List Char → Option (Json × List Char)
  | 0, _ => none
  | fuel + 1, text =>
    match skipSpace text with
    | [] => none
    | char :: rest =>
      if char = '"' then (readString rest).map (fun read => (.str read.1, read.2))
      else if char = '[' then
        match skipSpace rest with
        | ']' :: after => some (.arr [], after)
        | _ => do
          let (first, after) ← readValue fuel rest
          let (items, after) ← readItems fuel after
          pure (.arr (first :: items), after)
      else if char = '{' then
        match skipSpace rest with
        | '}' :: after => some (.obj [], after)
        | _ => do
          let (first, after) ← readField fuel rest
          let (fields, after) ← readFields fuel after
          pure (.obj (ofFields (first :: fields)), after)
      else if char = 'n' then readWord ['u', 'l', 'l'] .null rest
      else if char = 't' then readWord ['r', 'u', 'e'] (.bool true) rest
      else if char = 'f' then readWord ['a', 'l', 's', 'e'] (.bool false) rest
      else (Decimal.read (char :: rest)).map (fun read => (.num read.1, read.2))
/-- The items after one item, up to the closing bracket. -/
def readItems : Nat → List Char → Option (List Json × List Char)
  | 0, _ => none
  | fuel + 1, text =>
    match skipSpace text with
    | ']' :: after => some ([], after)
    | ',' :: after => do
      let (item, after) ← readValue fuel after
      let (items, after) ← readItems fuel after
      pure (item :: items, after)
    | _ => none
/-- One field: a key, a colon and a value. -/
def readField : Nat → List Char → Option ((String × Json) × List Char)
  | 0, _ => none
  | fuel + 1, text =>
    match skipSpace text with
    | '"' :: rest => do
      let (key, after) ← readString rest
      match skipSpace after with
      | ':' :: after => do
        let (value, after) ← readValue fuel after
        pure ((key, value), after)
      | _ => none
    | _ => none
/-- The fields after one field, up to the closing brace. -/
def readFields : Nat → List Char → Option (List (String × Json) × List Char)
  | 0, _ => none
  | fuel + 1, text =>
    match skipSpace text with
    | '}' :: after => some ([], after)
    | ',' :: after => do
      let (field, after) ← readField fuel after
      let (fields, after) ← readFields fuel after
      pure (field :: fields, after)
    | _ => none
end

/-- The value of a whole JSON text. Two units of fuel for each character bound
the nested calls of every value that the text can hold. -/
def parse (text : List Char) : Option Json := do
  let (value, rest) ← readValue (2 * text.length + 1) text
  if skipSpace rest = [] then some value else none

end Json
end Kvy.General
