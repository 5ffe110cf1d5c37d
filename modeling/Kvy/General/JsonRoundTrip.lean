import Kvy.General.Json

/-!
# Reading back written JSON

Written text is read back to the value it was written from, at every indentation
width and nesting depth, whenever each object has distinct keys. Values that come
from reading always have distinct keys, so they survive any number of rewrites.

The recursion follows the writer: each reading function is run on the text of the
value, the items after an item, or the fields after a field.
-/

namespace Kvy.General.Json

/-! ## Strings -/

theorem hex_value_digit : ∀ value < 16, hexValue (hexDigit value) = some value := by decide

/-- A one-character escape reads as its code unit. -/
theorem read_units_short (escape : Char) (unit : Nat) (rest : List Char)
    (short : shortEscape escape = some unit) :
    readUnits ('\\' :: escape :: rest) =
      (readUnits rest).map (fun read => (unit :: read.1, read.2)) := by
  have other : escape ≠ 'u' := by
    rintro rfl
    exact absurd short.symm (by simp [shortEscape])
  rw [readUnits]
  · simp only [Char.reduceEq, ↓reduceIte, short]
    cases readUnits rest <;> rfl
  · intro a b c d tail equal
    exact absurd equal other

/-- A two-digit control escape reads as its code unit. -/
theorem read_units_hex (unit : Nat) (small : unit < 32) (rest : List Char) :
    readUnits ('\\' :: 'u' :: '0' :: '0' :: hexDigit (unit / 16) :: hexDigit (unit % 16) :: rest) =
      (readUnits rest).map (fun read => (unit :: read.1, read.2)) := by
  have high := hex_value_digit (unit / 16) (by omega)
  have low := hex_value_digit (unit % 16) (by omega)
  have zero : hexValue '0' = some 0 := by decide
  have joined : ((0 * 16 + 0) * 16 + unit / 16) * 16 + unit % 16 = unit := by omega
  rw [readUnits]
  simp only [Char.reduceEq, ↓reduceIte, hexUnit, zero, high, low, Option.bind_eq_bind,
    Option.bind_some, Option.pure_def, joined]
  cases readUnits rest <;> rfl

/-- An ordinary character reads as its code point. -/
theorem read_units_plain (char : Char) (rest : List Char) (noQuote : char ≠ '"')
    (noEscape : char ≠ '\\') (printable : ¬ char.toNat < 32) :
    readUnits (char :: rest) =
      (readUnits rest).map (fun read => (char.toNat :: read.1, read.2)) := by
  rw [readUnits.eq_def]
  simp only [noQuote, noEscape, printable, ↓reduceIte]
  cases readUnits rest <;> rfl

/-- A quoted character reads back as its own code point. -/
theorem read_units_quote_char (char : Char) (rest : List Char) :
    readUnits (quoteChar char ++ rest) =
      (readUnits rest).map (fun read => (char.toNat :: read.1, read.2)) := by
  by_cases quote : char = '"'
  · subst quote
    exact read_units_short '"' _ rest rfl
  by_cases backslash : char = '\\'
  · subst backslash
    exact read_units_short '\\' _ rest rfl
  by_cases newline : char = '\n'
  · subst newline
    exact read_units_short 'n' _ rest rfl
  by_cases carriage : char = '\r'
  · subst carriage
    exact read_units_short 'r' _ rest rfl
  by_cases tab : char = '\t'
  · subst tab
    exact read_units_short 't' _ rest rfl
  by_cases backspace : char.toNat = 8
  · simpa [quoteChar, quote, backslash, newline, carriage, tab, backspace] using
      read_units_short 'b' 8 rest rfl
  by_cases feed : char.toNat = 12
  · simpa [quoteChar, quote, backslash, newline, carriage, tab, feed] using
      read_units_short 'f' 12 rest rfl
  by_cases control : char.toNat < 32
  · simpa [quoteChar, quote, backslash, newline, carriage, tab, backspace, feed, control] using
      read_units_hex char.toNat control rest
  · simpa [quoteChar, quote, backslash, newline, carriage, tab, backspace, feed, control] using
      read_units_plain char rest quote backslash control

/-- Quoted characters read back as their code points, up to the closing quote. -/
theorem read_units_quoted (chars rest : List Char) :
    readUnits (chars.flatMap quoteChar ++ '"' :: rest) = some (chars.map Char.toNat, rest) := by
  induction chars with
  | nil => simp [readUnits.eq_def]
  | cons char chars inductionHypothesis =>
    simp [List.flatMap_cons, List.append_assoc, read_units_quote_char, inductionHypothesis]

/-- Code points of characters join to the same characters. -/
theorem join_units_chars (chars : List Char) : joinUnits (chars.map Char.toNat) = some chars := by
  induction chars with
  | nil => rfl
  | cons char chars inductionHypothesis =>
    have scalar : char.toNat.isValidChar := char.valid
    rw [List.map_cons, joinUnits.eq_def]
    simp [scalar, inductionHypothesis]

/-- A string literal reads back to its string. -/
theorem read_string_quote (string : String) (rest : List Char) :
    readString (string.toList.flatMap quoteChar ++ '"' :: rest) = some (string, rest) := by
  simp [readString, read_units_quoted, join_units_chars]

/-! ## Layout -/

/-- A text whose first character is a token other than a closing bracket. -/
def Opens (text : List Char) : Prop :=
  ∃ char rest, text = char :: rest ∧ isSpace char = false ∧ char ≠ ']' ∧ char ≠ '}'

theorem skip_space_token (char : Char) (rest : List Char) (token : isSpace char = false) :
    skipSpace (char :: rest) = char :: rest := by
  simp [skipSpace, token]

/-- Layout between tokens is skipped. -/
theorem skip_space_break (space depth : Nat) (text : List Char) :
    skipSpace (lineBreak space depth ++ text) = skipSpace text := by
  have blank : ∀ char ∈ lineBreak space depth, isSpace char = true := by
    intro char member
    unfold lineBreak at member
    split at member
    · exact absurd member (by simp)
    · rcases List.mem_cons.mp member with rfl | spaces
      · decide
      · rw [List.eq_of_mem_replicate spaces]
        decide
  exact List.dropWhile_append_of_pos blank

theorem skip_space_open {text : List Char} (opens : Opens text) : skipSpace text = text := by
  obtain ⟨char, rest, rfl, token, _⟩ := opens
  exact skip_space_token char rest token

/-- Every value's text opens with a token. -/
theorem render_opens (space depth : Nat) (value : Json) (rest : List Char) :
    Opens (render space depth value ++ rest) := by
  cases value with
  | null => exact ⟨'n', _, rfl, by decide⟩
  | bool flag => cases flag <;> exact ⟨_, _, rfl, by decide⟩
  | num number =>
    obtain ⟨first, tail, shape, start⟩ := number.text_starts
    refine ⟨first, tail ++ rest, by simp [render, shape], ?_⟩
    have digit : first = '-' ∨ first.isDigit = true := start
    rcases digit with rfl | digit
    · decide
    · refine ⟨?_, ?_, ?_⟩
      · by_contra blank
        simp only [isSpace, Bool.not_eq_false, Bool.or_eq_true, decide_eq_true_eq] at blank
        rcases blank with ((rfl | rfl) | rfl) | rfl <;> exact absurd digit (by decide)
      · rintro rfl
        exact absurd digit (by decide)
      · rintro rfl
        exact absurd digit (by decide)
  | str string => exact ⟨'"', _, rfl, by decide⟩
  | arr items => cases items <;> exact ⟨'[', _, rfl, by decide⟩
  | obj fields =>
    rcases fields with _ | ⟨⟨key, value⟩, fields⟩ <;> exact ⟨'{', _, rfl, by decide⟩

/-- A printed number ends at layout, a separator or a closing bracket. -/
theorem ends_layout (space depth : Nat) (char : Char) (rest : List Char)
    (closing : char = ']' ∨ char = '}' ∨ char = ',') :
    Decimal.Ends (lineBreak space depth ++ char :: rest) := by
  intro first member
  unfold lineBreak at member
  split at member
  · have same : first = char := by simpa [eq_comm] using member
    subst same
    rcases closing with rfl | rfl | rfl <;> decide
  · have same : first = '\n' := by simpa [eq_comm] using member
    subst same
    decide

theorem ends_items (space depth : Nat) (items : List Json) (rest : List Char) :
    Decimal.Ends (renderItems space depth items ++ rest) := by
  cases items with
  | nil => simpa [renderItems] using ends_layout space depth ']' rest (Or.inl rfl)
  | cons item items =>
    intro first member
    have same : first = ',' := by simpa [renderItems, eq_comm] using member
    subst same
    decide

theorem ends_fields (space depth : Nat) (fields : List (String × Json)) (rest : List Char) :
    Decimal.Ends (renderFields space depth fields ++ rest) := by
  rcases fields with _ | ⟨⟨key, value⟩, fields⟩
  · simpa [renderFields] using ends_layout space depth '}' rest (Or.inr (Or.inl rfl))
  · intro first member
    have same : first = ',' := by simpa [renderFields, eq_comm] using member
    subst same
    decide

/-! ## Fuel -/

mutual
/-- Nested calls needed to read the text of a value. -/
def weight : Json → Nat
  | .arr (first :: rest) => 1 + weight first + weightItems rest
  | .obj ((_, value) :: rest) => 2 + weight value + weightFields rest
  | _ => 1
def weightItems : List Json → Nat
  | [] => 1
  | item :: rest => 1 + weight item + weightItems rest
def weightFields : List (String × Json) → Nat
  | [] => 1
  | (_, value) :: rest => 2 + weight value + weightFields rest
end

mutual
/-- Two units of fuel for each written character are enough. -/
theorem weight_bound (space depth : Nat) :
    ∀ value : Json, weight value ≤ 2 * (render space depth value).length
  | .null => by simp [weight, render]
  | .bool true => by simp [weight, render]
  | .bool false => by simp [weight, render]
  | .num number => by
    obtain ⟨first, tail, shape, _⟩ := number.text_starts
    simp only [weight, render, shape, List.length_cons]
    omega
  | .str string => by
    simp only [weight, render, quote, List.length_append, List.length_cons]
    omega
  | .arr [] => by simp [weight, render]
  | .arr (first :: rest) => by
    have head := weight_bound space (depth + 1) first
    have tail := weight_items_bound space depth rest
    simp only [weight, render, List.length_cons, List.length_append]
    omega
  | .obj [] => by simp [weight, render]
  | .obj ((key, value) :: rest) => by
    have head := weight_bound space (depth + 1) value
    have tail := weight_fields_bound space depth rest
    simp only [weight, render, List.length_cons, List.length_append]
    omega
theorem weight_items_bound (space depth : Nat) :
    ∀ items : List Json, weightItems items ≤ 2 * (renderItems space depth items).length
  | [] => by
    simp only [weightItems, renderItems, List.length_append, List.length_singleton]
    omega
  | item :: rest => by
    have head := weight_bound space (depth + 1) item
    have tail := weight_items_bound space depth rest
    simp only [weightItems, renderItems, List.length_cons, List.length_append]
    omega
theorem weight_fields_bound (space depth : Nat) :
    ∀ fields : List (String × Json),
      weightFields fields ≤ 2 * (renderFields space depth fields).length
  | [] => by
    simp only [weightFields, renderFields, List.length_append, List.length_singleton]
    omega
  | (key, value) :: rest => by
    have head := weight_bound space (depth + 1) value
    have tail := weight_fields_bound space depth rest
    simp only [weightFields, renderFields, List.length_cons, List.length_append]
    omega
end

/-! ## Values -/

/-- Fields with distinct keys are their own object. -/
theorem of_fields_distinct (fields : List (String × Json))
    (distinct : (fields.map Prod.fst).Nodup) : ofFields fields = fields := by
  have appended : ∀ built : List (String × Json),
      ((built ++ fields).map Prod.fst).Nodup →
      fields.foldl (fun object field => setEntry field.1 field.2 object) built =
        built ++ fields := by
    clear distinct
    induction fields with
    | nil => simp
    | cons field rest inductionHypothesis =>
      intro built distinct
      have fresh : field.1 ∉ built.map Prod.fst := by
        intro member
        rw [List.map_append, List.map_cons] at distinct
        exact (List.nodup_append.mp distinct).2.2 field.1 member field.1 (by simp) rfl
      have regrouped : built ++ field :: rest = built ++ [field] ++ rest := by simp
      rw [List.foldl_cons, set_entry_fresh _ _ _ fresh, regrouped]
      rw [regrouped] at distinct
      exact inductionHypothesis (built ++ [field]) distinct
  simpa [ofFields] using appended [] (by simpa using distinct)

/-- The colon and any layout after it lead to the value's text. -/
theorem read_colon (space fuel : Nat) (text : List Char) :
    ∃ after, skipSpace (colon space ++ text) = ':' :: after ∧
      readValue fuel after = readValue fuel text := by
  unfold colon
  split
  · exact ⟨text, by simp [skipSpace, isSpace], rfl⟩
  · refine ⟨' ' :: text, by simp [skipSpace, isSpace], ?_⟩
    cases fuel with
    | zero => rfl
    | succ fuel =>
      have skipped : skipSpace (' ' :: text) = skipSpace text := by simp [skipSpace, isSpace]
      simp only [readValue, skipped]

/-- Layout before a value is skipped. -/
theorem read_value_break (space depth fuel : Nat) (text : List Char) :
    readValue fuel (lineBreak space depth ++ text) = readValue fuel text := by
  cases fuel with
  | zero => rfl
  | succ fuel => simp only [readValue, skip_space_break]

/-- A field whose value reads back is read back with its key. -/
theorem read_field_text (space depth fuel : Nat) (key : String) (value : Json)
    (rest : List Char)
    (restored : readValue fuel (render space depth value ++ rest) = some (value, rest)) :
    readField (fuel + 1) (lineBreak space depth ++ (quote key ++ (colon space ++
      (render space depth value ++ rest)))) = some ((key, value), rest) := by
  obtain ⟨after, separated, same⟩ :=
    read_colon space fuel (render space depth value ++ rest)
  have opened : skipSpace (lineBreak space depth ++ (quote key ++ (colon space ++
      (render space depth value ++ rest)))) =
      '"' :: (key.toList.flatMap quoteChar ++ '"' :: (colon space ++
        (render space depth value ++ rest))) := by
    rw [skip_space_break]
    simp [quote, skipSpace, isSpace]
  simp only [readField, opened, read_string_quote, Option.bind_eq_bind, Option.bind_some,
    separated, same, restored, Option.pure_def]

mutual
/-- Reading the text of a value restores it and the untouched remainder. -/
theorem read_value_render (space : Nat) : ∀ (value : Json) (depth fuel : Nat) (rest : List Char),
    value.distinct = true → weight value ≤ fuel → Decimal.Ends rest →
      readValue fuel (render space depth value ++ rest) = some (value, rest)
  | value, depth, 0, rest, _, enough, _ => by
    exfalso
    cases value with
    | null | bool | num | str => simp [weight] at enough
    | arr items => cases items <;> simp [weight] at enough
    | obj fields => rcases fields with _ | ⟨⟨key, value⟩, fields⟩ <;> simp [weight] at enough
  | .null, depth, fuel + 1, rest, _, _, _ => by
    simp [readValue, render, skipSpace, isSpace, readWord]
  | .bool true, depth, fuel + 1, rest, _, _, _ => by
    simp [readValue, render, skipSpace, isSpace, readWord]
  | .bool false, depth, fuel + 1, rest, _, _, _ => by
    simp [readValue, render, skipSpace, isSpace, readWord]
  | .num number, depth, fuel + 1, rest, _, _, ends => by
    obtain ⟨char, tail, shape, token, _⟩ := render_opens space depth (.num number) rest
    obtain ⟨first, digits, printed, start⟩ := number.text_starts
    have same : char = first := by
      simp only [render, printed, List.cons_append] at shape
      exact (List.cons.inj shape).1.symm
    have notToken : char ≠ '"' ∧ char ≠ '[' ∧ char ≠ '{' ∧ char ≠ 'n' ∧ char ≠ 't' ∧ char ≠ 'f' := by
      rw [same]
      rcases start with rfl | digit
      · decide
      · refine ⟨?_, ?_, ?_, ?_, ?_, ?_⟩ <;>
          (rintro rfl; exact absurd digit (by decide))
    obtain ⟨quoted, bracket, brace, null, truth, falsity⟩ := notToken
    have restored := number.read_text rest ends
    simp only [render] at shape ⊢
    rw [shape] at restored ⊢
    simp only [readValue, skip_space_token char tail token, quoted, bracket, brace, null, truth,
      falsity, ↓reduceIte, restored, Option.map_some]
  | .str string, depth, fuel + 1, rest, _, _, _ => by
    simp [readValue, render, quote, skipSpace, isSpace, read_string_quote]
  | .arr [], depth, fuel + 1, rest, _, _, _ => by
    simp [readValue, render, skipSpace, isSpace]
  | .arr (first :: items), depth, fuel + 1, rest, distinct, enough, _ => by
    simp only [Json.distinct, distinctItems, Bool.and_eq_true] at distinct
    simp only [weight] at enough
    have opens := render_opens space (depth + 1) first (renderItems space depth items ++ rest)
    have head := read_value_render space first (depth + 1) fuel
      (renderItems space depth items ++ rest) distinct.1 (by omega)
      (ends_items space depth items rest)
    have tail := read_items_render space items depth fuel rest distinct.2 (by omega)
    have skipped : ∀ after, skipSpace (lineBreak space (depth + 1) ++
        (render space (depth + 1) first ++ (renderItems space depth items ++ rest))) ≠
        ']' :: after := by
      intro after closed
      rw [skip_space_break, skip_space_open opens] at closed
      obtain ⟨char, text, shape, _, other, _⟩ := opens
      rw [shape] at closed
      exact other (List.cons.inj closed).1
    simp only [render, List.cons_append, List.append_assoc]
    rw [readValue, skip_space_token '[' _ (by decide)]
    simp only [Char.reduceEq, ↓reduceIte]
    rw [read_value_break, head]
    simp [tail]
  | .obj [], depth, fuel + 1, rest, _, _, _ => by
    simp [readValue, render, skipSpace, isSpace]
  | .obj ((key, value) :: fields), depth, fuel + 1, rest, distinct, enough, _ => by
    simp only [Json.distinct, distinctFields, Bool.and_eq_true, decide_eq_true_eq] at distinct
    simp only [weight] at enough
    obtain ⟨inner, rfl⟩ : ∃ inner, fuel = inner + 1 := ⟨fuel - 1, by omega⟩
    have restored := read_value_render space value (depth + 1) inner
      (renderFields space depth fields ++ rest) distinct.2.1 (by omega)
      (ends_fields space depth fields rest)
    have head := read_field_text space (depth + 1) inner key value _ restored
    have tail := read_fields_render space fields depth (inner + 1) rest distinct.2.2 (by omega)
    have skipped : ∀ after, skipSpace (lineBreak space (depth + 1) ++ (quote key ++
        (colon space ++ (render space (depth + 1) value ++
          (renderFields space depth fields ++ rest))))) ≠ '}' :: after := by
      intro after closed
      rw [skip_space_break] at closed
      simp [quote, skipSpace, isSpace] at closed
    have object : ofFields ((key, value) :: fields) = (key, value) :: fields :=
      of_fields_distinct _ distinct.1
    simp only [render, List.cons_append, List.append_assoc]
    rw [readValue, skip_space_token '{' _ (by decide)]
    simp only [Char.reduceEq, ↓reduceIte]
    rw [head]
    simp [tail, object]
theorem read_items_render (space : Nat) : ∀ (items : List Json) (depth fuel : Nat)
    (rest : List Char), distinctItems items = true → weightItems items ≤ fuel →
      readItems fuel (renderItems space depth items ++ rest) = some (items, rest)
  | items, depth, 0, rest, _, enough => by
    exfalso
    cases items <;> simp [weightItems] at enough
  | [], depth, fuel + 1, rest, _, _ => by
    simp only [renderItems, List.append_assoc, readItems, skip_space_break]
    simp [skipSpace, isSpace]
  | item :: items, depth, fuel + 1, rest, distinct, enough => by
    simp only [distinctItems, Bool.and_eq_true] at distinct
    simp only [weightItems] at enough
    have head := read_value_render space item (depth + 1) fuel
      (renderItems space depth items ++ rest) distinct.1 (by omega)
      (ends_items space depth items rest)
    have tail := read_items_render space items depth fuel rest distinct.2 (by omega)
    simp only [renderItems, List.cons_append, List.append_assoc]
    rw [readItems, skip_space_token ',' _ (by decide)]
    simp [read_value_break, head, tail]
theorem read_fields_render (space : Nat) : ∀ (fields : List (String × Json)) (depth fuel : Nat)
    (rest : List Char), distinctFields fields = true → weightFields fields ≤ fuel →
      readFields fuel (renderFields space depth fields ++ rest) = some (fields, rest)
  | fields, depth, 0, rest, _, enough => by
    exfalso
    rcases fields with _ | ⟨⟨key, value⟩, fields⟩ <;> simp [weightFields] at enough
  | [], depth, fuel + 1, rest, _, _ => by
    simp only [renderFields, List.append_assoc, readFields, skip_space_break]
    simp [skipSpace, isSpace]
  | (key, value) :: fields, depth, fuel + 1, rest, distinct, enough => by
    simp only [distinctFields, Bool.and_eq_true] at distinct
    simp only [weightFields] at enough
    obtain ⟨inner, rfl⟩ : ∃ inner, fuel = inner + 1 := ⟨fuel - 1, by omega⟩
    have restored := read_value_render space value (depth + 1) inner
      (renderFields space depth fields ++ rest) distinct.1 (by omega)
      (ends_fields space depth fields rest)
    have head := read_field_text space (depth + 1) inner key value _ restored
    have tail := read_fields_render space fields depth (inner + 1) rest distinct.2 (by omega)
    simp only [renderFields, List.cons_append, List.append_assoc]
    rw [readFields, skip_space_token ',' _ (by decide)]
    simp [head, tail]
end

/-- Parsing the text of a value restores it, at every indentation width. -/
theorem parse_stringify (value : Json) (space : Nat) (distinct : value.distinct = true) :
    parse (value.stringify space) = some value := by
  have enough : weight value ≤ 2 * (value.stringify space).length + 1 :=
    Nat.le_succ_of_le (weight_bound space 0 value)
  have ends : Decimal.Ends [] := by simp [Decimal.Ends]
  have restored := read_value_render space value 0 _ [] distinct enough ends
  rw [List.append_nil] at restored
  have read : readValue (2 * (value.stringify space).length + 1) (value.stringify space) =
      some (value, []) := restored
  rw [parse, read]
  rfl

/-! ## Read values -/

/-- Setting fields one by one gives an object with distinct keys whose values all
come from the written fields or from the object built so far. -/
theorem of_fields_spec (fields : List (String × Json)) :
    ((ofFields fields).map Prod.fst).Nodup ∧
      ∀ field ∈ ofFields fields, ∃ written ∈ fields, written.2 = field.2 := by
  have built : ∀ object : OrderedMap String Json,
      (∀ field ∈ object.entries, ∃ written ∈ fields, written.2 = field.2) →
      ∀ rest : List (String × Json), (∀ field ∈ rest, field ∈ fields) →
      ((rest.foldl (fun object field => setEntry field.1 field.2 object)
          object.entries).map Prod.fst).Nodup ∧
        ∀ field ∈ rest.foldl (fun object field => setEntry field.1 field.2 object)
            object.entries, ∃ written ∈ fields, written.2 = field.2 := by
    intro object held rest
    induction rest generalizing object with
    | nil => exact fun _ => ⟨object.distinct, held⟩
    | cons field rest inductionHypothesis =>
      intro inside
      refine inductionHypothesis (object.set field.1 field.2) ?_
        (fun other member => inside other (List.mem_cons_of_mem _ member))
      intro stored member
      have found := (OrderedMap.mem_entries _ stored.1 stored.2).mp member
      rw [OrderedMap.get_set] at found
      split at found
      · exact ⟨field, inside field (by simp), Option.some.inj found⟩
      · exact held stored ((object.mem_entries stored.1 stored.2).mpr found)
  exact built OrderedMap.empty (by simp [OrderedMap.empty]) fields (fun _ member => member)

/-- An object built from values with distinct keys has distinct keys. -/
theorem of_fields_object (fields : List (String × Json))
    (values : ∀ field ∈ fields, field.2.distinct = true) :
    (Json.obj (ofFields fields)).distinct = true := by
  obtain ⟨keys, stored⟩ := of_fields_spec fields
  simp only [Json.distinct, Bool.and_eq_true, decide_eq_true_eq, distinct_fields_iff]
  refine ⟨keys, ?_⟩
  intro field member
  obtain ⟨written, source, same⟩ := stored field member
  exact same ▸ values written source

/-- What one amount of fuel reads has distinct keys: a value, the items after an
item, a field, and the fields after a field. -/
def ReadsDistinct (fuel : Nat) : Prop :=
  (∀ text value rest, readValue fuel text = some (value, rest) → value.distinct = true) ∧
  (∀ text items rest, readItems fuel text = some (items, rest) → distinctItems items = true) ∧
  (∀ text field rest, readField fuel text = some (field, rest) → field.2.distinct = true) ∧
  (∀ text fields rest, readFields fuel text = some (fields, rest) → distinctFields fields = true)

/-- A word reads as a value without objects. -/
theorem read_word_value {word text rest : List Char} {expected value : Json}
    (read : readWord word expected text = some (value, rest)) : value = expected := by
  unfold readWord at read
  split at read
  · exact (Prod.mk.inj (Option.some.inj read)).1.symm
  · exact absurd read (by simp)

/-- Every amount of fuel reads values with distinct keys only. -/
theorem reads_distinct (fuel : Nat) : ReadsDistinct fuel := by
  induction fuel with
  | zero =>
    exact ⟨fun _ _ _ read => absurd read (by simp [readValue]),
      fun _ _ _ read => absurd read (by simp [readItems]),
      fun _ _ _ read => absurd read (by simp [readField]),
      fun _ _ _ read => absurd read (by simp [readFields])⟩
  | succ fuel inductionHypothesis =>
    obtain ⟨values, items, field, fields⟩ := inductionHypothesis
    refine ⟨?_, ?_, ?_, ?_⟩
    · intro text value rest read
      rw [readValue] at read
      split at read
      · exact absurd read (by simp)
      · split_ifs at read
        · obtain ⟨string, _, same⟩ := Option.map_eq_some_iff.mp read
          obtain ⟨rfl, _⟩ := Prod.mk.inj same
          rfl
        · split at read
          · obtain ⟨rfl, _⟩ := Prod.mk.inj (Option.some.inj read)
            rfl
          · simp only [Option.bind_eq_bind, Option.bind_eq_some_iff, Option.pure_def,
              Option.some.injEq, Prod.mk.injEq, Prod.exists] at read
            obtain ⟨first, after, head, others, last, tail, rfl, _⟩ := read
            simp [Json.distinct, distinctItems, values _ _ _ head, items _ _ _ tail]
        · split at read
          · obtain ⟨rfl, _⟩ := Prod.mk.inj (Option.some.inj read)
            rfl
          · simp only [Option.bind_eq_bind, Option.bind_eq_some_iff, Option.pure_def,
              Option.some.injEq, Prod.mk.injEq, Prod.exists] at read
            obtain ⟨key, first, after, head, others, last, tail, rfl, _⟩ := read
            apply of_fields_object
            intro written member
            rcases List.mem_cons.mp member with rfl | member
            · exact field _ _ _ head
            · exact (distinct_fields_iff others).mp (fields _ _ _ tail) written member
        · rw [read_word_value read]
          rfl
        · rw [read_word_value read]
          rfl
        · rw [read_word_value read]
          rfl
        · obtain ⟨number, _, same⟩ := Option.map_eq_some_iff.mp read
          obtain ⟨rfl, _⟩ := Prod.mk.inj same
          rfl
    · intro text read rest result
      rw [readItems] at result
      split at result
      · obtain ⟨rfl, _⟩ := Prod.mk.inj (Option.some.inj result)
        rfl
      · simp only [Option.bind_eq_bind, Option.bind_eq_some_iff, Option.pure_def,
          Option.some.injEq, Prod.mk.injEq, Prod.exists] at result
        obtain ⟨item, after, head, others, last, tail, rfl, _⟩ := result
        simp [distinctItems, values _ _ _ head, items _ _ _ tail]
      · exact absurd result (by simp)
    · intro text read rest result
      rw [readField] at result
      split at result
      · simp only [Option.bind_eq_bind, Option.bind_eq_some_iff, Prod.exists] at result
        obtain ⟨key, after, _, result⟩ := result
        split at result
        · simp only [Option.bind_eq_some_iff, Option.pure_def, Option.some.injEq,
            Prod.mk.injEq, Prod.exists] at result
          obtain ⟨value, last, head, rfl, _⟩ := result
          exact values _ _ _ head
        · exact absurd result (by simp)
      · exact absurd result (by simp)
    · intro text read rest result
      rw [readFields] at result
      split at result
      · obtain ⟨rfl, _⟩ := Prod.mk.inj (Option.some.inj result)
        rfl
      · simp only [Option.bind_eq_bind, Option.bind_eq_some_iff, Option.pure_def,
          Option.some.injEq, Prod.mk.injEq, Prod.exists] at result
        obtain ⟨key, value, after, head, others, last, tail, rfl, _⟩ := result
        have first : value.distinct = true := field _ _ _ head
        simp [distinctFields, first, fields _ _ _ tail]
      · exact absurd result (by simp)

/-- Parsed objects have distinct keys. -/
theorem parse_distinct {text : List Char} {value : Json} (parsed : parse text = some value) :
    value.distinct = true := by
  simp only [parse, Option.bind_eq_bind, Option.bind_eq_some_iff, Prod.exists] at parsed
  obtain ⟨read, rest, found, kept⟩ := parsed
  obtain ⟨_, same⟩ := Option.ite_none_right_eq_some.mp kept
  cases same
  exact (reads_distinct _).1 text _ rest found

end Kvy.General.Json
