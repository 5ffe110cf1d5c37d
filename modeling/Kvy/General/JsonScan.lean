import Kvy.General.JsonRoundTrip

/-!
# Scanning compact JSON text

A scan of a text follows its strings and its depth of brackets. The text of a value, read inside
some bracket, ends where it has started, outside of strings and at the same depth. Read from inside
a string it never ends outside of one, since its quotes come in pairs and every escape in it needs
a string around it. So the text of a value does not end in the middle of another one.
-/

namespace Kvy.General.Json

/-- Where a text is, with its depth: outside of strings, outside and right behind a colon, in a
string, in a string behind a backslash, or where no value's text can be. -/
inductive Scan where
  | outside (depth : Nat)
  | separator (depth : Nat)
  | inside (depth : Nat)
  | escaped (depth : Nat)
  | broken
deriving DecidableEq

namespace Scan

/-- Outside of strings, inside of at least one bracket: a character that is no colon. -/
def token (depth : Nat) (char : Char) : Scan :=
  if char = '"' then .inside (depth + 1)
  else if char = '\\' then .broken
  else if char = '\x7b' ∨ char = '[' then .outside (depth + 2)
  else if char = '\x7d' ∨ char = ']' then .outside depth
  else .outside (depth + 1)

/-- Where a text is after one more character. Nothing follows the outermost bracket. -/
def next : Scan → Char → Scan
  | .outside (depth + 1), char => if char = ':' then .separator (depth + 1) else token depth char
  | .separator (depth + 1), char => if char = ':' then .broken else token depth char
  | .inside depth, char =>
    if char = '"' then .outside depth else if char = '\\' then .escaped depth else .inside depth
  | .escaped depth, _ => .inside depth
  | .outside 0, _ | .separator 0, _ | .broken, _ => .broken

/-- Outside of strings. -/
def Out : Scan → Prop
  | .outside _ | .separator _ | .broken => True
  | .inside _ | .escaped _ => False

/-- Inside of a string, or where no value's text can be. -/
def In : Scan → Prop
  | .inside _ | .broken => True
  | .outside _ | .separator _ | .escaped _ => False

end Scan

/-- Where a text ends. -/
def scan (state : Scan) (text : List Char) : Scan := text.foldl Scan.next state

@[simp] theorem scan_nil (state : Scan) : scan state [] = state := rfl

@[simp] theorem scan_cons (state : Scan) (char : Char) (text : List Char) :
    scan state (char :: text) = scan (state.next char) text := rfl

@[simp] theorem scan_append (state : Scan) (first second : List Char) :
    scan state (first ++ second) = scan (scan state first) second := List.foldl_append

@[simp] theorem scan_broken (text : List Char) : scan .broken text = .broken := by
  induction text with
  | nil => rfl
  | cons char text inductionHypothesis => exact inductionHypothesis

/-- A text that ends outside of strings and as deep as it starts, also behind a colon. -/
structure Whole (text : List Char) : Prop where
  outside : ∀ depth, scan (.outside (depth + 1)) text = .outside (depth + 1)
  separator : ∀ depth, scan (.separator (depth + 1)) text = .outside (depth + 1)

/-- A text that does not end the string it starts in. -/
def Crossed (text : List Char) : Prop := ∀ depth, (scan (.inside depth) text).In

/-- Crossed texts one after the other. -/
theorem Crossed.append {first second : List Char} (crossed : Crossed first)
    (next : Crossed second) : Crossed (first ++ second) := by
  intro depth
  rw [scan_append]
  have ends := crossed depth
  cases state : scan (.inside depth) first with
  | inside other => exact next other
  | broken =>
    rw [scan_broken]
    trivial
  | outside | separator | escaped =>
    rw [state] at ends
    exact ends.elim

/-! ## Characters without a meaning -/

/-- Neither a quote, a backslash, a colon nor a bracket. -/
def ordinary (char : Char) : Bool :=
  char ∉ ['"', '\\', ':', '\x7b', '\x7d', '[', ']']

/-- Characters without a meaning of their own. -/
def Plain (text : List Char) : Prop := ∀ char ∈ text, ordinary char = true

variable {text : List Char}

theorem plain_of_all (all : text.all ordinary = true) : Plain text :=
  List.all_eq_true.mp all

variable {char : Char}

theorem next_outside (plain : ordinary char = true) (depth : Nat) :
    (Scan.outside (depth + 1)).next char = .outside (depth + 1) := by
  simp_all [ordinary, Scan.next, Scan.token]

theorem next_separator (plain : ordinary char = true) (depth : Nat) :
    (Scan.separator (depth + 1)).next char = .outside (depth + 1) := by
  simp_all [ordinary, Scan.next, Scan.token]

theorem next_inside (quoted : char ≠ '"') (backslash : char ≠ '\\') (depth : Nat) :
    (Scan.inside depth).next char = .inside depth := by
  simp [Scan.next, quoted, backslash]

theorem Plain.inside (plain : Plain text) (depth : Nat) :
    scan (.inside depth) text = .inside depth := by
  induction text with
  | nil => rfl
  | cons char text inductionHypothesis =>
    obtain ⟨first, later⟩ := List.forall_mem_cons.mp plain
    have quoted : char ≠ '"' := by rintro rfl; exact absurd first (by decide)
    have backslash : char ≠ '\\' := by rintro rfl; exact absurd first (by decide)
    rw [scan_cons, next_inside quoted backslash, inductionHypothesis later]

theorem Plain.outside (plain : Plain text) (depth : Nat) :
    scan (.outside (depth + 1)) text = .outside (depth + 1) := by
  induction text with
  | nil => rfl
  | cons char text inductionHypothesis =>
    obtain ⟨first, later⟩ := List.forall_mem_cons.mp plain
    rw [scan_cons, next_outside first, inductionHypothesis later]

theorem Plain.crossed (plain : Plain text) : Crossed text := by
  intro depth
  rw [plain.inside depth]
  trivial

theorem Plain.whole (plain : Plain text) (visible : text ≠ []) : Whole text := by
  obtain ⟨char, rest, rfl⟩ := List.exists_cons_of_ne_nil visible
  obtain ⟨first, later⟩ := List.forall_mem_cons.mp plain
  refine ⟨plain.outside, fun depth => ?_⟩
  rw [scan_cons, next_separator first, Plain.outside later]

/-! ## Literals -/

/-- A quoted character is an escape or the character itself. -/
theorem quote_char_cases (char : Char) :
    (∃ escape rest, quoteChar char = '\\' :: escape :: rest ∧ Plain rest) ∨
      quoteChar char = [char] ∧ char ≠ '"' ∧ char ≠ '\\' := by
  have digit : ∀ value < 16, ordinary (hexDigit value) = true := by decide
  have nothing : Plain [] := fun _ member => absurd member List.not_mem_nil
  unfold quoteChar
  split_ifs with quoted backslash newline carriage tab backspace feed control
  · exact .inl ⟨_, _, rfl, nothing⟩
  · exact .inl ⟨_, _, rfl, nothing⟩
  · exact .inl ⟨_, _, rfl, nothing⟩
  · exact .inl ⟨_, _, rfl, nothing⟩
  · exact .inl ⟨_, _, rfl, nothing⟩
  · exact .inl ⟨_, _, rfl, nothing⟩
  · exact .inl ⟨_, _, rfl, nothing⟩
  · refine .inl ⟨_, _, rfl, ?_⟩
    simp only [Plain, List.forall_mem_cons, List.not_mem_nil, false_implies, implies_true, and_true]
    exact ⟨by decide, by decide, digit _ (by omega), digit _ (by omega)⟩
  · exact .inr ⟨rfl, quoted, backslash⟩

/-- The characters of a literal stay inside of it. -/
theorem scan_inside_chars (chars : List Char) (depth : Nat) :
    scan (.inside depth) (chars.flatMap quoteChar) = .inside depth := by
  induction chars with
  | nil => rfl
  | cons char chars inductionHypothesis =>
    have stays : scan (.inside depth) (quoteChar char) = .inside depth := by
      rcases quote_char_cases char with ⟨escape, rest, shape, plain⟩ | ⟨shape, quoted, backslash⟩
      · rw [shape]
        exact plain.inside depth
      · rw [shape, scan_cons, next_inside quoted backslash, scan_nil]
    rw [List.flatMap_cons, scan_append, stays, inductionHypothesis]

/-- Outside of strings, a token that opens none stays outside. -/
theorem token_out (quoted : char ≠ '"') (depth : Nat) :
    (Scan.token depth char).Out := by
  unfold Scan.token
  rw [if_neg quoted]
  split_ifs <;> trivial

/-- Outside of strings, the characters of a literal do not open one. -/
theorem scan_outside_chars (chars : List Char) {state : Scan} (out : state.Out) :
    (scan state (chars.flatMap quoteChar)).Out := by
  induction chars generalizing state with
  | nil => exact out
  | cons char chars inductionHypothesis =>
    rw [List.flatMap_cons, scan_append]
    refine inductionHypothesis ?_
    rcases quote_char_cases char with ⟨escape, rest, shape, _⟩ | ⟨shape, quoted, _⟩
    · have ends : state.next '\\' = .broken := by
        match state, out with
        | .outside 0, _ | .outside (_ + 1), _ | .separator 0, _ | .separator (_ + 1), _
        | .broken, _ => rfl
      rw [shape, scan_cons, ends, scan_broken]
      trivial
    · rw [shape, scan_cons, scan_nil]
      match state, out with
      | .outside 0, _ | .separator 0, _ | .broken, _ => trivial
      | .outside (depth + 1), _ =>
        simp only [Scan.next]
        split
        · trivial
        · exact token_out quoted depth
      | .separator (depth + 1), _ =>
        simp only [Scan.next]
        split
        · trivial
        · exact token_out quoted depth

theorem whole_quote (string : String) : Whole (quote string) := by
  have inside (depth : Nat) :
      scan (.inside depth) (string.toList.flatMap quoteChar ++ ['"']) = .outside depth := by
    rw [scan_append, scan_inside_chars]
    rfl
  exact ⟨fun depth => inside (depth + 1), fun depth => inside (depth + 1)⟩

theorem crossed_quote (string : String) : Crossed (quote string) := by
  intro depth
  have out := @scan_outside_chars string.toList (.outside depth) trivial
  have opened : scan (.inside depth) (quote string) =
      (scan (.outside depth) (string.toList.flatMap quoteChar)).next '"' := by
    simp only [quote, List.cons_append, scan_cons, scan_append, scan_nil]
    rfl
  rw [opened]
  match scan (.outside depth) (string.toList.flatMap quoteChar), out with
  | .outside 0, _ | .outside (_ + 1), _ | .separator 0, _ | .separator (_ + 1), _
  | .broken, _ => trivial

/-! ## Values -/

theorem plain_number (number : Decimal) : Plain number.text := by
  intro char member
  rcases number.text_chars char member with rfl | rfl | digit
  · decide
  · decide
  · have marks : ∀ mark ∈ ['"', '\\', ':', '\x7b', '\x7d', '[', ']'], mark.isDigit = false := by
      simp [Char.isDigit]
    refine decide_eq_true (fun member => ?_)
    rw [marks char member] at digit
    contradiction

mutual
/-- The text of a value is whole. -/
theorem whole_render (level : Nat) : ∀ value : Json, Whole (render 0 level value)
  | .null => (plain_of_all rfl).whole (List.cons_ne_nil _ _)
  | .bool true => (plain_of_all rfl).whole (List.cons_ne_nil _ _)
  | .bool false => (plain_of_all rfl).whole (List.cons_ne_nil _ _)
  | .num number => by
    obtain ⟨first, tail, shape, _⟩ := number.text_starts
    exact (plain_number number).whole (by simp [shape])
  | .str string => whole_quote string
  | .arr [] => ⟨fun _ => rfl, fun _ => rfl⟩
  | .arr (first :: rest) => by
    have ends (depth : Nat) : scan (.outside (depth + 2))
        (render 0 (level + 1) first ++ renderItems 0 level rest) = .outside (depth + 1) := by
      rw [scan_append, (whole_render (level + 1) first).outside, scan_items level rest]
    exact ⟨ends, ends⟩
  | .obj [] => ⟨fun _ => rfl, fun _ => rfl⟩
  | .obj ((key, value) :: rest) => by
    have ends (depth : Nat) : scan (.outside (depth + 2)) (quote key ++
        (':' :: (render 0 (level + 1) value ++ renderFields 0 level rest))) =
          .outside (depth + 1) := by
      rw [scan_append, (whole_quote key).outside, scan_cons, scan_append]
      exact (congrArg (scan · _) ((whole_render (level + 1) value).separator (depth + 1))).trans
        (scan_fields level rest (depth + 1))
    exact ⟨ends, ends⟩
theorem scan_items (level : Nat) : ∀ (items : List Json) (depth : Nat),
    scan (.outside (depth + 1)) (renderItems 0 level items) = .outside depth
  | [], _ => rfl
  | item :: rest, depth => by
    have ends : scan (.outside (depth + 1))
        (render 0 (level + 1) item ++ renderItems 0 level rest) = .outside depth := by
      rw [scan_append, (whole_render (level + 1) item).outside, scan_items level rest]
    exact ends
theorem scan_fields (level : Nat) : ∀ (fields : List (String × Json)) (depth : Nat),
    scan (.outside (depth + 1)) (renderFields 0 level fields) = .outside depth
  | [], _ => rfl
  | (key, value) :: rest, depth => by
    have ends : scan (.outside (depth + 1)) (quote key ++
        (':' :: (render 0 (level + 1) value ++ renderFields 0 level rest))) =
          .outside depth := by
      rw [scan_append, (whole_quote key).outside, scan_cons, scan_append]
      exact (congrArg (scan · _) ((whole_render (level + 1) value).separator depth)).trans
        (scan_fields level rest depth)
    exact ends
end

/-- A mark inside of a string is one of its characters. -/
theorem crossed_mark (char : Char) (quoted : char ≠ '"') (backslash : char ≠ '\\') :
    Crossed [char] := by
  intro depth
  rw [scan_cons, next_inside quoted backslash]
  trivial

mutual
/-- The text of a value does not end a string that is open before it. -/
theorem crossed_render (level : Nat) : ∀ value : Json, Crossed (render 0 level value)
  | .null => (plain_of_all rfl).crossed
  | .bool true => (plain_of_all rfl).crossed
  | .bool false => (plain_of_all rfl).crossed
  | .num number => (plain_number number).crossed
  | .str string => crossed_quote string
  | .arr [] => fun _ => trivial
  | .arr (first :: rest) =>
    (crossed_mark '[' (by decide) (by decide)).append
      ((crossed_render (level + 1) first).append (crossed_items level rest))
  | .obj [] => fun _ => trivial
  | .obj ((key, value) :: rest) =>
    (crossed_mark '\x7b' (by decide) (by decide)).append
      ((crossed_quote key).append ((crossed_mark ':' (by decide) (by decide)).append
        ((crossed_render (level + 1) value).append (crossed_fields level rest))))
theorem crossed_items (level : Nat) : ∀ items : List Json, Crossed (renderItems 0 level items)
  | [] => fun _ => trivial
  | item :: rest =>
    (crossed_mark ',' (by decide) (by decide)).append
      ((crossed_render (level + 1) item).append (crossed_items level rest))
theorem crossed_fields (level : Nat) :
    ∀ fields : List (String × Json), Crossed (renderFields 0 level fields)
  | [] => fun _ => trivial
  | (key, value) :: rest =>
    (crossed_mark ',' (by decide) (by decide)).append
      ((crossed_quote key).append ((crossed_mark ':' (by decide) (by decide)).append
        ((crossed_render (level + 1) value).append (crossed_fields level rest))))
end

/-- An object's text ends with its last bracket, behind what its first one opens. -/
theorem scan_object (level : Nat) (fields : List (String × Json)) :
    ∃ rest, render 0 level (.obj fields) = '\x7b' :: rest ∧
      scan (.outside 1) rest = .outside 0 := by
  rcases fields with _ | ⟨⟨key, value⟩, rest⟩
  · exact ⟨['\x7d'], rfl, rfl⟩
  · exact ⟨_, rfl, scan_fields level ((key, value) :: rest) 0⟩

end Kvy.General.Json
