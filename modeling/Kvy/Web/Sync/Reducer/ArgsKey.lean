import Kvy.General.JsonScan
import Kvy.General.JsonSorted
import Kvy.Web.Sync.Reducer.Reduce

/-!
# Equal keys are equal requests

A key is a name, two colons and the text of the arguments. The name may hold colons itself. A text
of arguments has two colons in a row inside a string only, and what follows them there is no text
of its own: its quotes close what the string has opened. So a key is cut in one place only.
-/

namespace Kvy.Web.Sync

open General

/-! ## Where a key is cut -/

/-- Behind two colons a text is in a string or broken. -/
theorem behind_colons (state : Json.Scan) : ((state.next ':').next ':').In := by
  match state with
  | .outside 0 | .separator 0 | .broken | .outside (_ + 1) | .separator (_ + 1) | .inside _
  | .escaped _ => trivial

/-- Two colons before a whole text are not found further on, too. -/
theorem cut_once {first second shift : List Char} (whole : Json.Whole first)
    (crossed : Json.Crossed second)
    (same : ':' :: ':' :: first = shift ++ ':' :: ':' :: second) : shift = [] := by
  match shift with
  | [] => rfl
  | [char] =>
    obtain ⟨_, same⟩ := List.cons.inj same
    obtain ⟨_, rfl⟩ := List.cons.inj same
    have ends := whole.separator 0
    rw [Json.scan_cons] at ends
    exact absurd ((Json.scan_broken _).symm.trans ends) (by decide)
  | char :: other :: shift =>
    obtain ⟨_, same⟩ := List.cons.inj same
    obtain ⟨_, rfl⟩ := List.cons.inj same
    have ends : Json.scan (.outside 1) (shift ++ ':' :: ':' :: second) = .outside 1 :=
      whole.outside 0
    rw [Json.scan_append, Json.scan_cons, Json.scan_cons] at ends
    have behind := behind_colons (Json.scan (.outside 1) shift)
    cases state : ((Json.scan (.outside 1) shift).next ':').next ':' with
    | inside depth =>
      have crosses := crossed depth
      rw [state] at ends
      rw [ends] at crosses
      exact crosses.elim
    | broken =>
      rw [state, Json.scan_broken] at ends
      exact absurd ends (by decide)
    | outside | separator | escaped =>
      rw [state] at behind
      exact behind.elim

/-- Names and whole texts with two colons in between are told apart. -/
theorem join_injective {first second firstText secondText : List Char}
    (firstWhole : Json.Whole firstText) (secondWhole : Json.Whole secondText) (firstCrossed : Json.Crossed firstText)
    (secondCrossed : Json.Crossed secondText)
    (same : first ++ ':' :: ':' :: firstText = second ++ ':' :: ':' :: secondText) :
    first = second ∧ firstText = secondText := by
  rcases List.append_eq_append_iff.mp same with ⟨shift, rfl, rest⟩ | ⟨shift, rfl, rest⟩
  · obtain rfl := cut_once firstWhole secondCrossed rest
    simpa using rest
  · obtain rfl := cut_once secondWhole firstCrossed rest
    simpa [eq_comm] using rest

/-! ## The text of arguments -/

theorem intercalate_cons (first : List Char) (rest : List (List Char)) :
    List.intercalate [','] (first :: rest) = first ++ rest.flatMap (',' :: ·) := by
  induction rest generalizing first with
  | nil => simp [List.intercalate]
  | cons next rest inductionHypothesis =>
    have opened : List.intercalate [','] (first :: next :: rest) =
        first ++ ([','] ++ List.intercalate [','] (next :: rest)) := by
      simp [List.intercalate]
    rw [opened, inductionHypothesis]
    simp

/-- The items behind the first one. -/
theorem render_items_compact (depth : Nat) (items : List Json) :
    Json.renderItems 0 depth items =
      (items.map (Json.render 0 (depth + 1))).flatMap (',' :: ·) ++ [']'] := by
  induction items with
  | nil => rfl
  | cons item rest inductionHypothesis =>
    simp [Json.renderItems, Json.lineBreak, inductionHypothesis]

/-- A field of a compact object. -/
def fieldText (depth : Nat) (field : String × Json) : List Char :=
  Json.quote field.1 ++ [':'] ++ Json.render 0 depth field.2

/-- The fields behind the first one. -/
theorem render_fields_compact (depth : Nat) (fields : List (String × Json)) :
    Json.renderFields 0 depth fields =
      (fields.map (fieldText (depth + 1))).flatMap (',' :: ·) ++ ['\x7d'] := by
  induction fields with
  | nil => rfl
  | cons field rest inductionHypothesis =>
    simp [Json.renderFields, Json.lineBreak, Json.colon, fieldText, inductionHypothesis]

theorem render_array (depth : Nat) (items : List Json) :
    Json.render 0 depth (.arr items) =
      ['['] ++ List.intercalate [','] (items.map (Json.render 0 (depth + 1))) ++ [']'] := by
  cases items with
  | nil => rfl
  | cons first rest =>
    simp [Json.render, Json.lineBreak, intercalate_cons, render_items_compact]

theorem render_object (depth : Nat) (fields : List (String × Json)) :
    Json.render 0 depth (.obj fields) =
      ['\x7b'] ++ List.intercalate [','] (fields.map (fieldText (depth + 1))) ++ ['\x7d'] := by
  cases fields with
  | nil => rfl
  | cons first rest =>
    simp [Json.render, Json.lineBreak, Json.colon, fieldText, intercalate_cons,
      render_fields_compact]

mutual
/-- `stableStringify` writes the value with its fields sorted. -/
theorem stable_render (depth : Nat) :
    ∀ value : Json, stableStringify value = Json.render 0 depth value.sorted
  | .null => rfl
  | .bool true => rfl
  | .bool false => rfl
  | .num _ => rfl
  | .str _ => rfl
  | .arr items => by
    rw [stableStringify, Json.sorted, render_array, stable_items (depth + 1) items]
  | .obj fields => by
    rw [stableStringify, Json.sorted, render_object, stable_fields (depth + 1) fields]
    rw [sort_map (fun field : String × Json => codeUnits field.1) _
      (fun field : String × List Char => codeUnits field.1) (fun _ => rfl), List.map_map]
    rfl
theorem stable_items (depth : Nat) : ∀ items : List Json,
    stableItems items = (Json.sortedItems items).map (Json.render 0 depth)
  | [] => rfl
  | item :: rest => by
    rw [stableItems, Json.sortedItems, List.map_cons, stable_render depth item,
      stable_items depth rest]
theorem stable_fields (depth : Nat) : ∀ fields : List (String × Json),
    stableFields fields = (Json.sortedFields fields).map
      (fun field => (field.1, Json.render 0 depth field.2))
  | [] => rfl
  | (key, value) :: rest => by
    rw [stableFields, Json.sortedFields, List.map_cons, stable_render depth value,
      stable_fields depth rest]
end

/-- The arguments of a call: a value whose objects have distinct keys. -/
abbrev Args := {value : Json // value.distinct = true}

/-- Texts of arguments are equal exactly if the arguments are the same. -/
theorem stable_eq_iff (first second : Args) :
    stableStringify first.1 = stableStringify second.1 ↔ first.1.Same second.1 := by
  rw [stable_render 0, stable_render 0, ← Json.sorted_eq_iff first.1 second.1 first.2]
  constructor
  · intro same
    have read := Json.parse_stringify first.1.sorted 0 (Json.sorted_distinct _ first.2)
    rw [Json.stringify, same] at read
    exact Option.some.inj (read.symm.trans
      (Json.parse_stringify second.1.sorted 0 (Json.sorted_distinct _ second.2)))
  · exact congrArg (Json.render 0 0)

/-- No value has the text of an absent one. -/
theorem stable_ne_undefined (args : Args) : stableStringify args.1 ≠ "undefined".toList := by
  intro same
  have read := Json.parse_stringify args.1.sorted 0 (Json.sorted_distinct _ args.2)
  have unread : Json.parse "undefined".toList = none := rfl
  rw [Json.stringify, ← stable_render 0, same, unread] at read
  contradiction

/-- The text of arguments that may be absent. -/
def argsText (args : Option Args) : List Char :=
  (args.map Subtype.val).elim "undefined".toList stableStringify

theorem args_text_whole (args : Option Args) : Json.Whole (argsText args) := by
  cases args with
  | none => exact (Json.plain_of_all rfl).whole (List.cons_ne_nil _ _)
  | some args =>
    have whole := Json.whole_render 0 args.1.sorted
    rwa [← stable_render 0] at whole

theorem args_text_crossed (args : Option Args) : Json.Crossed (argsText args) := by
  cases args with
  | none => exact (Json.plain_of_all rfl).crossed
  | some args =>
    have crossed := Json.crossed_render 0 args.1.sorted
    rwa [← stable_render 0] at crossed

theorem args_text_eq_iff (first second : Option Args) :
    argsText first = argsText second ↔
      Option.Rel (fun args others : Args => args.1.Same others.1) first second := by
  cases first with
  | none =>
    cases second with
    | none => exact iff_of_true rfl .none
    | some second => exact iff_of_false (stable_ne_undefined second).symm nofun
  | some first =>
    cases second with
    | none => exact iff_of_false (stable_ne_undefined first) nofun
    | some second =>
      refine (stable_eq_iff first second).trans ⟨fun same => .some same, ?_⟩
      rintro ⟨same⟩
      exact same

/-- Keys are equal exactly if the names are equal and the arguments are the same up to the order of
fields. -/
theorem args_key_identifies (firstName secondName : String) (first second : Option Args) :
    canonicalArgsKey firstName (first.map Subtype.val) =
        canonicalArgsKey secondName (second.map Subtype.val) ↔
      firstName = secondName ∧
        Option.Rel (fun args others : Args => args.1.Same others.1) first second := by
  have key (name : String) (args : Option Args) :
      canonicalArgsKey name (args.map Subtype.val) = name.toList ++ ':' :: ':' :: argsText args := by
    simp [canonicalArgsKey, argsText]
  rw [key, key, ← args_text_eq_iff]
  constructor
  · intro same
    obtain ⟨names, texts⟩ := join_injective (args_text_whole first) (args_text_whole second)
      (args_text_crossed first) (args_text_crossed second) same
    exact ⟨String.toList_inj.mp names, texts⟩
  · rintro ⟨rfl, texts⟩
    rw [texts]

end Kvy.Web.Sync
