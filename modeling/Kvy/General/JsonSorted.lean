import Kvy.General.Text
import Kvy.General.JsonRoundTrip

/-!
# JSON values up to the order of their fields

Two values are the same when they differ in the order of the fields of objects only. Sorting the
fields of every object by their keys, unit by unit, gives one value for all that are the same.
-/

namespace Kvy.General.Json

mutual
/-- Equal up to the order of the fields of objects. -/
def Same : Json → Json → Prop
  | .arr items, other => ∃ others, other = .arr others ∧ SameItems items others
  | .obj fields, other =>
    ∃ others, other = .obj others ∧ fields.length = others.length ∧ SameFields fields others
  | value, other => value = other
/-- The items are the same one after the other. -/
def SameItems : List Json → List Json → Prop
  | [], others => others = []
  | item :: rest, others =>
    ∃ other later, others = other :: later ∧ Same item other ∧ SameItems rest later
/-- Every field is among the others. -/
def SameFields : List (String × Json) → List (String × Json) → Prop
  | [], _ => True
  | (key, value) :: rest, others =>
    (∃ other, (key, other) ∈ others ∧ Same value other) ∧ SameFields rest others
end

mutual
/-- The value with the fields of every object sorted by their keys. -/
def sorted : Json → Json
  | .arr items => .arr (sortedItems items)
  | .obj fields => .obj (sortBy (fun field => codeUnits field.1) (sortedFields fields))
  | value => value
def sortedItems : List Json → List Json
  | [] => []
  | item :: rest => sorted item :: sortedItems rest
def sortedFields : List (String × Json) → List (String × Json)
  | [] => []
  | (key, value) :: rest => (key, sorted value) :: sortedFields rest
end

theorem sorted_fields_eq (fields : List (String × Json)) :
    sortedFields fields = fields.map (fun field => (field.1, field.2.sorted)) := by
  induction fields with
  | nil => rfl
  | cons field rest inductionHypothesis => simp [sortedFields, inductionHypothesis]

@[simp] theorem sorted_fields_keys (fields : List (String × Json)) :
    (sortedFields fields).map Prod.fst = fields.map Prod.fst := by
  rw [sorted_fields_eq, List.map_map]
  rfl

theorem mem_sorted_fields (fields : List (String × Json)) (key : String) (value : Json) :
    (key, value) ∈ sortedFields fields ↔ ∃ held, (key, held) ∈ fields ∧ held.sorted = value := by
  rw [sorted_fields_eq]
  simp

mutual
/-- Sorting keeps keys distinct. -/
theorem sorted_distinct : ∀ value : Json, value.distinct = true → value.sorted.distinct = true
  | .null | .bool _ | .num _ | .str _ => fun distinct => distinct
  | .arr items => sorted_items_distinct items
  | .obj fields => by
    intro distinct
    obtain ⟨keys, values⟩ := Bool.and_eq_true_iff.mp distinct
    have sortedValues := sorted_fields_distinct fields values
    have perm := sort_perm (fun field : String × Json => codeUnits field.1) (sortedFields fields)
    refine Bool.and_eq_true_iff.mpr ⟨decide_eq_true ?_, ?_⟩
    · rw [(perm.map Prod.fst).nodup_iff, sorted_fields_keys]
      exact of_decide_eq_true keys
    · rw [distinct_fields_iff] at sortedValues ⊢
      exact fun field member => sortedValues field (perm.mem_iff.mp member)
theorem sorted_items_distinct :
    ∀ items : List Json, distinctItems items = true → distinctItems (sortedItems items) = true
  | [] => fun distinct => distinct
  | item :: rest => by
    intro distinct
    obtain ⟨first, later⟩ := Bool.and_eq_true_iff.mp distinct
    exact Bool.and_eq_true_iff.mpr
      ⟨sorted_distinct item first, sorted_items_distinct rest later⟩
theorem sorted_fields_distinct :
    ∀ fields : List (String × Json), distinctFields fields = true →
      distinctFields (sortedFields fields) = true
  | [] => fun distinct => distinct
  | (_, value) :: rest => by
    intro distinct
    obtain ⟨first, later⟩ := Bool.and_eq_true_iff.mp distinct
    exact Bool.and_eq_true_iff.mpr
      ⟨sorted_distinct value first, sorted_fields_distinct rest later⟩
end

/-- Fields with distinct keys sort alike exactly if they are as many and all among the others. -/
theorem sort_fields_iff {fields others : List (String × Json)}
    (distinct : (fields.map Prod.fst).Nodup) :
    sortBy (fun field => codeUnits field.1) fields =
        sortBy (fun field => codeUnits field.1) others ↔
      fields.length = others.length ∧ ∀ field ∈ fields, field ∈ others := by
  have keys : (fields.map (fun field => codeUnits field.1)).Nodup := by
    have mapped := distinct.map code_units_injective
    rwa [List.map_map] at mapped
  rw [sort_eq_iff_perm _ keys]
  constructor
  · intro perm
    exact ⟨perm.length_eq, fun field => perm.mem_iff.mp⟩
  · rintro ⟨count, among⟩
    exact (List.subperm_of_subset (List.Nodup.of_map _ distinct) among).perm_of_length_le count.ge

mutual
/-- Values with distinct keys sort alike exactly if they are the same. -/
theorem sorted_eq_iff : ∀ value other : Json, value.distinct = true →
    (value.sorted = other.sorted ↔ value.Same other)
  | .null, other | .bool _, other | .num _, other | .str _, other => by
    intro _
    cases other <;> simp [sorted, Same]
  | .arr items, other => by
    intro distinct
    have same := sorted_items_eq_iff items
    cases other with
    | arr others =>
      simp only [sorted, Same, arr.injEq, exists_eq_left']
      exact same others distinct
    | null | bool | num | str | obj => simp [sorted, Same]
  | .obj fields, other => by
    intro distinct
    obtain ⟨keys, values⟩ := Bool.and_eq_true_iff.mp distinct
    have among := sorted_fields_among fields
    cases other with
    | obj others =>
      have count : (sortedFields fields).length = (sortedFields others).length ↔
          fields.length = others.length := by
        simp [sorted_fields_eq]
      simp only [sorted, Same, obj.injEq, exists_eq_left']
      rw [sort_fields_iff (by simpa using of_decide_eq_true keys), count, among others values]
    | null | bool | num | str | arr => simp [sorted, Same]
theorem sorted_items_eq_iff : ∀ items others : List Json, distinctItems items = true →
    (sortedItems items = sortedItems others ↔ SameItems items others)
  | [], others => by
    intro _
    cases others <;> simp [sortedItems, SameItems]
  | item :: rest, others => by
    intro distinct
    obtain ⟨first, later⟩ := Bool.and_eq_true_iff.mp distinct
    cases others with
    | nil => simp [sortedItems, SameItems]
    | cons other others =>
      simp [sortedItems, SameItems, sorted_eq_iff item other first,
        sorted_items_eq_iff rest others later]
theorem sorted_fields_among : ∀ fields others : List (String × Json),
    distinctFields fields = true →
    ((∀ field ∈ sortedFields fields, field ∈ sortedFields others) ↔ SameFields fields others)
  | [], others => by simp [sortedFields, SameFields]
  | (key, value) :: rest, others => by
    intro distinct
    obtain ⟨first, later⟩ := Bool.and_eq_true_iff.mp distinct
    have head : (key, value.sorted) ∈ sortedFields others ↔
        ∃ other, (key, other) ∈ others ∧ value.Same other := by
      rw [mem_sorted_fields]
      refine exists_congr (fun other => and_congr_right (fun _ => ?_))
      rw [← sorted_eq_iff value other first, eq_comm]
    rw [sortedFields, List.forall_mem_cons, head, sorted_fields_among rest others later, SameFields]
end

end Kvy.General.Json
