import Mathlib.Data.List.Nodup
import Mathlib.Data.List.Lookmap

/-!
# Insertion-ordered finite maps

Entries are kept in the order in which their keys were first set; setting an
existing key replaces its value in place. Distinct keys are part of the
structure, so lookup and membership agree for every map that can be built.
-/

namespace Kvy.General

universe u v w
variable {α : Type u} {β : Type v} {γ : Type w}

/-- Replace the value of a key in place, or append a new last entry. -/
def setEntry [DecidableEq α] (key : α) (value : β) : List (α × β) → List (α × β)
  | [] => [(key, value)]
  | (first, held) :: rest =>
    if first = key then (first, value) :: rest else (first, held) :: setEntry key value rest

/-- Setting appends an absent key and keeps the keys of a present one. -/
theorem keys_set_entry [DecidableEq α] (key : α) (value : β) (entries : List (α × β)) :
    (setEntry key value entries).map Prod.fst =
      if key ∈ entries.map Prod.fst then entries.map Prod.fst
      else entries.map Prod.fst ++ [key] := by
  induction entries with
  | nil => rfl
  | cons entry rest inductionHypothesis =>
    obtain ⟨first, held⟩ := entry
    by_cases same : first = key
    · simp [setEntry, same]
    · have different : key ≠ first := fun equal => same equal.symm
      simp only [setEntry, same, ↓reduceIte, List.map_cons, inductionHypothesis, List.mem_cons,
        different, false_or]
      split <;> simp

/-- Lookup compares keys by equality, first entry first. -/
theorem lookup_cons_if [DecidableEq α] (tested first : α) (held : β) (rest : List (α × β)) :
    ((first, held) :: rest).lookup tested =
      if tested = first then some held else rest.lookup tested := by
  by_cases same : tested = first
  · simp [same]
  · have test : (tested == first) = false := beq_eq_false_iff_ne.mpr same
    simp only [List.lookup_cons, test, same, ↓reduceIte]

theorem lookup_set_entry [DecidableEq α] (key tested : α) (value : β) (entries : List (α × β)) :
    (setEntry key value entries).lookup tested =
      if tested = key then some value else entries.lookup tested := by
  induction entries with
  | nil => simp only [setEntry, lookup_cons_if, List.lookup_nil]
  | cons entry rest inductionHypothesis =>
    obtain ⟨first, held⟩ := entry
    by_cases here : first = key
    · subst here
      by_cases same : tested = first <;> simp [setEntry, lookup_cons_if, same]
    · by_cases same : tested = first
      · subst same
        simp [setEntry, here]
      · simp only [setEntry, here, ↓reduceIte, lookup_cons_if, same, inductionHypothesis]

/-- Setting an absent key appends its entry. -/
theorem set_entry_fresh [DecidableEq α] (key : α) (value : β) (entries : List (α × β))
    (fresh : key ∉ entries.map Prod.fst) :
    setEntry key value entries = entries ++ [(key, value)] := by
  induction entries with
  | nil => rfl
  | cons entry rest inductionHypothesis =>
    obtain ⟨first, held⟩ := entry
    simp only [List.map_cons, List.mem_cons, not_or] at fresh
    have different : first ≠ key := fun equal => fresh.1 equal.symm
    simp [setEntry, different, inductionHypothesis fresh.2]

/-- A finite map with distinct keys in insertion order. -/
structure OrderedMap (α : Type u) (β : Type v) where
  entries : List (α × β)
  distinct : (entries.map Prod.fst).Nodup
deriving DecidableEq

namespace OrderedMap

/-- The map without entries. -/
def empty : OrderedMap α β := ⟨[], List.nodup_nil⟩

instance : Inhabited (OrderedMap α β) := ⟨empty⟩

/-- The keys in insertion order. -/
def keys (map : OrderedMap α β) : List α := map.entries.map Prod.fst

/-- The value held under a key. -/
def get? [DecidableEq α] (map : OrderedMap α β) (key : α) : Option β := map.entries.lookup key

/-- Whether a key is present. -/
def has [DecidableEq α] (map : OrderedMap α β) (key : α) : Bool := (map.get? key).isSome

/-- Set a key, in place when it is present and last when it is new. -/
def set [DecidableEq α] (map : OrderedMap α β) (key : α) (value : β) : OrderedMap α β where
  entries := setEntry key value map.entries
  distinct := by
    rw [keys_set_entry]
    split
    · exact map.distinct
    · exact List.nodup_append.mpr ⟨map.distinct, by simp, by
        intro held member new isKey same
        have isNew : new = key := by simpa using isKey
        exact ‹key ∉ _› (isNew ▸ same ▸ member)⟩

/-- Keep the entries that satisfy a test. -/
def filter (map : OrderedMap α β) (test : α → β → Bool) : OrderedMap α β where
  entries := map.entries.filter (fun entry => test entry.1 entry.2)
  distinct := (List.filter_sublist.map Prod.fst).nodup map.distinct

/-- Remove a key. -/
def delete [DecidableEq α] (map : OrderedMap α β) (key : α) : OrderedMap α β :=
  map.filter (fun held _ => held ≠ key)

@[simp] theorem get_empty [DecidableEq α] (key : α) : (empty : OrderedMap α β).get? key = none :=
  rfl

@[simp] theorem get_set [DecidableEq α] (map : OrderedMap α β) (key tested : α) (value : β) :
    (map.set key value).get? tested = if tested = key then some value else map.get? tested :=
  lookup_set_entry key tested value map.entries

/-- With distinct keys, an entry is listed exactly when lookup returns it. -/
theorem mem_entries [DecidableEq α] (map : OrderedMap α β) (key : α) (value : β) :
    (key, value) ∈ map.entries ↔ map.get? key = some value := by
  obtain ⟨entries, distinct⟩ := map
  simp only [get?]
  induction entries with
  | nil => simp
  | cons entry rest inductionHypothesis =>
    obtain ⟨first, held⟩ := entry
    simp only [List.map_cons, List.nodup_cons] at distinct
    by_cases same : key = first
    · subst same
      have absent : (key, value) ∉ rest :=
        fun member => distinct.1 (List.mem_map.mpr ⟨_, member, rfl⟩)
      simp [absent, eq_comm]
    · simp [lookup_cons_if, same, inductionHypothesis distinct.2]

theorem mem_keys [DecidableEq α] (map : OrderedMap α β) (key : α) :
    key ∈ map.keys ↔ ∃ value, map.get? key = some value := by
  simp only [keys, List.mem_map, Prod.exists, exists_and_right, exists_eq_right, mem_entries]

/-- A filtered map holds exactly the entries that pass the test. -/
@[simp] theorem get_filter [DecidableEq α] (map : OrderedMap α β) (test : α → β → Bool) (key : α) :
    (map.filter test).get? key = (map.get? key).filter (test key) := by
  ext value
  rw [← mem_entries]
  simp [filter, mem_entries, Option.filter_eq_some_iff]

@[simp] theorem get_delete [DecidableEq α] (map : OrderedMap α β) (key tested : α) :
    (map.delete key).get? tested = if tested = key then none else map.get? tested := by
  by_cases same : tested = key
  · cases held : map.get? key <;> simp [delete, same, held]
  · cases held : map.get? tested <;> simp [delete, same, held]

/-- The keys after one is set. -/
theorem has_set [DecidableEq α] (map : OrderedMap α β) (key : α) (value : β) :
    (map.set key value).has = fun tested => map.has tested || tested = key := by
  funext tested
  by_cases same : tested = key <;> simp [has, same]

/-- The keys after one is removed. -/
theorem has_delete [DecidableEq α] (map : OrderedMap α β) (key : α) :
    (map.delete key).has = fun tested => map.has tested && tested ≠ key := by
  funext tested
  by_cases same : tested = key <;> simp [has, same]

/-- Removing a key from a map of queues takes out the items of its queue. -/
theorem perm_delete [DecidableEq α] (map : OrderedMap α (List β)) (key : α) :
    ((map.get? key).getD [] ++ (map.delete key).entries.flatMap Prod.snd).Perm
      (map.entries.flatMap Prod.snd) := by
  obtain ⟨entries, distinct⟩ := map
  simp only [get?, delete, filter]
  induction entries with
  | nil => exact List.Perm.refl _
  | cons entry rest inductionHypothesis =>
    obtain ⟨first, queue⟩ := entry
    simp only [List.map_cons, List.nodup_cons] at distinct
    have tail := inductionHypothesis distinct.2
    by_cases same : key = first
    · subst same
      have absent : rest.lookup key = none := by
        apply List.lookup_eq_none_iff.mpr
        intro held member
        have differs : key ≠ held.1 :=
          fun equal => distinct.1 (equal ▸ List.mem_map_of_mem member)
        simpa using differs
      rw [absent] at tail
      simpa [lookup_cons_if] using tail.append_left queue
    · have kept : first ≠ key := Ne.symm same
      simp only [lookup_cons_if, same, ↓reduceIte, ne_eq, kept, not_false_eq_true, decide_true,
        List.filter_cons, List.flatMap_cons]
      exact (List.perm_append_comm_assoc _ _ _).trans (tail.append_left queue)

/-- Setting a key of a map of queues exchanges the items of its queue. -/
theorem perm_set [DecidableEq α] (map : OrderedMap α (List β)) (key : α) (put : List β) :
    ((map.get? key).getD [] ++ (map.set key put).entries.flatMap Prod.snd).Perm
      (put ++ map.entries.flatMap Prod.snd) := by
  obtain ⟨entries, distinct⟩ := map
  simp only [get?, set]
  clear distinct
  induction entries with
  | nil => simp [setEntry]
  | cons entry rest inductionHypothesis =>
    obtain ⟨first, queue⟩ := entry
    by_cases same : first = key
    · subst same
      simp only [setEntry, lookup_cons_if, ↓reduceIte, Option.getD_some, List.flatMap_cons]
      exact List.perm_append_comm_assoc _ _ _
    · have other : key ≠ first := Ne.symm same
      simp only [setEntry, lookup_cons_if, same, other, ↓reduceIte, List.flatMap_cons]
      exact (List.perm_append_comm_assoc _ _ _).trans
        ((inductionHypothesis.append_left queue).trans (List.perm_append_comm_assoc _ _ _))

/-- Where values name their own keys, the values of one key are what lookup returns. -/
theorem values_of_key [DecidableEq α] (map : OrderedMap α β) (keyOf : β → Option α)
    (named : ∀ key value, (key, value) ∈ map.entries → keyOf value = some key) (tested : α) :
    (map.entries.map Prod.snd).filter (fun value => keyOf value = some tested) =
      (map.get? tested).toList := by
  obtain ⟨entries, distinct⟩ := map
  simp only [get?]
  induction entries with
  | nil => rfl
  | cons entry rest inductionHypothesis =>
    obtain ⟨first, held⟩ := entry
    simp only [List.map_cons, List.nodup_cons] at distinct
    have tail := inductionHypothesis distinct.2
      (fun key value member => named key value (List.mem_cons_of_mem _ member))
    have own : keyOf held = some first := named first held List.mem_cons_self
    by_cases same : tested = first
    · subst same
      have absent : rest.lookup tested = none := by
        apply List.lookup_eq_none_iff.mpr
        intro other member
        have differs : tested ≠ other.1 :=
          fun equal => distinct.1 (equal ▸ List.mem_map_of_mem member)
        simpa using differs
      rw [absent] at tail
      simp [own, tail]
    · simp [lookup_cons_if, own, same, Ne.symm same, tail]

/-- The map with a function applied to its values. -/
def mapValues (map : OrderedMap α β) (f : β → γ) : OrderedMap α γ where
  entries := map.entries.map (fun entry => (entry.1, f entry.2))
  distinct := by
    rw [List.map_map]
    exact map.distinct

/-- A value is set before or after the function is applied. -/
theorem map_values_set [DecidableEq α] (map : OrderedMap α β) (f : β → γ) (key : α) (value : β) :
    (map.set key value).mapValues f = (map.mapValues f).set key (f value) := by
  obtain ⟨entries, distinct⟩ := map
  simp only [mapValues, set, mk.injEq]
  clear distinct
  induction entries with
  | nil => rfl
  | cons entry rest inductionHypothesis =>
    obtain ⟨first, held⟩ := entry
    by_cases same : first = key
    · simp [setEntry, same]
    · simp only [setEntry, same, ↓reduceIte, List.map_cons, inductionHypothesis]

/-- A test of the keys is made before or after the function is applied. -/
theorem map_values_filter (map : OrderedMap α β) (f : β → γ) (test : α → Bool) :
    (map.filter (fun key _ => test key)).mapValues f =
      (map.mapValues f).filter (fun key _ => test key) := by
  simp only [mapValues, filter, List.filter_map, mk.injEq]
  rfl

@[simp] theorem get_map_values [DecidableEq α] (map : OrderedMap α β) (f : β → γ) (key : α) :
    (map.mapValues f).get? key = (map.get? key).map f := by
  obtain ⟨entries, distinct⟩ := map
  simp only [get?, mapValues]
  clear distinct
  induction entries with
  | nil => rfl
  | cons entry rest inductionHypothesis =>
    obtain ⟨first, held⟩ := entry
    simp only [List.map_cons, lookup_cons_if, inductionHypothesis]
    split <;> rfl

end OrderedMap
end Kvy.General
