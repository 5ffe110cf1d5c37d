import Mathlib.Data.List.Nodup

/-!
# Rows with a key

A list of rows whose key is a function of the row. The three updates are to replace
the row with a key or append it, to change the row with a key, and to remove it. Each
acts on the row found under every key as it does on a finite map, and keeps the keys
distinct.
-/

namespace Kvy.General.Keyed

universe u v
variable {α : Type u} {β : Type v} [DecidableEq β] (key : α → β)

/-- The first row with a key. -/
def find? (wanted : β) (rows : List α) : Option α := rows.find? (fun row => key row = wanted)

/-- Replace the first row with the key of the item, or append the item. -/
def upsert (item : α) : List α → List α
  | [] => [item]
  | row :: rows => if key row = key item then item :: rows else row :: upsert item rows

/-- Change the rows with a key. -/
def modify (wanted : β) (change : α → α) (rows : List α) : List α :=
  rows.map (fun row => if key row = wanted then change row else row)

/-- Remove the rows with a key. -/
def delete (wanted : β) (rows : List α) : List α := rows.filter (fun row => key row ≠ wanted)

@[simp] theorem find_nil (wanted : β) : find? key wanted [] = none := rfl

theorem find_cons (wanted : β) (row : α) (rows : List α) :
    find? key wanted (row :: rows) = if key row = wanted then some row else find? key wanted rows := by
  by_cases same : key row = wanted <;> simp [find?, same]

variable {rows : List α}

/-- A found row has the key. -/
theorem find_key {wanted : β} {row : α} (found : find? key wanted rows = some row) :
    key row = wanted := by
  simpa using List.find?_some found

/-- A row with its own key is found under it. -/
theorem find_member (distinct : (rows.map key).Nodup) {row : α} (member : row ∈ rows) :
    find? key (key row) rows = some row := by
  induction rows with
  | nil => exact absurd member List.not_mem_nil
  | cons first rows inductionHypothesis =>
    obtain ⟨unique, distinct⟩ := List.nodup_cons.mp distinct
    rw [find_cons]
    obtain rfl | later := List.mem_cons.mp member
    · rw [if_pos rfl]
    · have apart : key first ≠ key row := by
        intro same
        exact unique (same ▸ List.mem_map_of_mem later)
      rw [if_neg apart]
      exact inductionHypothesis distinct later

/-- What only the row of one key contributes to. -/
theorem filterMap_only {γ : Type*} (wanted : β) (part : α → Option γ)
    (distinct : (rows.map key).Nodup) (only : ∀ row ∈ rows, key row ≠ wanted → part row = none) :
    rows.filterMap part = ((find? key wanted rows).bind part).toList := by
  induction rows with
  | nil => rfl
  | cons first rows inductionHypothesis =>
    obtain ⟨unique, distinct⟩ := List.nodup_cons.mp distinct
    have later := inductionHypothesis distinct
      (fun row member => only row (List.mem_cons_of_mem first member))
    rw [find_cons, List.filterMap_cons]
    by_cases here : key first = wanted
    · have none_later : rows.filterMap part = [] := by
        rw [List.filterMap_eq_nil_iff]
        intro row member
        apply only row (List.mem_cons_of_mem first member)
        intro same
        exact unique (here.trans same.symm ▸ List.mem_map_of_mem member)
      rw [if_pos here, none_later]
      cases contributes : part first <;> simp [contributes]
    · rw [if_neg here, only first List.mem_cons_self here]
      exact later

@[simp] theorem find_upsert (wanted : β) (item : α) (rows : List α) :
    find? key wanted (upsert key item rows) =
      if wanted = key item then some item else find? key wanted rows := by
  induction rows with
  | nil => simp [upsert, find_cons, eq_comm]
  | cons row rows inductionHypothesis =>
    by_cases here : key row = key item
    · by_cases same : key item = wanted
      · simp [upsert, here, find_cons, same]
      · have other : wanted ≠ key item := fun equal => same equal.symm
        simp [upsert, here, find_cons, same, other]
    · by_cases same : key row = wanted
      · have other : wanted ≠ key item := fun equal => here (same.trans equal)
        simp [upsert, find_cons, same, other]
      · simp [upsert, here, find_cons, same, inductionHypothesis]

@[simp] theorem find_modify (wanted changed : β) (change : α → α)
    (keeps : ∀ row, key (change row) = key row) (rows : List α) :
    find? key wanted (modify key changed change rows) =
      if wanted = changed then (find? key wanted rows).map change else find? key wanted rows := by
  induction rows with
  | nil => simp [modify]
  | cons row rows inductionHypothesis =>
    have sameKey : key (if key row = changed then change row else row) = key row := by
      split
      · exact keeps row
      · rfl
    have tail : find? key wanted (modify key changed change (row :: rows)) =
        if key row = wanted then some (if key row = changed then change row else row)
        else find? key wanted (modify key changed change rows) := by
      simp only [modify, List.map_cons, find_cons, sameKey]
    rw [tail, inductionHypothesis]
    by_cases same : key row = wanted
    · subst same
      by_cases hit : key row = changed <;> simp [find_cons, hit]
    · simp [find_cons, same]

@[simp] theorem find_delete (wanted removed : β) (rows : List α) :
    find? key wanted (delete key removed rows) =
      if wanted = removed then none else find? key wanted rows := by
  induction rows with
  | nil => simp [delete]
  | cons row rows inductionHypothesis =>
    by_cases hit : key row = removed
    · have tail : delete key removed (row :: rows) = delete key removed rows := by
        simp [delete, hit]
      rw [tail, inductionHypothesis]
      by_cases same : wanted = removed
      · simp [same]
      · have other : key row ≠ wanted := fun equal => same (equal.symm.trans hit)
        simp [same, find_cons, other]
    · have tail : delete key removed (row :: rows) = row :: delete key removed rows := by
        simp [delete, hit]
      rw [tail, find_cons, find_cons, inductionHypothesis]
      by_cases same : key row = wanted
      · have other : wanted ≠ removed := fun equal => hit (same.trans equal)
        simp [same, other]
      · simp [same]

/-- Replacing keeps the keys and appending adds a new one. -/
theorem keys_upsert (item : α) (rows : List α) :
    (upsert key item rows).map key =
      if key item ∈ rows.map key then rows.map key else rows.map key ++ [key item] := by
  induction rows with
  | nil => rfl
  | cons row rows inductionHypothesis =>
    by_cases here : key row = key item
    · simp [upsert, here]
    · have other : key item ≠ key row := fun equal => here equal.symm
      simp only [upsert, here, ↓reduceIte, List.map_cons, inductionHypothesis, List.mem_cons, other,
        false_or]
      split <;> simp

theorem keys_modify (changed : β) (change : α → α) (keeps : ∀ row, key (change row) = key row)
    (rows : List α) : (modify key changed change rows).map key = rows.map key := by
  rw [modify, List.map_map]
  apply List.map_congr_left
  intro row _
  simp only [Function.comp_apply]
  split
  · exact keeps row
  · rfl

theorem nodup_upsert (item : α) (distinct : (rows.map key).Nodup) :
    ((upsert key item rows).map key).Nodup := by
  rw [keys_upsert]
  split
  · exact distinct
  · rename_i absent
    apply List.nodup_append.mpr
    refine ⟨distinct, by simp, ?_⟩
    intro held member new isKey same
    exact absent (List.mem_singleton.mp isKey ▸ same ▸ member)

theorem nodup_modify (changed : β) (change : α → α) (keeps : ∀ row, key (change row) = key row)
    (distinct : (rows.map key).Nodup) :
    ((modify key changed change rows).map key).Nodup := by
  rw [keys_modify key changed change keeps]
  exact distinct

theorem nodup_delete (removed : β) (distinct : (rows.map key).Nodup) :
    ((delete key removed rows).map key).Nodup :=
  (List.filter_sublist.map key).nodup distinct

/-! ## Rows seen through a function that keeps their keys -/

section Seen

variable {key} {see : α → α} (keeps : ∀ row, key (see row) = key row)
include keeps

theorem find_map (wanted : β) (rows : List α) :
    find? key wanted (rows.map see) = (find? key wanted rows).map see := by
  induction rows with
  | nil => rfl
  | cons row rows inductionHypothesis =>
    rw [List.map_cons, find_cons, find_cons, keeps, inductionHypothesis]
    split <;> rfl

theorem map_delete (removed : β) (rows : List α) :
    (delete key removed rows).map see = delete key removed (rows.map see) := by
  simp only [delete, List.filter_map, Function.comp_def, keeps]

theorem map_upsert (item : α) (rows : List α) :
    (upsert key item rows).map see = upsert key (see item) (rows.map see) := by
  induction rows with
  | nil => rfl
  | cons row rows inductionHypothesis =>
    simp only [upsert, List.map_cons, keeps]
    split
    · rfl
    · rw [List.map_cons, inductionHypothesis]

/-- A change that respects what is seen of a row respects what is seen of the rows. -/
theorem map_modify (changed : β) {change : α → α}
    (respects : ∀ row, see (change row) = see (change (see row))) (same : ∀ row, see (see row) = see row)
    (rows : List α) :
    (modify key changed change rows).map see =
      (modify key changed change (rows.map see)).map see := by
  simp only [modify, List.map_map]
  apply List.map_congr_left
  intro row _
  simp only [Function.comp_apply, keeps]
  split
  · exact respects row
  · exact (same row).symm

end Seen

end Kvy.General.Keyed
