import Mathlib.Data.List.Induction
import Mathlib.Data.List.Nodup

/-!
# The first item with each key

Folding a list over a growing result keeps an item unless its key is already kept. What is
kept has one item for each key, in the order in which the keys first occur. A list that
brings no new key adds nothing, and what two lists keep is equal on any selection on which
they hold the same items with their keys first occurring in the same order.
-/

namespace Kvy.General

universe u v
variable {α : Type u} {κ : Type v} [DecidableEq κ] (key : α → κ)

/-- One item after those kept so far. -/
def keepNew (kept : List α) (item : α) : List α :=
  if key item ∈ kept.map key then kept else kept ++ [item]

/-- The first item with each key, in order. -/
def keepFirst (items : List α) : List α := items.foldl (keepNew key) []

/-- Where a key first occurs; the length of the list where it does not. -/
def firstAt (items : List α) (value : κ) : Nat := items.findIdx (fun item => key item = value)

theorem keepFirst_snoc (items : List α) (item : α) :
    keepFirst key (items ++ [item]) = keepNew key (keepFirst key items) item := by
  simp [keepFirst]

variable {key}

variable {item : α}

theorem keepNew_known {kept : List α} (known : key item ∈ kept.map key) :
    keepNew key kept item = kept := if_pos known

theorem keepNew_unknown {kept : List α} (unknown : key item ∉ kept.map key) :
    keepNew key kept item = kept ++ [item] := if_neg unknown

variable {value : κ}

theorem mem_keepNew_keys {kept : List α} :
    value ∈ (keepNew key kept item).map key ↔ value ∈ kept.map key ∨ value = key item := by
  by_cases known : key item ∈ kept.map key
  · rw [keepNew_known known]
    constructor
    · exact Or.inl
    · rintro (before | rfl)
      · exact before
      · exact known
  · rw [keepNew_unknown known]
    simp only [List.map_append, List.mem_append, List.map_cons, List.map_nil, List.mem_singleton]

variable {items : List α}

/-- The kept keys are the keys of the list. -/
theorem mem_keepFirst_keys :
    value ∈ (keepFirst key items).map key ↔ value ∈ items.map key := by
  induction items using List.reverseRecOn with
  | nil => rfl
  | append_singleton items item inductionHypothesis =>
    rw [keepFirst_snoc, mem_keepNew_keys, inductionHypothesis]
    simp only [List.map_append, List.mem_append, List.map_cons, List.map_nil, List.mem_singleton]

theorem keepFirst_known (known : key item ∈ items.map key) :
    keepFirst key (items ++ [item]) = keepFirst key items := by
  rw [keepFirst_snoc, keepNew_known (mem_keepFirst_keys.mpr known)]

theorem keepFirst_unknown (unknown : key item ∉ items.map key) :
    keepFirst key (items ++ [item]) = keepFirst key items ++ [item] := by
  rw [keepFirst_snoc, keepNew_unknown (fun kept => unknown (mem_keepFirst_keys.mp kept))]

/-- Only items of the list are kept. -/
theorem mem_of_mem_keepFirst (kept : item ∈ keepFirst key items) :
    item ∈ items := by
  induction items using List.reverseRecOn with
  | nil => exact kept
  | append_singleton items last inductionHypothesis =>
    by_cases known : key last ∈ items.map key
    · rw [keepFirst_known known] at kept
      exact List.mem_append_left _ (inductionHypothesis kept)
    · rw [keepFirst_unknown known] at kept
      rcases List.mem_append.mp kept with before | added
      · exact List.mem_append_left _ (inductionHypothesis before)
      · exact List.mem_append_right _ added

/-- The kept keys are distinct. -/
theorem keepFirst_nodup (items : List α) : ((keepFirst key items).map key).Nodup := by
  induction items using List.reverseRecOn with
  | nil => exact List.nodup_nil
  | append_singleton items item inductionHypothesis =>
    by_cases known : key item ∈ items.map key
    · rwa [keepFirst_known known]
    · rw [keepFirst_unknown known, List.map_append, List.nodup_append]
      refine ⟨inductionHypothesis, List.nodup_singleton _, ?_⟩
      rintro value kept other last rfl
      obtain rfl : value = key item := by simpa using last
      exact known (mem_keepFirst_keys.mp kept)

/-- Leaving out some keys leaves out the items kept for them. -/
theorem keepFirst_filter_key (chosen : κ → Bool) (items : List α) :
    keepFirst key (items.filter (fun item => chosen (key item))) =
      (keepFirst key items).filter (fun item => chosen (key item)) := by
  induction items using List.reverseRecOn with
  | nil => rfl
  | append_singleton items item inductionHypothesis =>
    rw [List.filter_append]
    cases kept : chosen (key item) with
    | false =>
      rw [List.filter_cons_of_neg (by simp [kept]), List.filter_nil, List.append_nil,
        inductionHypothesis]
      by_cases known : key item ∈ items.map key
      · rw [keepFirst_known known]
      · rw [keepFirst_unknown known, List.filter_append, List.filter_cons_of_neg (by simp [kept]),
          List.filter_nil, List.append_nil]
    | true =>
      rw [List.filter_cons_of_pos (by simp [kept]), List.filter_nil]
      by_cases known : key item ∈ items.map key
      · have selected : key item ∈ (items.filter (fun item => chosen (key item))).map key := by
          obtain ⟨other, member, same⟩ := List.mem_map.mp known
          refine List.mem_map.mpr ⟨other, List.mem_filter.mpr ⟨member, ?_⟩, same⟩
          rw [same]
          exact kept
        rw [keepFirst_known known, keepFirst_known selected, inductionHypothesis]
      · have unselected : key item ∉ (items.filter (fun item => chosen (key item))).map key :=
          fun member => known (List.Sublist.subset (List.filter_sublist.map key) member)
        rw [keepFirst_unknown known, keepFirst_unknown unselected, List.filter_append,
          List.filter_cons_of_pos (by simp [kept]), List.filter_nil, inductionHypothesis]

/-- A list with distinct keys is kept whole. -/
theorem keepFirst_distinct (distinct : (items.map key).Nodup) :
    keepFirst key items = items := by
  induction items using List.reverseRecOn with
  | nil => rfl
  | append_singleton items item inductionHypothesis =>
    rw [List.map_append, List.nodup_append] at distinct
    obtain ⟨before, _, apart⟩ := distinct
    have unknown : key item ∉ items.map key := by
      intro held
      exact apart _ held _ (by simp) rfl
    rw [keepFirst_unknown unknown, inductionHypothesis before]

/-- Items whose keys all occurred before add nothing. -/
theorem keepFirst_append_known {more : List α} (known : ∀ item ∈ more, key item ∈ items.map key) :
    keepFirst key (items ++ more) = keepFirst key items := by
  induction more using List.reverseRecOn with
  | nil => rw [List.append_nil]
  | append_singleton more item inductionHypothesis =>
    have held : key item ∈ (items ++ more).map key := by
      rw [List.map_append]
      exact List.mem_append_left _ (known item (by simp))
    rw [← List.append_assoc, keepFirst_known held]
    apply inductionHypothesis
    intro other member
    exact known other (List.mem_append_left _ member)

/-- Where items of one group come to the same key or to nothing, keeping one item of each group
first makes no difference. -/
theorem keepFirst_filterMap {β : Type u} {γ : Type v} [DecidableEq γ] (group : β → γ)
    (read : β → Option α)
    (same : ∀ first second, group first = group second →
      (read first).map key = (read second).map key) (items : List β) :
    keepFirst key ((keepFirst group items).filterMap read) = keepFirst key (items.filterMap read) := by
  induction items using List.reverseRecOn with
  | nil => rfl
  | append_singleton items item inductionHypothesis =>
    rw [List.filterMap_append, List.filterMap_cons, List.filterMap_nil]
    by_cases known : group item ∈ items.map group
    · rw [keepFirst_known known, inductionHypothesis]
      obtain ⟨other, member, grouped⟩ := List.mem_map.mp known
      cases found : read item with
      | none => rw [List.append_nil]
      | some result =>
        have keys := same other item grouped
        rw [found, Option.map_some] at keys
        obtain ⟨before, foundBefore, equal⟩ := Option.map_eq_some_iff.mp keys
        have held : key result ∈ (items.filterMap read).map key := by
          rw [← equal]
          exact List.mem_map_of_mem (List.mem_filterMap.mpr ⟨other, member, foundBefore⟩)
        rw [keepFirst_known held]
    · rw [keepFirst_unknown known, List.filterMap_append, List.filterMap_cons, List.filterMap_nil]
      cases read item with
      | none => rw [List.append_nil, List.append_nil, inductionHypothesis]
      | some result => rw [keepFirst_snoc, keepFirst_snoc, inductionHypothesis]

/-! ## The order of the kept items -/

theorem firstAt_lt :
    firstAt key items value < items.length ↔ value ∈ items.map key := by
  rw [firstAt, List.findIdx_lt_length]
  simp only [decide_eq_true_eq, List.mem_map]

/-- A later item does not change where a key first occurs. -/
theorem firstAt_snoc (held : value ∈ items.map key) :
    firstAt key (items ++ [item]) value = firstAt key items value := by
  have found : firstAt key items value < items.length := firstAt_lt.mpr held
  rw [firstAt] at found ⊢
  rw [List.findIdx_append, if_pos found, firstAt]

/-- Items are kept in the order of the first occurrences of their keys. -/
theorem keepFirst_ordered (items : List α) :
    (keepFirst key items).Pairwise
      (fun first second => firstAt key items (key first) < firstAt key items (key second)) := by
  induction items using List.reverseRecOn with
  | nil => exact List.Pairwise.nil
  | append_singleton items item inductionHypothesis =>
    have keeps : (keepFirst key items).Pairwise (fun first second =>
        firstAt key (items ++ [item]) (key first) < firstAt key (items ++ [item]) (key second)) := by
      apply inductionHypothesis.imp_of_mem
      intro first second firstKept secondKept before
      rwa [firstAt_snoc (List.mem_map_of_mem (mem_of_mem_keepFirst firstKept)),
        firstAt_snoc (List.mem_map_of_mem (mem_of_mem_keepFirst secondKept))]
    by_cases known : key item ∈ items.map key
    · rwa [keepFirst_known known]
    · rw [keepFirst_unknown known, List.pairwise_append]
      refine ⟨keeps, List.pairwise_singleton _ _, ?_⟩
      rintro first kept last added
      obtain rfl : last = item := List.mem_singleton.mp added
      have held : key first ∈ items.map key := List.mem_map_of_mem (mem_of_mem_keepFirst kept)
      have early : firstAt key items (key first) < items.length := firstAt_lt.mpr held
      have late : ¬ firstAt key items (key last) < items.length := fun found =>
        known (firstAt_lt.mp found)
      rw [firstAt_snoc held]
      have least : items.length ≤ firstAt key (items ++ [last]) (key last) := by
        rw [firstAt] at late ⊢
        rw [List.findIdx_append, if_neg late]
        exact Nat.le_add_left _ _
      omega

/-- Lists that hold the same selected items, first occurring in the same order, keep the same
selected items in the same order. -/
theorem keepFirst_filter_eq {first second : List α} (selected : α → Bool)
    (members : ∀ item, selected item → (item ∈ keepFirst key first ↔ item ∈ keepFirst key second))
    (order : ∀ item ∈ first, selected item → ∀ other ∈ first, selected other →
      firstAt key second (key item) < firstAt key second (key other) →
      firstAt key first (key item) < firstAt key first (key other)) :
    (keepFirst key first).filter selected = (keepFirst key second).filter selected := by
  have nodup (items : List α) : ((keepFirst key items).filter selected).Nodup :=
    (keepFirst_nodup items).of_map.filter _
  have perm : ((keepFirst key first).filter selected).Perm ((keepFirst key second).filter selected) := by
    apply (List.perm_ext_iff_of_nodup (nodup first) (nodup second)).mpr
    intro item
    rw [List.mem_filter, List.mem_filter]
    constructor
    · rintro ⟨kept, chosen⟩
      exact ⟨(members item chosen).mp kept, chosen⟩
    · rintro ⟨kept, chosen⟩
      exact ⟨(members item chosen).mpr kept, chosen⟩
  refine @List.Perm.eq_of_pairwise α
    (fun item other => firstAt key first (key item) < firstAt key first (key other)) _ _ ?_ ?_ ?_ perm
  · intro item other _ _ before after
    omega
  · exact (keepFirst_ordered first).filter _
  · apply ((keepFirst_ordered second).filter _).imp_of_mem
    intro item other itemKept otherKept before
    obtain ⟨itemMember, itemChosen⟩ := List.mem_filter.mp itemKept
    obtain ⟨otherMember, otherChosen⟩ := List.mem_filter.mp otherKept
    exact order item (mem_of_mem_keepFirst ((members item itemChosen).mpr itemMember)) itemChosen
      other (mem_of_mem_keepFirst ((members other otherChosen).mpr otherMember)) otherChosen before

end Kvy.General
