import Mathlib.Data.List.Flatten
import Mathlib.Data.List.Sort

/-!
# Stable sorting by a key

Sorting by a key keeps the order of the items with each key. Two lists therefore sort
to the same list exactly when, for every key, they hold the same items with that key in
the same order. Sorting pairs of item and position by key and then position is the
same sort. Batches put together in the opposite order sort alike exactly when no key
occurs in two of them.
-/

namespace Kvy.General

universe u v
variable {α : Type u} {κ : Type v} [LinearOrder κ] (key : α → κ)

/-- Sort by a key, items with equal keys in their given order. -/
def sortBy (items : List α) : List α := items.insertionSort (fun first second => key first ≤ key second)

/-- Smaller key, or equal keys and a position that is no later. -/
def Precedes (first second : α × Nat) : Prop :=
  key first.1 < key second.1 ∨ (key first.1 = key second.1 ∧ first.2 ≤ second.2)

instance (first second : α × Nat) : Decidable (Precedes key first second) := by
  unfold Precedes
  infer_instance

/-- Sort by a key, ties broken by position. -/
def sortByIndexed (items : List α) : List α :=
  (items.zipIdx.insertionSort (Precedes key)).map Prod.fst

instance : Std.Total (Precedes (α := α) key) := ⟨by
  intro first second
  rcases lt_trichotomy (key first.1) (key second.1) with below | same | above
  · exact Or.inl (Or.inl below)
  · rcases Nat.le_total first.2 second.2 with earlier | later
    · exact Or.inl (Or.inr ⟨same, earlier⟩)
    · exact Or.inr (Or.inr ⟨same.symm, later⟩)
  · exact Or.inr (Or.inl above)⟩

instance : IsTrans (α × Nat) (Precedes key) := ⟨by
  rintro first second third (below | ⟨same, earlier⟩) (next | ⟨alike, later⟩)
  · exact Or.inl (below.trans next)
  · exact Or.inl (alike ▸ below)
  · exact Or.inl (same ▸ next)
  · exact Or.inr ⟨same.trans alike, earlier.trans later⟩⟩

instance totalOrder : Std.Total (fun first second : α => key first ≤ key second) :=
  ⟨fun first second => le_total (key first) (key second)⟩

instance transOrder : IsTrans α (fun first second => key first ≤ key second) :=
  ⟨fun _ _ _ => le_trans⟩

theorem sort_perm (items : List α) : (sortBy key items).Perm items := List.perm_insertionSort _ items

theorem sort_pairwise (items : List α) :
    (sortBy key items).Pairwise (fun first second => key first ≤ key second) :=
  List.pairwise_insertionSort _ items

/-- Sorting keeps the order of the items with one key. -/
theorem filter_sort (value : κ) (items : List α) :
    (sortBy key items).filter (fun item => key item = value) =
      items.filter (fun item => key item = value) := by
  have equal : (items.filter (fun item => key item = value)).Pairwise
      (fun first second => key first ≤ key second) := by
    apply List.pairwise_of_forall_mem_list
    intro first firstMember second secondMember
    have firstKey : key first = value := by simpa using (List.mem_filter.mp firstMember).2
    have secondKey : key second = value := by simpa using (List.mem_filter.mp secondMember).2
    rw [firstKey, secondKey]
  have kept := (List.sublist_insertionSort equal List.filter_sublist).filter
    (fun item => decide (key item = value))
  rw [List.filter_filter] at kept
  simp only [Bool.and_self] at kept
  exact (kept.eq_of_length ((sort_perm key items).filter _).length_eq.symm).symm

/-- Sorted lists that agree on every key are equal. -/
theorem sorted_ext {first second : List α}
    (firstSorted : first.Pairwise (fun left right => key left ≤ key right))
    (secondSorted : second.Pairwise (fun left right => key left ≤ key right))
    (agree : ∀ value, first.filter (fun item => key item = value) =
      second.filter (fun item => key item = value)) : first = second := by
  induction first generalizing second with
  | nil =>
    cases second with
    | nil => rfl
    | cons item rest =>
      have absent := agree (key item)
      simp at absent
  | cons item rest inductionHypothesis =>
    cases second with
    | nil =>
      have absent := agree (key item)
      simp at absent
    | cons other others =>
      obtain ⟨below, restSorted⟩ := List.pairwise_cons.mp firstSorted
      obtain ⟨otherBelow, othersSorted⟩ := List.pairwise_cons.mp secondSorted
      have itemMember : item ∈ other :: others := by
        have member : item ∈ (item :: rest).filter (fun held => key held = key item) := by simp
        rw [agree] at member
        exact (List.mem_filter.mp member).1
      have otherMember : other ∈ item :: rest := by
        have member : other ∈ (other :: others).filter (fun held => key held = key other) := by simp
        rw [← agree] at member
        exact (List.mem_filter.mp member).1
      have sameKey : key item = key other := by
        apply le_antisymm
        · rcases List.mem_cons.mp otherMember with same | later
          · rw [same]
          · exact below other later
        · rcases List.mem_cons.mp itemMember with same | later
          · rw [same]
          · exact otherBelow item later
      have heads := agree (key item)
      simp only [List.filter_cons, decide_true, sameKey, ↓reduceIte] at heads
      obtain ⟨rfl, _⟩ := List.cons.inj heads
      congr 1
      apply inductionHypothesis restSorted othersSorted
      intro value
      have tails := agree value
      simp only [List.filter_cons] at tails
      split at tails
      · exact (List.cons.inj tails).2
      · exact tails

/-- Two lists sort alike exactly when they agree on every key. -/
theorem sort_eq_iff (first second : List α) :
    sortBy key first = sortBy key second ↔
      ∀ value, first.filter (fun item => key item = value) =
        second.filter (fun item => key item = value) := by
  constructor
  · intro same value
    rw [← filter_sort key value first, same, filter_sort]
  · intro agree
    apply sorted_ext key (sort_pairwise key first) (sort_pairwise key second)
    intro value
    rw [filter_sort, filter_sort, agree]

/-- Lists of items with different keys sort alike exactly when one is the other in some order. -/
theorem sort_eq_iff_perm {first second : List α} (distinct : (first.map key).Nodup) :
    sortBy key first = sortBy key second ↔ first.Perm second := by
  constructor
  · intro same
    exact (sort_perm key first).symm.trans (same ▸ sort_perm key second)
  · intro perm
    refine List.Perm.eq_of_pairwise ?_ (sort_pairwise key first) (sort_pairwise key second)
      ((sort_perm key first).trans (perm.trans (sort_perm key second).symm))
    intro item other member otherMember below above
    have held := (sort_perm key first).mem_iff.mp member
    have otherHeld := perm.mem_iff.mpr ((sort_perm key second).mem_iff.mp otherMember)
    exact List.inj_on_of_nodup_map distinct held otherHeld (le_antisymm below above)

/-- Sorting after a map that keeps the keys. -/
theorem sort_map {β : Type v} (mapped : α → β) (other : β → κ)
    (keeps : ∀ item, other (mapped item) = key item) (items : List α) :
    sortBy other (items.map mapped) = (sortBy key items).map mapped := by
  refine (List.map_insertionSort _ _ mapped items ?_).symm
  intro first _ second _
  rw [keeps, keeps]

/-- A sorted list is left as it is. -/
theorem sort_sorted {items : List α}
    (sorted : items.Pairwise (fun first second => key first ≤ key second)) :
    sortBy key items = items :=
  sorted.insertionSort_eq

/-- Positions increase along a list. -/
theorem positions_increase (items : List α) (start : Nat) :
    (items.zipIdx start).Pairwise (fun first second => first.2 ≤ second.2) := by
  have positions : ((items.zipIdx start).map Prod.snd).Pairwise (· ≤ ·) := by
    rw [List.zipIdx_map_snd]
    exact (List.pairwise_lt_range' (s := start)).imp Nat.le_of_lt
  exact List.pairwise_map.mp positions

/-- Breaking ties by position is stability. -/
theorem sort_indexed (items : List α) : sortByIndexed key items = sortBy key items := by
  have stable : (sortBy (fun entry : α × Nat => key entry.1) items.zipIdx).Pairwise
      (Precedes key) := by
    rw [List.pairwise_iff_forall_sublist]
    intro first second pair
    have ordered : key first.1 ≤ key second.1 :=
      List.pairwise_iff_forall_sublist.mp
        (sort_pairwise (fun entry : α × Nat => key entry.1) items.zipIdx) pair
    rcases ordered.lt_or_eq with below | same
    · exact Or.inl below
    · have alike := pair.filter (fun entry => decide (key entry.1 = key second.1))
      rw [filter_sort] at alike
      simp only [List.filter_cons, same, decide_true, ↓reduceIte, List.filter_nil] at alike
      exact Or.inr ⟨same, List.pairwise_iff_forall_sublist.mp (positions_increase items 0)
        (alike.trans List.filter_sublist)⟩
  have pairs : items.zipIdx.insertionSort (Precedes key) =
      sortBy (fun entry : α × Nat => key entry.1) items.zipIdx := by
    refine List.Perm.eq_of_pairwise ?_ (List.pairwise_insertionSort _ _) stable
      ((List.perm_insertionSort _ _).trans (sort_perm _ _).symm)
    rintro first second firstMember secondMember (below | ⟨_, earlier⟩) (above | ⟨_, later⟩)
    · exact absurd (below.trans above) (lt_irrefl _)
    · exact absurd below (by simp_all)
    · exact absurd above (by simp_all)
    · have position : first.2 = second.2 := Nat.le_antisymm earlier later
      have firstEntry := List.mem_zipIdx_iff_getElem?.mp
        ((List.mem_insertionSort _).mp firstMember)
      have secondEntry := List.mem_zipIdx_iff_getElem?.mp
        ((sort_perm _ _).mem_iff.mp secondMember)
      rw [position, secondEntry] at firstEntry
      exact Prod.ext (Option.some.inj firstEntry).symm position
  rw [sortByIndexed, pairs, sortBy, List.map_insertionSort _ (fun first second => key first ≤ key second)
    Prod.fst _ (fun _ _ _ _ => Iff.rfl), List.zipIdx_map_fst]
  rfl

/-- Selecting and translating items that keep their keys commutes with sorting. -/
theorem filter_map_sort {β : Type*} (select : α → Option β) (keyOf : β → κ)
    (keeps : ∀ item result, select item = some result → keyOf result = key item) (items : List α) :
    (sortBy key items).filterMap select = sortBy keyOf (items.filterMap select) := by
  have filtered (value : κ) (given : List α) :
      (given.filterMap select).filter (fun result => keyOf result = value) =
        (given.filter (fun item => key item = value)).filterMap select := by
    induction given with
    | nil => simp
    | cons item rest inductionHypothesis =>
      cases chosen : select item with
      | none => by_cases same : key item = value <;> simp [chosen, same, inductionHypothesis]
      | some result =>
        have kept := keeps item result chosen
        by_cases same : key item = value <;> simp [chosen, kept, same, inductionHypothesis]
  apply sorted_ext keyOf _ (sort_pairwise keyOf _)
  · intro value
    rw [filter_sort, filtered, filter_sort, filtered]
  · apply List.Pairwise.filterMap select _ (sort_pairwise key items)
    intro first second ordered chosen firstChosen other otherChosen
    rw [keeps first chosen firstChosen, keeps second other otherChosen]
    exact ordered

/-- Selecting items commutes with sorting. -/
theorem filter_sort_by (test : α → Bool) (items : List α) :
    (sortBy key items).filter test = sortBy key (items.filter test) := by
  rw [← List.filterMap_eq_filter]
  refine filter_map_sort key (Option.guard test) key ?_ items
  intro item result selected
  rw [Option.guard_eq_some_iff] at selected
  exact selected.1 ▸ rfl

/-! ## Batches in the opposite order -/

/-- At most one of the batches has items. -/
def Lonely (batches : List (List α)) : Prop :=
  batches.Pairwise (fun earlier later => earlier = [] ∨ later = [])

theorem flatten_reverse_lonely {batches : List (List α)} (lonely : Lonely batches) :
    batches.reverse.flatten = batches.flatten := by
  induction batches with
  | nil => rfl
  | cons batch rest inductionHypothesis =>
    obtain ⟨alone, restLonely⟩ := List.pairwise_cons.mp lonely
    simp only [List.reverse_cons, List.flatten_append, List.flatten_cons, List.flatten_nil,
      List.append_nil, inductionHypothesis restLonely]
    by_cases absent : batch = []
    · simp [absent]
    · have empty : rest.flatten = [] := by
        apply List.flatten_eq_nil_iff.mpr
        intro other member
        exact (alone other member).resolve_left absent
      simp [empty]

/-- In a list without repetition no two items stand in both orders. -/
theorem one_order {items : List α} (nodup : items.Nodup) {first second : α}
    (before : [first, second].Sublist items) : ¬ [second, first].Sublist items := by
  induction items with
  | nil => simp at before
  | cons item rest inductionHypothesis =>
    obtain ⟨fresh, restNodup⟩ := List.nodup_cons.mp nodup
    intro after
    cases before with
    | cons _ before =>
      cases after with
      | cons _ after => exact inductionHypothesis restNodup before after
      | cons_cons _ after => exact fresh (before.subset (by simp))
    | cons_cons _ before =>
      cases after with
      | cons _ after => exact fresh (after.subset (by simp))
      | cons_cons _ after => exact fresh (before.subset (by simp))

/-- Distinct items read the same in both orders of their batches only when they lie in one
batch. -/
theorem flatten_reverse_iff {batches : List (List α)} (nodup : batches.flatten.Nodup) :
    batches.reverse.flatten = batches.flatten ↔ Lonely batches := by
  constructor
  · intro same
    apply List.pairwise_iff_forall_sublist.mpr
    intro earlier later pair
    by_contra both
    obtain ⟨first, firstMember⟩ := List.exists_mem_of_ne_nil _ (fun empty => both (Or.inl empty))
    obtain ⟨second, secondMember⟩ := List.exists_mem_of_ne_nil _ (fun empty => both (Or.inr empty))
    have forward : [first, second].Sublist batches.flatten := by
      have parts := (List.singleton_sublist.mpr firstMember).append
        (List.singleton_sublist.mpr secondMember)
      have whole := pair.flatten
      simp only [List.flatten_cons, List.flatten_nil, List.append_nil] at whole
      exact parts.trans whole
    have backward : [second, first].Sublist batches.flatten := by
      have parts := (List.singleton_sublist.mpr secondMember).append
        (List.singleton_sublist.mpr firstMember)
      have whole := pair.reverse.flatten
      simp only [List.reverse_cons, List.reverse_nil, List.nil_append, List.cons_append,
        List.flatten_cons, List.flatten_nil, List.append_nil, same] at whole
      exact parts.trans whole
    exact one_order nodup forward backward
  · exact flatten_reverse_lonely

/-- No key occurs in two of the batches. -/
def Untied (batches : List (List α)) : Prop :=
  batches.Pairwise (fun earlier later =>
    ∀ first ∈ earlier, ∀ second ∈ later, key first ≠ key second)

/-- Ties are what is left of the order of the batches. -/
theorem sort_reverse_iff {batches : List (List α)} (nodup : batches.flatten.Nodup) :
    sortBy key batches.reverse.flatten = sortBy key batches.flatten ↔ Untied key batches := by
  have selected (value : κ) : Lonely (batches.map (List.filter (fun item => key item = value))) ↔
      batches.Pairwise (fun earlier later =>
        (∀ first ∈ earlier, key first ≠ value) ∨ ∀ second ∈ later, key second ≠ value) := by
    simp [Lonely, List.pairwise_map, List.filter_eq_nil_iff]
  have agree : sortBy key batches.reverse.flatten = sortBy key batches.flatten ↔
      ∀ value, Lonely (batches.map (List.filter (fun item => key item = value))) := by
    rw [sort_eq_iff]
    apply forall_congr'
    intro value
    rw [List.filter_flatten, List.filter_flatten, List.map_reverse]
    apply flatten_reverse_iff
    rw [← List.filter_flatten]
    exact nodup.filter _
  rw [agree]
  constructor
  · intro lonely
    apply List.pairwise_iff_forall_sublist.mpr
    intro earlier later pair first firstMember second secondMember same
    have one := List.pairwise_iff_forall_sublist.mp ((selected (key second)).mp (lonely _)) pair
    rcases one with absent | absent
    · exact absent first firstMember same
    · exact absent second secondMember rfl
  · intro untied value
    apply (selected value).mpr
    apply untied.imp
    intro earlier later apart
    by_cases held : ∃ first ∈ earlier, key first = value
    · obtain ⟨first, firstMember, same⟩ := held
      right
      intro second secondMember alike
      exact apart first firstMember second secondMember (same.trans alike.symm)
    · left
      intro first firstMember same
      exact held ⟨first, firstMember, same⟩

end Kvy.General
