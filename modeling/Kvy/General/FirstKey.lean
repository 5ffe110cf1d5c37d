import Kvy.General.OrderedMap
import Mathlib.Data.List.Induction

/-!
# The first key whose value passes a test

An insertion-ordered map is searched from its first entry on. Setting a key keeps its place, so
what stands before a key does not change when the key is set.
-/

namespace Kvy.General.OrderedMap

universe u v w
variable {α : Type u} {β : Type v}

/-- The first key whose value passes a test. -/
def firstKey? (map : OrderedMap α β) (test : β → Bool) : Option α :=
  (map.entries.find? (fun entry => test entry.2)).map Prod.fst

variable {key : α} {test : β → Bool}

/-- A first key that is kept stays the first one. -/
theorem first_key_filter {map : OrderedMap α β} {keep : α → β → Bool}
    (first : map.firstKey? test = some key) (kept : ∀ value, keep key value = true) :
    (map.filter keep).firstKey? test = some key := by
  obtain ⟨entries, distinct⟩ := map
  unfold firstKey? at first ⊢
  simp only [filter] at first ⊢
  clear distinct
  induction entries with
  | nil => exact first
  | cons entry rest inductionHypothesis =>
    cases passes : test entry.2 with
    | true =>
      obtain rfl : entry.1 = key := by simpa [passes] using first
      simp [kept, passes]
    | false =>
      have later : (rest.find? (fun entry => test entry.2)).map Prod.fst = some key := by
        simpa [passes] using first
      cases stays : keep entry.1 entry.2 with
      | true => simpa [stays, passes] using inductionHypothesis later
      | false => simpa [stays] using inductionHypothesis later

variable [DecidableEq α]

/-- The entries before a key; all of them where the key is absent. -/
def before (map : OrderedMap α β) (key : α) : List (α × β) :=
  map.entries.takeWhile (fun entry => entry.1 ≠ key)

/-- No value before a key passes the test. -/
def NoneBefore (map : OrderedMap α β) (key : α) (test : β → Bool) : Prop :=
  ∀ entry ∈ map.before key, test entry.2 = false

/-- What stands before a key, in a list of entries. -/
theorem take_set_entry (key : α) (value : β) (entries : List (α × β)) :
    (setEntry key value entries).takeWhile (fun entry => entry.1 ≠ key) =
      entries.takeWhile (fun entry => entry.1 ≠ key) := by
  induction entries with
  | nil => simp [setEntry]
  | cons entry rest inductionHypothesis =>
    obtain ⟨first, held⟩ := entry
    by_cases same : first = key
    · simp [setEntry, same]
    · simpa [setEntry, same] using inductionHypothesis

/-- Setting a key keeps what stands before it. -/
@[simp] theorem before_set (map : OrderedMap α β) (key : α) (value : β) :
    (map.set key value).before key = map.before key :=
  take_set_entry key value map.entries

theorem find_entry (test : β → Bool) (key : α) (entries : List (α × β))
    (distinct : (entries.map Prod.fst).Nodup) :
    (entries.find? (fun entry => test entry.2)).map Prod.fst = some key ↔
      (∃ value, entries.lookup key = some value ∧ test value = true) ∧
        ∀ entry ∈ entries.takeWhile (fun entry => entry.1 ≠ key), test entry.2 = false := by
  induction entries with
  | nil => simp
  | cons entry rest inductionHypothesis =>
    obtain ⟨first, held⟩ := entry
    simp only [List.map_cons, List.nodup_cons] at distinct
    by_cases same : first = key
    · subst same
      cases passes : test held with
      | true => simp [passes]
      | false =>
        have absent (value : β) : rest.find? (fun entry => test entry.2) ≠ some (first, value) := by
          intro found
          exact distinct.1 (List.mem_map_of_mem (List.mem_of_find?_eq_some found))
        simpa [passes] using absent
    · cases passes : test held with
      | true => simp [passes, same]
      | false => simp [passes, same, lookup_cons_if, Ne.symm same, inductionHypothesis distinct.2]

/-- The first key is the one that passes with nothing before it. -/
theorem first_key_iff (map : OrderedMap α β) (test : β → Bool) (key : α) :
    map.firstKey? test = some key ↔
      (∃ value, map.get? key = some value ∧ test value = true) ∧ map.NoneBefore key test :=
  find_entry test key map.entries map.distinct

/-- There is no first key exactly if no value passes. -/
theorem first_key_none (map : OrderedMap α β) (test : β → Bool) :
    map.firstKey? test = none ↔ ∀ key value, map.get? key = some value → test value = false := by
  rw [firstKey?, Option.map_eq_none_iff, List.find?_eq_none]
  constructor
  · intro fails key value held
    exact Bool.eq_false_iff.mpr (fails (key, value) ((mem_entries map key value).mpr held))
  · rintro fails ⟨key, value⟩ member
    exact Bool.eq_false_iff.mp (fails key value ((mem_entries map key value).mp member))

variable {value : β}

/-- A key that is set is the first one exactly if nothing before it passes. -/
theorem first_key_set (map : OrderedMap α β)     (passes : test value = true) :
    (map.set key value).firstKey? test = some key ↔ map.NoneBefore key test := by
  rw [first_key_iff, NoneBefore, before_set]
  simp [passes, NoneBefore]

variable {other : α}

/-- What stands before a key after another one is set. -/
theorem mem_take_set_entry {entries : List (α × β)} {entry : α × β}
    (member : entry ∈ (setEntry key value entries).takeWhile (fun entry => entry.1 ≠ other)) :
    entry ∈ entries.takeWhile (fun entry => entry.1 ≠ other) ∨ entry = (key, value) := by
  induction entries with
  | nil =>
    have only := (List.takeWhile_sublist _).subset member
    exact .inr (List.mem_singleton.mp only)
  | cons first rest inductionHypothesis =>
    obtain ⟨name, held⟩ := first
    by_cases same : name = key
    · subst same
      by_cases stop : name = other
      · simp [setEntry, stop] at member
      · simp only [setEntry, ↓reduceIte, List.takeWhile_cons, ne_eq, stop, not_false_eq_true,
          decide_true, List.mem_cons] at member ⊢
        rcases member with now | later
        · exact .inr now
        · exact .inl (.inr later)
    · by_cases stop : name = other
      · subst stop
        simp [setEntry, same] at member
      · simp only [setEntry, same, ↓reduceIte, List.takeWhile_cons, ne_eq, stop, not_false_eq_true,
          decide_true, List.mem_cons] at member ⊢
        rcases member with now | later
        · exact .inl (.inl now)
        · rcases inductionHypothesis later with before | set
          · exact .inl (.inr before)
          · exact .inr set

/-- Another key that is set to what fails the test leaves the first one. -/
theorem first_key_set_other
    {map : OrderedMap α β}     (first : map.firstKey? test = some key) (apart : other ≠ key) (fails : test value = false) :
    (map.set other value).firstKey? test = some key := by
  obtain ⟨⟨held, found, passes⟩, none⟩ := (first_key_iff map test key).mp first
  refine (first_key_iff _ test key).mpr ⟨⟨held, ?_, passes⟩, ?_⟩
  · rw [get_set, if_neg (Ne.symm apart), found]
  · intro entry member
    rcases mem_take_set_entry member with before | rfl
    · exact none entry before
    · exact fails

theorem none_before_set_entry (apart : other ≠ key)
    (passes : test value = true) {entries : List (α × β)} (present : key ∈ entries.map Prod.fst) :
    (∀ entry ∈ (setEntry other value entries).takeWhile (fun entry => entry.1 ≠ key),
        test entry.2 = false) ↔
      ∀ entry ∈ entries.takeWhile (fun entry => entry.1 ≠ key),
        test entry.2 = false ∧ entry.1 ≠ other := by
  induction entries with
  | nil => simp at present
  | cons first rest inductionHypothesis =>
    obtain ⟨name, held⟩ := first
    by_cases same : name = other
    · subst same
      simp [setEntry, apart, passes]
    · by_cases stop : name = key
      · subst stop
        simp [setEntry, same]
      · have later : key ∈ rest.map Prod.fst := by
          simpa [Ne.symm stop] using present
        simpa [setEntry, same, stop] using fun _ => inductionHypothesis later

/-- Another key that is set to what passes the test leaves the first one exactly if it does not
stand before it. -/
theorem first_key_set_passing
    (map : OrderedMap α β)     (apart : other ≠ key) (passes : test value = true) :
    (map.set other value).firstKey? test = some key ↔
      map.firstKey? test = some key ∧ ∀ entry ∈ map.before key, entry.1 ≠ other := by
  rw [first_key_iff, first_key_iff, get_set, if_neg (Ne.symm apart), and_assoc]
  refine and_congr_right ?_
  rintro ⟨held, found, _⟩
  have present : key ∈ map.entries.map Prod.fst :=
    List.mem_map_of_mem ((map.mem_entries key held).mpr found)
  refine (none_before_set_entry apart passes present).trans ?_
  simp only [NoneBefore, before, forall_and]

/-- Setting items one after the other. -/
def setAll {γ : Type w} (key : γ → α) (value : γ → β) (map : OrderedMap α β) (items : List γ) :
    OrderedMap α β := items.foldl (fun map item => map.set (key item) (value item)) map

/-- The last item with a key sets it. -/
theorem get_set_all {γ : Type w} (key : γ → α) (value : γ → β) (map : OrderedMap α β)
    (items : List γ) (tested : α) :
    (setAll key value map items).get? tested =
      ((items.reverse.find? (fun item => key item = tested)).map value).or (map.get? tested) := by
  induction items generalizing map with
  | nil => rfl
  | cons item rest inductionHypothesis =>
    rw [setAll, List.foldl_cons]
    have tail := inductionHypothesis (map.set (key item) (value item))
    rw [setAll] at tail
    rw [tail, get_set, List.reverse_cons, List.find?_append]
    by_cases same : key item = tested
    · cases rest.reverse.find? (fun item => key item = tested) <;> simp [same]
    · cases rest.reverse.find? (fun item => key item = tested) <;> simp [same, Ne.symm same]

/-- Entries with distinct keys, set in an empty map, are its entries. -/
theorem set_all_distinct (entries : List (α × β)) (distinct : (entries.map Prod.fst).Nodup) :
    (setAll Prod.fst Prod.snd (empty : OrderedMap α β) entries).entries = entries := by
  induction entries using List.reverseRecOn with
  | nil => rfl
  | append_singleton entries entry inductionHypothesis =>
    rw [List.map_append, List.nodup_append] at distinct
    obtain ⟨before, _, apart⟩ := distinct
    have held := inductionHypothesis before
    have absent : entry.1 ∉ entries.map Prod.fst := fun member =>
      apart entry.1 member entry.1 (by simp) rfl
    rw [setAll] at held ⊢
    rw [List.foldl_append, List.foldl_cons, List.foldl_nil, set]
    simp only [held]
    exact set_entry_fresh entry.1 entry.2 entries absent

end Kvy.General.OrderedMap
