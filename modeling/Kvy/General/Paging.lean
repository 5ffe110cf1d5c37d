import Mathlib.Data.List.Infix

/-!
# Keyset pagination

A route returns the first rows below a cursor and a cursor made from the last of them. A
walk asks again with each cursor it is given until it is given none. Rows that are listed
in an order which the cursors respect are never returned twice, so a walk ends and returns
a sublist of the rows; it returns all of them exactly when at the end of each full page the
row that follows lies below the cursor. Rows put in front during the walk change nothing.
-/

namespace Kvy.General

universe u v

/-- How a row becomes a cursor, and which rows lie below one. -/
structure Keyset (α : Type u) (γ : Type v) where
  of : α → γ
  below : γ → α → Bool

namespace Keyset

variable {α : Type u} {γ : Type v} (keyset : Keyset α γ)

/-- The rows below a cursor; all rows where there is none. -/
def rowsBelow (rows : List α) (before : Option γ) : List α :=
  rows.filter (fun row => before.all (fun cursor => keyset.below cursor row))

/-- The first rows below a cursor, and the cursor of the last of them when there are more. -/
def page (rows : List α) (before : Option γ) (limit : Nat) : List α × Option γ :=
  let found := (keyset.rowsBelow rows before).take (limit + 1)
  if limit < found.length then
    let page := found.take limit
    (page, page.getLast?.map keyset.of)
  else (found, none)

/-- The rows of a walk that sees `rows request` at each request. Absent without fuel. -/
def walk (rows : Nat → List α) (limit : Nat) : Nat → Nat → Option γ → Option (List α)
  | 0, _, _ => none
  | fuel + 1, request, before =>
    match keyset.page (rows request) before limit with
    | (found, none) => some found
    | (found, some cursor) => (walk rows limit fuel (request + 1) (some cursor)).map (found ++ ·)

/-- The cursors respect the order of the rows: no row down to the one a cursor is made from
lies below it, and what follows a row below a cursor lies below it too. -/
structure Descends (rows : List α) : Prop where
  never : ∀ seen last left, rows = seen ++ last :: left →
    ∀ row ∈ seen ++ [last], keyset.below (keyset.of last) row = false
  stays : rows.Pairwise (fun first second =>
    ∀ cursor, keyset.below cursor first = true → keyset.below cursor second = true)

/-- At the end of each full page, the row that follows lies below the cursor. -/
def Continues (rows : List α) (limit : Nat) : Prop :=
  ∀ index last first, (index + 1) % limit = 0 → rows[index]? = some last →
    rows[index + 1]? = some first → keyset.below (keyset.of last) first = true

variable {keyset}

variable {limit : Nat} {rows : List α}

/-- A page of what is left, and the cursor for the rest. -/
theorem page_eq {before : Option γ} (positive : 0 < limit) :
    keyset.page rows before limit =
      if limit < (keyset.rowsBelow rows before).length then
        ((keyset.rowsBelow rows before).take limit,
          (keyset.rowsBelow rows before)[limit - 1]?.map keyset.of)
      else (keyset.rowsBelow rows before, none) := by
  unfold page
  generalize keyset.rowsBelow rows before = left
  have length : (left.take (limit + 1)).length = min (limit + 1) left.length := List.length_take
  by_cases more : limit < left.length
  · have long : limit < (left.take (limit + 1)).length := by omega
    have first : (left.take (limit + 1)).take limit = left.take limit := by
      rw [List.take_take, Nat.min_eq_left (Nat.le_succ limit)]
    have last : (left.take limit).getLast? = left[limit - 1]? := by
      rw [List.getLast?_eq_getElem?, List.length_take, Nat.min_eq_left (Nat.le_of_lt more),
        List.getElem?_take_of_lt (by omega)]
    simp only [long, more, ↓reduceIte, first, last]
  · have short : ¬ limit < (left.take (limit + 1)).length := by omega
    have whole : left.take (limit + 1) = left := List.take_of_length_le (by omega)
    simp only [whole, more, ↓reduceIte]

/-- What holds from some item on is a suffix. -/
theorem filter_suffix {test : α → Bool}
    (stays : rows.Pairwise (fun first second => test first = true → test second = true)) :
    rows.filter test <:+ rows ∧
      (rows.filter test = rows ↔ ∀ first ∈ rows.head?, test first = true) := by
  induction rows with
  | nil => simp
  | cons row rest inductionHypothesis =>
    obtain ⟨later, restStays⟩ := List.pairwise_cons.mp stays
    by_cases holds : test row = true
    · have all : (row :: rest).filter test = row :: rest := by
        apply List.filter_eq_self.mpr
        intro other member
        rcases List.mem_cons.mp member with rfl | member
        · exact holds
        · exact later other member holds
      rw [all]
      exact ⟨List.suffix_rfl, by simp [holds]⟩
    · have dropped : (row :: rest).filter test = rest.filter test := List.filter_cons_of_neg holds
      rw [dropped]
      refine ⟨(inductionHypothesis restStays).1.trans (List.suffix_cons row rest), ?_⟩
      constructor
      · intro same
        have shorter := List.length_filter_le test rest
        rw [same, List.length_cons] at shorter
        omega
      · intro first
        exact absurd (first row rfl) holds

/-- The rows below the cursor of a row are among those that follow it, and they are all of
those when the next one is below. -/
theorem Descends.later {seen left : List α} {last : α} (descends : keyset.Descends rows)
    (split : rows = seen ++ last :: left) :
    keyset.rowsBelow rows (some (keyset.of last)) <:+ left ∧
      (keyset.rowsBelow rows (some (keyset.of last)) = left ↔
        ∀ first ∈ left.head?, keyset.below (keyset.of last) first = true) := by
  have gone : (seen ++ [last]).filter (keyset.below (keyset.of last)) = [] := by
    apply List.filter_eq_nil_iff.mpr
    intro row member
    simp [descends.never seen last left split row member]
  have kept : keyset.rowsBelow rows (some (keyset.of last)) =
      left.filter (keyset.below (keyset.of last)) := by
    have joined : rows = (seen ++ [last]) ++ left := by simp [split]
    have below : keyset.rowsBelow rows (some (keyset.of last)) =
        rows.filter (keyset.below (keyset.of last)) := by simp [rowsBelow]
    rw [below, joined, List.filter_append, gone, List.nil_append]
  have stays : left.Pairwise (fun first second => keyset.below (keyset.of last) first = true →
      keyset.below (keyset.of last) second = true) := by
    have whole := descends.stays
    rw [split, List.pairwise_append, List.pairwise_cons] at whole
    exact whole.2.1.2.imp (fun follows => follows (keyset.of last))
  rw [kept]
  exact filter_suffix stays

/-- A list of at most one page continues. -/
theorem continues_short {width : Nat} (short : rows.length ≤ width + 1) :
    keyset.Continues rows (width + 1) := by
  intro index last first boundary _ isNext
  have within : index + 1 < rows.length := (List.getElem?_eq_some_iff.mp isNext).1
  have full : width + 1 ≤ index + 1 :=
    Nat.le_of_dvd (Nat.succ_pos index) (Nat.dvd_of_mod_eq_zero boundary)
  omega

/-- A list continues when its first page does and what follows it continues. -/
theorem continues_iff {width : Nat} (known : width < rows.length) :
    keyset.Continues rows (width + 1) ↔
      (∀ first ∈ (rows.drop (width + 1)).head?, keyset.below (keyset.of rows[width]) first = true) ∧
        keyset.Continues (rows.drop (width + 1)) (width + 1) := by
  constructor
  · intro always
    constructor
    · intro first isFirst
      rw [List.head?_drop] at isFirst
      exact always width _ first (Nat.mod_self _) (List.getElem?_eq_getElem known) isFirst
    · intro index last first boundary isLast isNext
      rw [List.getElem?_drop] at isLast isNext
      apply always (width + 1 + index) last first _ isLast isNext
      rw [Nat.add_assoc, Nat.add_mod_left]
      exact boundary
  · rintro ⟨once, rest⟩ index last first boundary isLast isNext
    by_cases inside : index ≤ width
    · have full : width + 1 ≤ index + 1 :=
        Nat.le_of_dvd (Nat.succ_pos index) (Nat.dvd_of_mod_eq_zero boundary)
      obtain rfl : index = width := by omega
      obtain rfl : rows[index] = last := by
        rw [List.getElem?_eq_getElem known] at isLast
        exact Option.some.inj isLast
      apply once
      rwa [List.head?_drop]
    · obtain ⟨later, rfl⟩ := Nat.exists_eq_add_of_lt (Nat.lt_of_not_le inside)
      apply rest later last first
      · have shift : width + later + 1 + 1 = width + 1 + (later + 1) := by omega
        rwa [shift, Nat.add_mod_left] at boundary
      · rw [List.getElem?_drop, ← isLast]
        congr 1
        omega
      · rw [List.getElem?_drop, ← isNext]
        congr 1
        omega

/-- A walk returns a part of what lies below its cursor, and all of it exactly when each full
page continues. -/
theorem walk_left {width : Nat} (descends : keyset.Descends rows)
    (fuel request : Nat) (before : Option γ) (suffix : keyset.rowsBelow rows before <:+ rows)
    (enough : (keyset.rowsBelow rows before).length < fuel) :
    ∃ visited, keyset.walk (fun _ => rows) (width + 1) fuel request before = some visited ∧
      visited.Sublist (keyset.rowsBelow rows before) ∧
      (visited = keyset.rowsBelow rows before ↔
        keyset.Continues (keyset.rowsBelow rows before) (width + 1)) := by
  induction fuel generalizing request before with
  | zero => omega
  | succ fuel inductionHypothesis =>
    simp only [walk, page_eq (Nat.succ_pos width)]
    generalize leftIs : keyset.rowsBelow rows before = left at suffix enough ⊢
    by_cases more : width + 1 < left.length
    · have known : width < left.length := Nat.lt_of_succ_lt more
      obtain ⟨seen, whole⟩ := suffix
      have parts : left.take width ++ left[width] :: left.drop (width + 1) = left := by
        rw [← List.drop_eq_getElem_cons known, List.take_append_drop]
      have split : rows = (seen ++ left.take width) ++ left[width] :: left.drop (width + 1) := by
        rw [List.append_assoc, parts, whole]
      obtain ⟨later, follows⟩ := descends.later split
      have shorter := later.length_le
      rw [List.length_drop] at shorter
      have inRows : keyset.rowsBelow rows (some (keyset.of left[width])) <:+ rows :=
        (later.trans (List.drop_suffix (width + 1) left)).trans ⟨seen, whole⟩
      obtain ⟨visited, walked, sublist, exactly⟩ := inductionHypothesis (request + 1)
        (some (keyset.of left[width])) inRows (by omega)
      refine ⟨left.take (width + 1) ++ visited, ?_, ?_, ?_⟩
      · simp [more, List.getElem?_eq_getElem known, walked]
      · have both := (List.Sublist.refl (left.take (width + 1))).append (sublist.trans later.sublist)
        rwa [List.take_append_drop] at both
      · rw [continues_iff known, ← follows]
        constructor
        · -- nothing was skipped, so what was left is what follows the page
          intro all
          have rest : visited = left.drop (width + 1) := by
            have joined : left.take (width + 1) ++ visited =
                left.take (width + 1) ++ left.drop (width + 1) := by
              rw [all, List.take_append_drop]
            exact List.append_cancel_left joined
          have same : keyset.rowsBelow rows (some (keyset.of left[width])) = left.drop (width + 1) := by
            apply later.sublist.eq_of_length_le
            rw [← rest]
            exact sublist.length_le
          refine ⟨same, ?_⟩
          rw [same] at exactly
          exact exactly.mp rest
        · rintro ⟨same, rest⟩
          rw [same] at exactly
          rw [exactly.mpr rest, List.take_append_drop]
    · refine ⟨left, by simp [more], List.Sublist.refl left, ?_⟩
      exact iff_of_true rfl (continues_short (Nat.le_of_not_lt more))

/-- More fuel changes nothing. -/
theorem walk_more {rows : Nat → List α} {fuel more request : Nat} {before : Option γ}
    {visited : List α} (enough : fuel ≤ more)
    (walked : keyset.walk rows limit fuel request before = some visited) :
    keyset.walk rows limit more request before = some visited := by
  induction fuel generalizing more request before visited with
  | zero => simp [walk] at walked
  | succ fuel inductionHypothesis =>
    cases more with
    | zero => omega
    | succ more =>
      simp only [walk] at walked ⊢
      split
      · rename_i listed
        simpa only [listed] using walked
      · rename_i listed
        simp only [listed, Option.map_eq_some_iff] at walked
        obtain ⟨rest, walkedRest, rfl⟩ := walked
        rw [inductionHypothesis (Nat.le_of_succ_le_succ enough) walkedRest]
        rfl

/-- A walk ends, returns no row twice, and returns all rows exactly when each full page
continues. -/
theorem walk_fixed (positive : 0 < limit) (descends : keyset.Descends rows) :
    ∃ visited, (∀ fuel, rows.length < fuel →
        keyset.walk (fun _ => rows) limit fuel 0 none = some visited) ∧
      visited.Sublist rows ∧ (visited = rows ↔ keyset.Continues rows limit) := by
  obtain ⟨width, rfl⟩ := Nat.exists_eq_succ_of_ne_zero (Nat.ne_of_gt positive)
  have all : keyset.rowsBelow rows none = rows := by simp [rowsBelow]
  obtain ⟨visited, walked, sublist, exactly⟩ := @walk_left _ _ keyset rows width descends
    (rows.length + 1) 0 none (by rw [all]) (by rw [all]; exact Nat.lt_succ_self _)
  rw [all] at sublist exactly
  exact ⟨visited, fun fuel enough => walk_more enough walked, sublist, exactly⟩

/-- The cursor of a page is that of one of its rows. -/
theorem page_cursor {found : List α} {before : Option γ} {next : γ}
    (listed : keyset.page rows before limit = (found, some next)) :
    ∃ row ∈ keyset.rowsBelow rows before, keyset.of row = next := by
  unfold page at listed
  simp only at listed
  split at listed
  · obtain ⟨_, cursor⟩ := Prod.mk.inj listed
    obtain ⟨row, last, isNext⟩ := Option.map_eq_some_iff.mp cursor
    exact ⟨row, List.mem_of_mem_take (List.mem_of_mem_take (List.mem_of_getLast? last)), isNext⟩
  · exact absurd (Prod.mk.inj listed).2 (by simp)

/-- Rows that no cursor of the walk reaches make no difference. -/
theorem walk_grown {initial : List α} {rows : Nat → List α} (start : rows 0 = initial)
    (same : ∀ request, ∀ row ∈ initial, keyset.rowsBelow (rows request) (some (keyset.of row)) =
      keyset.rowsBelow initial (some (keyset.of row))) (fuel : Nat) :
    keyset.walk rows limit fuel 0 none = keyset.walk (fun _ => initial) limit fuel 0 none := by
  have agree (fuel request : Nat) (before : Option γ)
      (found : keyset.rowsBelow (rows request) before = keyset.rowsBelow initial before) :
      keyset.walk rows limit fuel request before =
        keyset.walk (fun _ => initial) limit fuel request before := by
    induction fuel generalizing request before with
    | zero => rfl
    | succ fuel inductionHypothesis =>
      have pages : keyset.page (rows request) before limit = keyset.page initial before limit := by
        unfold page
        rw [found]
      simp only [walk, pages]
      split
      · rfl
      · rename_i listed
        obtain ⟨row, member, rfl⟩ := page_cursor listed
        have held : row ∈ initial := (List.mem_filter.mp member).1
        rw [inductionHypothesis (request + 1) _ (same (request + 1) row held)]
  exact agree fuel 0 none (by rw [start])

end Keyset
end Kvy.General
