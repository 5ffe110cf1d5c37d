import Mathlib.Data.List.Basic

/-!
# Longest common subsequences

How long a common subsequence of two lists can be, told for lists that grow at their ends. Equal
last items are taken; of different ones, one is left out.
-/

namespace Kvy.General

variable {α : Type} {first second : List α}

/-- A common subsequence has this length, and none is longer. -/
structure LongestCommon (first second : List α) (length : Nat) : Prop where
  attained : ∃ common : List α, common.Sublist first ∧ common.Sublist second ∧
    common.length = length
  bound : ∀ common : List α, common.Sublist first → common.Sublist second →
    common.length ≤ length

namespace LongestCommon

/-- There is one such length. -/
theorem unique {length other : Nat} (longest : LongestCommon first second length)
    (also : LongestCommon first second other) : length = other := by
  obtain ⟨common, inFirst, inSecond, rfl⟩ := longest.attained
  obtain ⟨others, othersFirst, othersSecond, rfl⟩ := also.attained
  exact Nat.le_antisymm (also.bound common inFirst inSecond)
    (longest.bound others othersFirst othersSecond)

theorem nil_left : LongestCommon ([] : List α) second 0 where
  attained := ⟨[], List.Sublist.refl _, List.nil_sublist _, rfl⟩
  bound := by
    intro common inFirst _
    exact Nat.le_of_eq (congrArg List.length (List.sublist_nil.mp inFirst))

theorem nil_right : LongestCommon first ([] : List α) 0 where
  attained := ⟨[], List.nil_sublist _, List.Sublist.refl _, rfl⟩
  bound := by
    intro common _ inSecond
    exact Nat.le_of_eq (congrArg List.length (List.sublist_nil.mp inSecond))

/-- A list has itself in common with itself. -/
theorem self : LongestCommon first first first.length where
  attained := ⟨first, List.Sublist.refl _, List.Sublist.refl _, rfl⟩
  bound := fun _ inFirst _ => inFirst.length_le

/-- A subsequence of a list with one more item leaves the item out or ends with it. -/
theorem sublist_snoc {common : List α} {item : α} (inside : common.Sublist (first ++ [item])) :
    common.Sublist first ∨ ∃ rest, common = rest ++ [item] ∧ rest.Sublist first := by
  obtain ⟨rest, last, rfl, inFirst, isLast⟩ := List.sublist_append_iff.mp inside
  rcases List.sublist_singleton.mp isLast with rfl | rfl
  · exact .inl (by simpa using inFirst)
  · exact .inr ⟨rest, rfl, inFirst⟩

/-- Equal last items are taken. -/
theorem snoc_same {length : Nat} (item : α) (longest : LongestCommon first second length) :
    LongestCommon (first ++ [item]) (second ++ [item]) (length + 1) where
  attained := by
    obtain ⟨common, inFirst, inSecond, rfl⟩ := longest.attained
    exact ⟨common ++ [item], inFirst.append_right _, inSecond.append_right _, by simp⟩
  bound := by
    intro common inFirst inSecond
    have shorter : common.dropLast.length ≤ length := by
      refine longest.bound _ ?_ ?_
      · rcases sublist_snoc inFirst with without | ⟨rest, rfl, inside⟩
        · exact (List.dropLast_sublist _).trans without
        · rwa [List.dropLast_concat]
      · rcases sublist_snoc inSecond with without | ⟨rest, rfl, inside⟩
        · exact (List.dropLast_sublist _).trans without
        · rwa [List.dropLast_concat]
    rw [List.length_dropLast] at shorter
    omega

/-- Of different last items one is left out. -/
theorem snoc_different {left right : Nat} {item other : α} (different : item ≠ other)
    (withoutItem : LongestCommon first (second ++ [other]) left)
    (withoutOther : LongestCommon (first ++ [item]) second right) :
    LongestCommon (first ++ [item]) (second ++ [other]) (max left right) where
  attained := by
    rcases Nat.le_total left right with less | less
    · obtain ⟨common, inFirst, inSecond, rfl⟩ := withoutOther.attained
      exact ⟨common, inFirst, inSecond.trans (List.sublist_append_left _ _),
        (Nat.max_eq_right less).symm⟩
    · obtain ⟨common, inFirst, inSecond, rfl⟩ := withoutItem.attained
      exact ⟨common, inFirst.trans (List.sublist_append_left _ _), inSecond,
        (Nat.max_eq_left less).symm⟩
  bound := by
    intro common inFirst inSecond
    rcases sublist_snoc inFirst with without | ⟨rest, rfl, _⟩
    · exact Nat.le_trans (withoutItem.bound common without inSecond) (Nat.le_max_left _ _)
    · rcases sublist_snoc inSecond with without | ⟨others, same, _⟩
      · exact Nat.le_trans (withoutOther.bound _ inFirst without) (Nat.le_max_right _ _)
      · exact absurd (List.append_inj_right' same rfl) (by simpa using different)

end LongestCommon

end Kvy.General
