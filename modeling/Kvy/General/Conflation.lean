import Mathlib.Data.List.Basic

/-!
# Conflated sequences

A receiver may be spared values that a newer one replaces. What it gets is a subsequence of what
was sent, and ends with the last value sent. A value that waits in a slot stands at the end and
is replaced in place.
-/

namespace Kvy.General

universe u
variable {α : Type u}

/-- The values kept are some of those sent, in order, with the last one among them. -/
structure Conflated (sent kept : List α) : Prop where
  sublist : kept.Sublist sent
  last : kept.getLast? = sent.getLast?

namespace Conflated

theorem nil : Conflated ([] : List α) [] := ⟨List.Sublist.refl _, rfl⟩

/-- A value is sent and kept. -/
theorem append {sent kept : List α} (conflated : Conflated sent kept) (value : α) :
    Conflated (sent ++ [value]) (kept ++ [value]) where
  sublist := conflated.sublist.append (List.Sublist.refl _)
  last := by simp

/-- A value is sent in the place of those that wait. -/
theorem replace {sent kept waiting : List α} (conflated : Conflated sent (kept ++ waiting))
    (value : α) : Conflated (sent ++ [value]) (kept ++ [value]) where
  sublist := ((List.sublist_append_left kept waiting).trans conflated.sublist).append
    (List.Sublist.refl _)
  last := by simp

end Conflated

end Kvy.General
