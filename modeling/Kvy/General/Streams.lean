import Mathlib.Data.List.Basic

/-!
# Laws of a stream

A law says which entries may follow what was written before. A stream is lawful when each of its
entries may stand where it stands; it stays lawful exactly under an entry that may come next.
-/

namespace Kvy.General.Streams

universe u
variable {α : Type u} {law : List α → α → Prop}

/-- Every entry may follow what stands before it. -/
def Lawful (law : List α → α → Prop) (stream : List α) : Prop :=
  ∀ before entry after, stream = before ++ entry :: after → law before entry

@[simp] theorem lawful_nil : Lawful law [] := by
  intro before entry after split
  simp at split

/-- One more entry. -/
theorem lawful_snoc (stream : List α) (entry : α) :
    Lawful law (stream ++ [entry]) ↔ Lawful law stream ∧ law stream entry := by
  constructor
  · intro lawful
    refine ⟨?_, lawful stream entry [] rfl⟩
    rintro before held after rfl
    exact lawful before held (after ++ [entry]) (by simp)
  · rintro ⟨lawful, fits⟩ before held after split
    rcases List.eq_nil_or_concat after with rfl | ⟨rest, last, rfl⟩
    · obtain ⟨rfl, same⟩ := List.append_inj' split rfl
      obtain rfl := List.singleton_inj.mp same
      exact fits
    · rw [List.concat_eq_append, ← List.cons_append, ← List.append_assoc] at split
      obtain ⟨rfl, _⟩ := List.append_inj' split rfl
      exact lawful before held rest rfl

end Kvy.General.Streams
