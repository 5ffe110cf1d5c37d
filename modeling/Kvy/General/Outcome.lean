import Mathlib.Data.List.Basic

/-!
# Outcomes of computations that may fail

A computation ensures a property of its result and, when it fails, a property of its
failure. The rules follow the structure of the computation.
-/

namespace Kvy.General

universe u v w
variable {ε : Type u} {α β : Type v} {ι : Type w}

/-- A result satisfies `post`, and a failure satisfies `fails`. -/
def Ensures (post : α → Prop) (fails : ε → Prop) : Except ε α → Prop
  | .ok value => post value
  | .error failure => fails failure

namespace Ensures
variable {post middle : α → Prop} {fails : ε → Prop}

@[simp] theorem ok (value : α) : Ensures post fails (.ok value) ↔ post value := Iff.rfl

@[simp] theorem pure_value (value : α) :
    Ensures post fails (pure value : Except ε α) ↔ post value := Iff.rfl

@[simp] theorem error (failure : ε) :
    Ensures post fails (.error failure : Except ε α) ↔ fails failure := Iff.rfl

/-- A computation continues from a result that the first part ensures. -/
theorem bind {next : β → Prop} {first : Except ε α} {rest : α → Except ε β}
    (start : Ensures post fails first) (continues : ∀ value, post value → Ensures next fails (rest value)) :
    Ensures next fails (first >>= rest) := by
  cases first with
  | error failure => exact start
  | ok value => exact continues value start

/-- A weaker property is ensured as well. -/
theorem mono {computation : Except ε α} (holds : Ensures middle fails computation)
    (weaker : ∀ value, middle value → post value) : Ensures post fails computation := by
  cases computation with
  | error failure => exact holds
  | ok value => exact weaker value holds

/-- What every round of a loop keeps is ensured by the loop. -/
theorem fold (keeps : α → Prop) {body : α → ι → Except ε α} {items : List ι} {start : α}
    (initial : keeps start)
    (round : ∀ item ∈ items, ∀ value, keeps value → Ensures keeps fails (body value item)) :
    Ensures keeps fails (items.foldlM body start) := by
  induction items generalizing start with
  | nil => exact initial
  | cons item rest inductionHypothesis =>
    rw [List.foldlM_cons]
    apply bind (round item List.mem_cons_self start initial)
    intro value kept
    exact inductionHypothesis kept
      (fun later member => round later (List.mem_cons_of_mem item member))

/-- A loop whose invariant counts the rounds that are left. -/
theorem fold_counting (keeps : Nat → α → Prop) {body : α → ι → Except ε α} {items : List ι} {start : α}
    (initial : keeps items.length start)
    (round : ∀ item ∈ items, ∀ left value, keeps (left + 1) value →
      Ensures (keeps left) fails (body value item)) :
    Ensures (keeps 0) fails (items.foldlM body start) := by
  induction items generalizing start with
  | nil => exact initial
  | cons item rest inductionHypothesis =>
    rw [List.foldlM_cons]
    apply bind (round item List.mem_cons_self rest.length start initial)
    intro value kept
    exact inductionHypothesis kept
      (fun later member => round later (List.mem_cons_of_mem item member))

end Ensures
end Kvy.General
