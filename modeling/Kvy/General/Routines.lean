import Mathlib.Logic.Basic

/-!
# Routines that wait

A routine reads and updates a memory that it shares with others, and at some points waits for
an operation outside. Between two waits it runs without interruption. Handled alone, a routine
has each operation performed at once. Run among others, its operation takes effect at some
moment and it goes on at some later one.
-/

namespace Kvy.General

/-- A routine on a memory `μ` with updates `υ`, which waits for operations `ω`. An operation may
be rejected instead of answered. -/
inductive Routine (μ υ ω : Type) (Answer : ω → Type) (ρ : Type) : Type where
  | done (result : ρ)
  | read (next : μ → Routine μ υ ω Answer ρ)
  | write (update : υ) (next : Routine μ υ ω Answer ρ)
  | await (operation : ω) (next : Option (Answer operation) → Routine μ υ ω Answer ρ)

namespace Routine

variable {μ υ ω σ ρ : Type} {Answer : ω → Type} (apply : υ → μ → μ)

/-- The routine handled alone, on a memory and an outside. -/
def finish (perform : (operation : ω) → σ → σ × Option (Answer operation)) :
    Routine μ υ ω Answer ρ → μ → σ → (μ × σ) × ρ
  | .done result, memory, outside => ((memory, outside), result)
  | .read next, memory, outside => finish perform (next memory) memory outside
  | .write update next, memory, outside => finish perform next (apply update memory) outside
  | .await operation next, memory, outside =>
    let performed := perform operation outside
    finish perform (next performed.2) memory performed.1

/-- The updates that a routine makes before it waits. -/
def updates : Routine μ υ ω Answer ρ → μ → List υ
  | .read next, memory => updates (next memory) memory
  | .write update next, memory => update :: updates next (apply update memory)
  | .done _, _ | .await _ _, _ => []

/-- Where a routine stands when it waits or is done. -/
def rest : Routine μ υ ω Answer ρ → μ → Routine μ υ ω Answer ρ
  | .read next, memory => rest (next memory) memory
  | .write update next, memory => rest next (apply update memory)
  | .done result, _ => .done result
  | .await operation next, _ => .await operation next

/-- The memory after some updates. -/
def applyAll (updates : List υ) (memory : μ) : μ :=
  updates.foldl (fun memory update => apply update memory) memory

/-- A property that every update keeps is kept by all of them. -/
theorem applyAll_keeps {property : μ → Prop} {updates : List υ}
    (keeps : ∀ update ∈ updates, ∀ memory, property memory → property (apply update memory))
    {memory : μ} (holds : property memory) : property (applyAll apply updates memory) := by
  unfold applyAll
  induction updates generalizing memory with
  | nil => exact holds
  | cons update updates inductionHypothesis =>
    exact inductionHypothesis (fun later member => keeps later (List.mem_cons_of_mem update member))
      (keeps update List.mem_cons_self memory holds)

end Routine

/-- A routine among others: it waits for an operation that has not taken effect, it can go on, or
it is done. -/
inductive Slot (μ υ ω : Type) (Answer : ω → Type) (ρ : Type) : Type where
  | waiting (operation : ω) (next : Option (Answer operation) → Routine μ υ ω Answer ρ)
  | ready (routine : Routine μ υ ω Answer ρ)
  | finished (result : ρ)

/-- The slot of a routine that has run until it waits. -/
def Slot.of {μ υ ω ρ : Type} {Answer : ω → Type} :
    Routine μ υ ω Answer ρ → Slot μ υ ω Answer ρ
  | .done result => .finished result
  | .await operation next => .waiting operation next
  | routine => .ready routine

/-- Whether a routine is done. -/
def Slot.isFinished {μ υ ω ρ : Type} {Answer : ω → Type} : Slot μ υ ω Answer ρ → Bool
  | .finished _ => true
  | _ => false

end Kvy.General
