import Mathlib.Logic.Basic

/-!
# Runs of a partial labelled step

A step maps a state and an event to the next state, or to nothing where the event
cannot happen. A run takes a list of events from a state. A property of steps may
be required of every step of a run; an event that cannot happen ends the run and
requires nothing more.

The rules below reduce a property of whole runs to one preserved invariant, with
or without a condition that every step of the run is known to meet.
-/

namespace Kvy.General.Runs

universe u v
variable {σ : Type u} {ε : Type v}

/-- The state after a list of events, when each of them can happen in turn. -/
def run (step : σ → ε → Option σ) : σ → List ε → Option σ
  | state, [] => some state
  | state, event :: events => (step state event).bind (run step · events)

/-- Every step taken along the events has the property. -/
def Always (step : σ → ε → Option σ) (property : σ → ε → σ → Prop) : σ → List ε → Prop
  | _, [] => True
  | state, event :: events =>
    ∀ next, step state event = some next →
      property state event next ∧ Always step property next events

/-- A property that can be tested at every step can be tested along a run. -/
instance decidableAlways (step : σ → ε → Option σ) (property : σ → ε → σ → Prop)
    [test : ∀ state event next, Decidable (property state event next)] :
    (state : σ) → (events : List ε) → Decidable (Always step property state events)
  | _, [] => isTrue trivial
  | state, event :: events =>
    match taken : step state event with
    | none => isTrue (by
        intro next happens
        rw [taken] at happens
        contradiction)
    | some next =>
      have : Decidable (Always step property next events) :=
        decidableAlways step property next events
      decidable_of_iff (property state event next ∧ Always step property next events) (by
        constructor
        · intro both other happens
          obtain rfl := Option.some.inj (taken.symm.trans happens)
          exact both
        · intro always
          exact always next taken)

/-- A step that has the property, before steps that have it. -/
theorem always_cons {step : σ → ε → Option σ} {property : σ → ε → σ → Prop} {state next : σ}
    {event : ε} {events : List ε} (taken : step state event = some next)
    (now : property state event next) (later : Always step property next events) :
    Always step property state (event :: events) := by
  intro other happens
  obtain rfl := Option.some.inj (taken.symm.trans happens)
  exact ⟨now, later⟩

/-- Some list of events leads from the first state to the second. -/
def Reachable (step : σ → ε → Option σ) (start state : σ) : Prop :=
  ∃ events, run step start events = some state

variable {step : σ → ε → Option σ}

/-- Consecutive lists of events run one after the other. -/
theorem run_append (state : σ) (first second : List ε) :
    run step state (first ++ second) = (run step state first).bind (run step · second) := by
  induction first generalizing state with
  | nil => rfl
  | cons event events inductionHypothesis =>
    simp only [List.cons_append, run]
    cases step state event with
    | none => rfl
    | some next => exact inductionHypothesis next

/-- A property kept by every step holds after every run. -/
theorem run_invariant (invariant : σ → Prop)
    (kept : ∀ state event next, invariant state → step state event = some next → invariant next)
    {state final : σ} {events : List ε} (holds : invariant state)
    (ran : run step state events = some final) : invariant final := by
  induction events generalizing state with
  | nil =>
    have same : state = final := Option.some.inj ran
    exact same ▸ holds
  | cons event events inductionHypothesis =>
    obtain ⟨next, taken, rest⟩ := Option.bind_eq_some_iff.mp ran
    exact inductionHypothesis (kept state event next holds taken) rest

/-- A property kept by the steps of certain events holds after every run of such events. -/
theorem run_invariant_under (invariant : σ → Prop) (condition : ε → Prop)
    (kept : ∀ state event next, invariant state → condition event → step state event = some next →
      invariant next)
    {state final : σ} {events : List ε} (holds : invariant state)
    (met : ∀ event ∈ events, condition event) (ran : run step state events = some final) :
    invariant final := by
  induction events generalizing state with
  | nil =>
    have same : state = final := Option.some.inj ran
    exact same ▸ holds
  | cons event events inductionHypothesis =>
    obtain ⟨next, taken, rest⟩ := Option.bind_eq_some_iff.mp ran
    exact inductionHypothesis (kept state event next holds (met event List.mem_cons_self) taken)
      (fun later member => met later (List.mem_cons_of_mem event member)) rest

/-- A property kept by every step holds in every reachable state. -/
theorem reachable_invariant (invariant : σ → Prop)
    (kept : ∀ state event next, invariant state → step state event = some next → invariant next)
    {start state : σ} (holds : invariant start) (reached : Reachable step start state) :
    invariant state := by
  obtain ⟨events, ran⟩ := reached
  exact run_invariant invariant kept holds ran

/-- A property of every step holds of a step after any prefix. -/
theorem always_step {property : σ → ε → σ → Prop} {start state next : σ} {before after : List ε}
    {event : ε} (always : Always step property start (before ++ event :: after))
    (ran : run step start before = some state) (taken : step state event = some next) :
    property state event next := by
  induction before generalizing start with
  | nil =>
    have same : start = state := Option.some.inj ran
    subst same
    exact (always next taken).1
  | cons first before inductionHypothesis =>
    obtain ⟨middle, stepped, rest⟩ := Option.bind_eq_some_iff.mp ran
    exact inductionHypothesis (always middle stepped).2 rest

/-- A state property that holds at the start and after every step holds at the end. -/
theorem always_run {property : σ → Prop} {start final : σ} {events : List ε}
    (always : Always step (fun _ _ next => property next) start events) (starts : property start)
    (ran : run step start events = some final) : property final := by
  induction events generalizing start with
  | nil =>
    have same : start = final := Option.some.inj ran
    exact same ▸ starts
  | cons event events inductionHypothesis =>
    obtain ⟨next, taken, rest⟩ := Option.bind_eq_some_iff.mp ran
    obtain ⟨now, later⟩ := always next taken
    exact inductionHypothesis later now rest

/-- Two properties of every step hold together. -/
theorem always_and {first second : σ → ε → σ → Prop} {state : σ} {events : List ε}
    (one : Always step first state events) (two : Always step second state events) :
    Always step (fun state event next => first state event next ∧ second state event next)
      state events := by
  induction events generalizing state with
  | nil => trivial
  | cons event events inductionHypothesis =>
    intro next taken
    obtain ⟨firstNow, firstLater⟩ := one next taken
    obtain ⟨secondNow, secondLater⟩ := two next taken
    exact ⟨⟨firstNow, secondNow⟩, inductionHypothesis firstLater secondLater⟩

/-- Where every step has one property, an invariant that such steps keep gives another. -/
theorem always_along (invariant : σ → Prop) (condition property : σ → ε → σ → Prop)
    (kept : ∀ state event next, invariant state → condition state event next →
      step state event = some next → invariant next ∧ property state event next)
    {state : σ} {events : List ε} (holds : invariant state)
    (met : Always step condition state events) : Always step property state events := by
  induction events generalizing state with
  | nil => trivial
  | cons event events inductionHypothesis =>
    intro next taken
    obtain ⟨now, later⟩ := met next taken
    obtain ⟨nextHolds, stepHolds⟩ := kept state event next holds now taken
    exact ⟨stepHolds, inductionHypothesis nextHolds later⟩

/-- An invariant that gives a property of every step. -/
theorem always_invariant (invariant : σ → Prop) (property : σ → ε → σ → Prop)
    (kept : ∀ state event next, invariant state → step state event = some next →
      invariant next ∧ property state event next)
    {state : σ} (events : List ε) (holds : invariant state) : Always step property state events := by
  induction events generalizing state with
  | nil => trivial
  | cons event events inductionHypothesis =>
    intro next taken
    obtain ⟨nextHolds, stepHolds⟩ := kept state event next holds taken
    exact ⟨stepHolds, inductionHypothesis nextHolds⟩

/-- Under a condition that every step meets, a conditionally kept invariant gives
a property of every step. -/
theorem always_under (invariant : σ → Prop) (condition : σ → ε → Prop)
    (property : σ → ε → σ → Prop)
    (kept : ∀ state event next, invariant state → condition state event →
      step state event = some next → invariant next ∧ property state event next)
    {state : σ} {events : List ε} (holds : invariant state)
    (met : Always step (fun state event _ => condition state event) state events) :
    Always step property state events :=
  always_along invariant (fun state event _ => condition state event) property kept holds met

/-- Where an invariant makes two properties of a step agree, they agree on runs. -/
theorem always_congr (invariant : σ → Prop) (first second : σ → ε → σ → Prop)
    (kept : ∀ state event next, invariant state → step state event = some next → invariant next)
    (agree : ∀ state event next, invariant state → step state event = some next →
      (first state event next ↔ second state event next))
    {state : σ} (events : List ε) (holds : invariant state) :
    Always step first state events ↔ Always step second state events := by
  induction events generalizing state with
  | nil => exact Iff.rfl
  | cons event events inductionHypothesis =>
    constructor
    · intro always next taken
      obtain ⟨now, later⟩ := always next taken
      exact ⟨(agree state event next holds taken).mp now,
        (inductionHypothesis (kept state event next holds taken)).mp later⟩
    · intro always next taken
      obtain ⟨now, later⟩ := always next taken
      exact ⟨(agree state event next holds taken).mpr now,
        (inductionHypothesis (kept state event next holds taken)).mpr later⟩

/-- Where a state property survives a step exactly under a condition, it holds along a
run exactly when every step meets the condition. -/
theorem always_state_iff (invariant property : σ → Prop) (condition : σ → ε → Prop)
    (kept : ∀ state event next, invariant state → step state event = some next → invariant next)
    (agree : ∀ state event next, invariant state → property state → step state event = some next →
      (property next ↔ condition state event))
    {state : σ} (events : List ε) (holds : invariant state) (starts : property state) :
    Always step (fun _ _ next => property next) state events ↔
      Always step (fun state event _ => condition state event) state events := by
  induction events generalizing state with
  | nil => exact Iff.rfl
  | cons event events inductionHypothesis =>
    constructor
    · intro always next taken
      obtain ⟨now, later⟩ := always next taken
      exact ⟨(agree state event next holds starts taken).mp now,
        (inductionHypothesis (kept state event next holds taken) now).mp later⟩
    · intro always next taken
      obtain ⟨met, later⟩ := always next taken
      have now := (agree state event next holds starts taken).mpr met
      exact ⟨now, (inductionHypothesis (kept state event next holds taken) now).mpr later⟩

/-- Where every move keeps an invariant and lowers a measure, moves come to an end. -/
theorem moves_end {α : Type u} {order : α → α → Prop} (founded : WellFounded order)
    (measure : σ → α) (invariant : σ → Prop) (moves : σ → σ → Prop)
    (kept : ∀ state next, invariant state → moves state next →
      invariant next ∧ order (measure next) (measure state))
    {state : σ} (holds : invariant state) : Acc (fun next state => moves state next) state := by
  induction measured : measure state using founded.induction generalizing state with
  | _ value inductionHypothesis =>
    refine Acc.intro state (fun next moved => ?_)
    obtain ⟨nextHolds, lower⟩ := kept state next holds moved
    exact inductionHypothesis (measure next) (measured ▸ lower) nextHolds rfl

/-! ## What a step does to a view

A view maps a state to the part of it that somebody sees, as a state with the rest blurred.
A step respects the view if what is seen after it depends only on what was seen before. Runs
of such steps from states that look the same end in states that look the same. -/

section
variable {view : σ → σ}

/-- What is seen after the event depends only on what was seen before. -/
def Respects (step : σ → ε → Option σ) (view : σ → σ) (event : ε) : Prop :=
  ∀ state, (step state event).map view = (step (view state) event).map view

/-- From states that look the same, an event leads to states that look the same. -/
theorem respects_step {event : ε} (respects : Respects step view event) {state other next : σ}
    (same : view state = view other) (taken : step state event = some next) :
    ∃ there, step other event = some there ∧ view next = view there := by
  have seen : (step other event).map view = some (view next) := by
    rw [respects other, ← same, ← respects state, taken, Option.map_some]
  obtain ⟨there, happens, looks⟩ := Option.map_eq_some_iff.mp seen
  exact ⟨there, happens, looks.symm⟩

/-- From states that look the same, events lead to states that look the same. -/
theorem respects_run {events : List ε} (respects : ∀ event ∈ events, Respects step view event)
    {state other final : σ} (same : view state = view other)
    (ran : run step state events = some final) :
    ∃ there, run step other events = some there ∧ view final = view there := by
  induction events generalizing state other with
  | nil =>
    obtain rfl : state = final := Option.some.inj ran
    exact ⟨other, rfl, same⟩
  | cons event events inductionHypothesis =>
    obtain ⟨next, taken, rest⟩ := Option.bind_eq_some_iff.mp ran
    obtain ⟨middle, happens, looks⟩ := respects_step (respects event List.mem_cons_self) same taken
    obtain ⟨there, reached, atEnd⟩ := inductionHypothesis
      (fun later member => respects later (List.mem_cons_of_mem event member)) looks rest
    exact ⟨there, by rw [run, happens]; exact reached, atEnd⟩

end

end Kvy.General.Runs
