import Kvy.Cli.Claude.MapperRuns

/-!
# The recursion of the mapper

A call of the mapper replays waiting lines through calls of itself. Each of these begins with
fewer waiting lines than the call that makes it, so the recursion is well founded in every
state, whichever lines name each other or themselves as their parents, and the fuel of the
model is never what ends it.
-/

namespace Kvy.Cli.Claude

open General Wire

/-- Calls that are made where fewer lines wait. A call made elsewhere fails, and what made
it fails with it. -/
def guarded (limit : Nat) (replay : Json → MapperState → Result) (message : Json)
    (state : MapperState) : Result :=
  if state.waiting < limit then replay message state else .error .exhausted

/-- One replay returns what another does, unless that one runs out of fuel. -/
def Agrees (more less : Json → MapperState → Result) : Prop :=
  ∀ message state, less message state ≠ .error .exhausted → more message state = less message state

variable {minting : Minting} {more less : Json → MapperState → Result}

/-- What continues from a computation that does not run out of fuel. -/
theorem bind_agrees {α β : Type} {first other : Except Failure α} {rest others : α → Except Failure β}
    (same : first ≠ .error .exhausted → other = first)
    (continues : ∀ value, rest value ≠ .error .exhausted → others value = rest value)
    (ends : first >>= rest ≠ .error .exhausted) : other >>= others = first >>= rest := by
  cases first with
  | error failure =>
    rw [same fun exhausted => ends (by rw [exhausted]; rfl)]
    rfl
  | ok value =>
    rw [same fun exhausted => nomatch exhausted]
    exact continues value ends

/-- A loop whose rounds agree. -/
theorem fold_agrees {α ι : Type} {body other : α → ι → Except Failure α}
    (round : ∀ value item, body value item ≠ .error .exhausted → other value item = body value item)
    (items : List ι) (start : α) (ends : items.foldlM body start ≠ .error .exhausted) :
    items.foldlM other start = items.foldlM body start := by
  induction items generalizing start with
  | nil => rfl
  | cons item rest inductionHypothesis =>
    rw [List.foldlM_cons] at ends ⊢
    rw [List.foldlM_cons]
    exact bind_agrees (round start item) inductionHypothesis ends

theorem flush_agrees (agrees : Agrees more less) (mapping : Mapping) (providerCallId : String)
    (ends : mapping.flush less providerCallId ≠ .error .exhausted) :
    mapping.flush more providerCallId = mapping.flush less providerCallId :=
  fold_agrees (fun during message => bind_agrees (agrees message during.state) fun _ _ => rfl) _ _ ends

theorem tool_use_agrees (agrees : Agrees more less) (turnId : String) (subagent : Option String)
    (mapping : Mapping) (block : Json)
    (ends : mapping.mapToolUse minting less turnId subagent block ≠ .error .exhausted) :
    mapping.mapToolUse minting more turnId subagent block =
      mapping.mapToolUse minting less turnId subagent block := by
  unfold Mapping.mapToolUse at *
  simp only at *
  split at ends
  · rename_i task
    rw [if_pos task, if_pos task]
    exact flush_agrees agrees _ _ ends
  · rename_i other
    rw [if_neg other, if_neg other]
    split
    · rfl
    · rename_i risk
      simp only [risk] at ends
      exact flush_agrees agrees _ _ ends
    · rename_i risk
      simp only [risk] at ends
      exact flush_agrees agrees _ _ ends

theorem assistant_block_agrees (agrees : Agrees more less) (turnId : String)
    (subagent : Option String) (mapping : Mapping) (block : Json)
    (ends : mapping.mapAssistantBlock minting less turnId subagent block ≠ .error .exhausted) :
    mapping.mapAssistantBlock minting more turnId subagent block =
      mapping.mapAssistantBlock minting less turnId subagent block := by
  revert ends
  unfold Mapping.mapAssistantBlock
  split
  · exact fun _ => rfl
  · split
    · exact fun _ => rfl
    · exact fun _ => rfl
    · exact fun ends => tool_use_agrees agrees turnId subagent mapping _ ends
    · exact fun _ => rfl

theorem assistant_agrees (agrees : Agrees more less) (message : Json) (subagent : Option String)
    (mapping : Mapping)
    (ends : mapping.mapAssistant minting less message subagent ≠ .error .exhausted) :
    mapping.mapAssistant minting more message subagent =
      mapping.mapAssistant minting less message subagent :=
  bind_agrees
    (fold_agrees (fun during block => assistant_block_agrees agrees _ subagent during block) _ _)
    (fun _ _ => rfl) ends

theorem resolved_agrees (agrees : Agrees more less) (message : Json) (subagent : Option String)
    (mapping : Mapping)
    (ends : mapping.mapResolved minting less message subagent ≠ .error .exhausted) :
    mapping.mapResolved minting more message subagent =
      mapping.mapResolved minting less message subagent := by
  unfold Mapping.mapResolved at *
  split
  · rename_i assistant
    split
    · rfl
    · rename_i plain
      simp only [assistant, plain] at ends
      exact assistant_agrees agrees message subagent mapping ends
  · rfl
  · rfl

/-- A call that does not run out of fuel returns the same for replays that agree. -/
theorem step_agrees (agrees : Agrees more less) (message : Json) (state : MapperState)
    (ends : mapClaudeStep minting less message state ≠ .error .exhausted) :
    mapClaudeStep minting more message state = mapClaudeStep minting less message state := by
  unfold mapClaudeStep at *
  simp only at *
  split
  · rfl
  · rename_i unmatched
    split at ends
    · rename_i provider nothing found
      exact absurd found (unmatched provider nothing)
    · exact resolved_agrees agrees message _ _ ends

/-- A line mapped with more fuel is a call that makes its calls with less. -/
theorem map_line_step (minting : Minting) (fuel : Nat) (message : Json) (state : MapperState) :
    mapLine minting (fuel + 1) message state =
      mapClaudeStep minting (mapLine minting fuel) message state := rfl

/-- What meets the equation of the recursion returns what the fuelled mapper returns, where that
ends. -/
theorem solution_agrees (solves : ∀ message state,
    mapClaudeStep minting more message state = more message state) (fuel : Nat) :
    Agrees more (mapLine minting fuel) := by
  induction fuel with
  | zero => exact fun message state ends => absurd rfl ends
  | succ fuel inductionHypothesis =>
    intro message state ends
    rw [← solves, map_line_step]
    exact step_agrees inductionHypothesis message state ends

/-- More fuel changes nothing where less is enough. -/
theorem more_fuel_agrees (minting : Minting) (fuel extra : Nat) :
    Agrees (mapLine minting (fuel + extra)) (mapLine minting fuel) := by
  induction fuel with
  | zero => exact fun message state ends => absurd rfl ends
  | succ fuel inductionHypothesis =>
    intro message state ends
    rw [Nat.add_right_comm]
    exact step_agrees inductionHypothesis message state ends

/-- What is ensured without running out of fuel does not run out of it. -/
theorem ends_of_ensures {post : Mapping → Prop} {answer : Result}
    (ensured : Ensures post NotExhausted answer) : answer ≠ .error .exhausted := by
  intro exhausted
  rw [exhausted] at ensured
  exact ensured rfl

/-- Fuel above the number of waiting lines is enough. -/
theorem map_line_enough (minting : Minting) (message : Json) (state : MapperState) {fuel : Nat}
    (enough : state.waiting < fuel) :
    mapLine minting fuel message state = mapClaudeToEnvelopes minting message state := by
  obtain ⟨extra, rfl⟩ := Nat.exists_eq_add_of_le enough
  have ends := ends_of_ensures (map_line_terminates minting (state.waiting + 1) message state
    (Nat.lt_succ_self _))
  exact more_fuel_agrees minting (state.waiting + 1) extra message state ends

/-- The mapper returns or throws. -/
theorem mapper_ends (minting : Minting) (message : Json) (state : MapperState) :
    mapClaudeToEnvelopes minting message state ≠ .error .exhausted :=
  ends_of_ensures (map_line_terminates minting _ message state (Nat.lt_succ_self _))

/-- The calls that a mapping makes of itself are those of a mapper with as much fuel as lines wait. -/
theorem guarded_terminates (minting : Minting) (limit : Nat) :
    Terminates limit (guarded limit (mapClaudeToEnvelopes minting)) := by
  intro message state room
  rw [guarded, if_pos room]
  exact map_line_terminates minting _ message state (Nat.lt_succ_self _)

/-- A call that may reach only states with fewer waiting lines loses nothing. -/
theorem guarded_step (minting : Minting) (message : Json) (state : MapperState) :
    mapClaudeStep minting (guarded state.waiting (mapClaudeToEnvelopes minting)) message state =
      mapClaudeToEnvelopes minting message state := by
  have ends := ends_of_ensures (step_terminates minting (guarded_terminates minting state.waiting)
    message)
  have within : Agrees (mapLine minting state.waiting)
      (guarded state.waiting (mapClaudeToEnvelopes minting)) := by
    intro message later ends
    by_cases room : later.waiting < state.waiting
    · rw [guarded, if_pos room]
      exact map_line_enough minting message later room
    · exact absurd (if_neg room) ends
  exact (step_agrees within message state ends).symm

/-- The mapper meets the equation of its recursion, without fuel. -/
theorem mapper_step (minting : Minting) (message : Json) (state : MapperState) :
    mapClaudeStep minting (mapClaudeToEnvelopes minting) message state =
      mapClaudeToEnvelopes minting message state := by
  have ends := ends_of_ensures (step_terminates minting (guarded_terminates minting state.waiting)
    message)
  have within : Agrees (mapClaudeToEnvelopes minting)
      (guarded state.waiting (mapClaudeToEnvelopes minting)) := by
    intro message later ends
    by_cases room : later.waiting < state.waiting
    · rw [guarded, if_pos room]
    · exact absurd (if_neg room) ends
  rw [step_agrees within message state ends, guarded_step]

/-- The recursion of the mapper is well founded in every state, whatever its lines name as their
parents. A call makes calls of itself only where fewer lines wait than where it was made, it ends,
and it is the one solution of the equation of the recursion: fuel above the number of waiting
lines has no part in what it returns. -/
theorem replays_well_founded (minting : Minting) (message : Json) (state : MapperState) :
    mapClaudeToEnvelopes minting message state =
      mapClaudeStep minting (guarded state.waiting (mapClaudeToEnvelopes minting)) message state ∧
    mapClaudeToEnvelopes minting message state ≠ .error .exhausted ∧
    mapClaudeToEnvelopes minting message state =
      mapClaudeStep minting (mapClaudeToEnvelopes minting) message state ∧
    (∀ solution : Json → MapperState → Result,
      (∀ message state, mapClaudeStep minting solution message state = solution message state) →
      solution message state = mapClaudeToEnvelopes minting message state) ∧
    ∀ fuel, state.waiting < fuel →
      mapLine minting fuel message state = mapClaudeToEnvelopes minting message state :=
  ⟨(guarded_step minting message state).symm, mapper_ends minting message state,
    (mapper_step minting message state).symm,
    fun _ solves => solution_agrees solves _ message state (mapper_ends minting message state),
    fun _ enough => map_line_enough minting message state enough⟩

end Kvy.Cli.Claude
