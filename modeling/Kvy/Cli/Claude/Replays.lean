import Kvy.Cli.Claude.EnvelopeMapper
import Kvy.General.Outcome

/-!
# Replays end

Mapping a tool call takes its waiting lines out of the buffer before it replays them, and a
line that is replayed can at most wait again. So the number of waiting lines bounds the
depth of replays from any state, and the mapper returns or throws on every line.
-/

namespace Kvy.Cli.Claude

open General Wire

/-- Resolving a subagent consumes at most a queued prompt. -/
theorem resolve_state (state : MapperState) (message : Json) :
    ∃ prompts, (state.resolveProviderSubagent message).2 =
      { state with taskPromptToProviderSubagents := prompts } := by
  have prompt (state : MapperState) (prompt : String) : ∃ prompts,
      (state.consumeTaskPromptSubagent prompt).2 =
        { state with taskPromptToProviderSubagents := prompts } := by
    unfold MapperState.consumeTaskPromptSubagent
    split
    · exact ⟨_, rfl⟩
    · exact ⟨_, rfl⟩
  have single (state : MapperState) : ∃ prompts, state.consumeSinglePendingTaskSubagent.2 =
      { state with taskPromptToProviderSubagents := prompts } := by
    unfold MapperState.consumeSinglePendingTaskSubagent
    split
    · split
      · exact ⟨_, rfl⟩
      · exact ⟨_, rfl⟩
    · exact ⟨_, rfl⟩
  have matched : ∃ prompts, ((pickSidechainRootPrompt message).elim ((none : Option String), state)
      state.consumeTaskPromptSubagent).2 = { state with taskPromptToProviderSubagents := prompts } := by
    cases pickSidechainRootPrompt message with
    | none => exact ⟨_, rfl⟩
    | some text => exact prompt state text
  obtain ⟨prompts, consumed⟩ := matched
  unfold MapperState.resolveProviderSubagent
  split
  · exact ⟨_, rfl⟩
  · simp only
    split
    · exact ⟨_, rfl⟩
    · split
      · split
        · exact ⟨prompts, consumed⟩
        · obtain ⟨rest, last⟩ := single ((pickSidechainRootPrompt message).elim
            ((none : Option String), state) state.consumeTaskPromptSubagent).2
          rw [last, consumed]
          exact ⟨_, rfl⟩
        · exact ⟨prompts, consumed⟩
      · exact ⟨_, rfl⟩

/-- Remembering a line's subagent touches only the table of lines. -/
theorem remember_state (state : MapperState) (message : Json) (providerSubagent : Option String) :
    ∃ uuids, state.rememberSubagentForMessage message providerSubagent =
      { state with uuidToProviderSubagent := uuids } := by
  unfold MapperState.rememberSubagentForMessage
  split
  · exact ⟨_, rfl⟩
  · cases pickUuid message with
    | none => exact ⟨_, rfl⟩
    | some uuid => exact ⟨_, rfl⟩

/-- The tables in which the mapper looks up the subagents of lines, and the lines that wait for them. -/
structure Tables where
  uuids : OrderedMap String String
  prompts : OrderedMap String (List String)
  subagents : OrderedMap String String
  waiting : OrderedMap String (List Json)

/-- The tables of a state. -/
def MapperState.tables (state : MapperState) : Tables where
  uuids := state.uuidToProviderSubagent
  prompts := state.taskPromptToProviderSubagents
  subagents := state.providerSubagentIds
  waiting := state.bufferedSubagentMessages

/-- How many lines wait. -/
def MapperState.waiting (state : MapperState) : Nat := state.buffered.length

/-- At most so many lines wait. -/
def Bounded (limit : Nat) (mapping : Mapping) : Prop := mapping.state.waiting ≤ limit

/-- The mapping does not run out of fuel. -/
def NotExhausted (failure : Failure) : Prop := failure ≠ .exhausted

variable {minting : Minting} {limit : Nat} {mapping : Mapping} {replay : Json → MapperState → Result}

/-- A state change that keeps the tables keeps the bound. -/
theorem Bounded.of_tables (bounded : Bounded limit mapping) {later : Mapping}
    (same : later.state.tables = mapping.state.tables) : Bounded limit later := by
  have buffers : later.state.bufferedSubagentMessages = mapping.state.bufferedSubagentMessages :=
    congrArg Tables.waiting same
  unfold Bounded MapperState.waiting MapperState.buffered at *
  rwa [buffers]

/-- A state change that keeps the buffers keeps the bound. -/
theorem Bounded.of_same (bounded : Bounded limit mapping) {later : Mapping}
    (same : later.state.bufferedSubagentMessages = mapping.state.bufferedSubagentMessages) :
    Bounded limit later := by
  unfold Bounded MapperState.waiting MapperState.buffered at *
  rwa [same]

/-- Pushing an envelope keeps the bound. -/
theorem Bounded.emit (bounded : Bounded limit mapping) (role : SessionRole) (ev : SessionEvent)
    (turn subagent : Option String) : Bounded limit (mapping.emit minting role ev turn subagent) :=
  bounded

/-! ## What keeps the tables -/

section
variable (minting : Minting) (mapping : Mapping)

theorem mint_subagent_buffers (providerId : String) :
    (mapping.mintSubagent minting providerId).state.bufferedSubagentMessages =
      mapping.state.bufferedSubagentMessages := by
  unfold Mapping.mintSubagent
  split
  · rfl
  · rfl

theorem minted_call_tables (providerId : String) :
    (mapping.mintedCall minting providerId).2.state.tables = mapping.state.tables := by
  unfold Mapping.mintedCall
  split
  · rfl
  · rfl

theorem call_id_tables (block : Json) :
    (mapping.pickCallId minting block).2.state.tables = mapping.state.tables := by
  unfold Mapping.pickCallId
  split
  · rfl
  · rfl

theorem ensure_turn_tables :
    (mapping.ensureTurn minting).2.state.tables = mapping.state.tables := by
  unfold Mapping.ensureTurn
  split
  · rfl
  · rfl

theorem subagent_start_tables (turn : String) (subagent : Option String) :
    (mapping.maybeEmitSubagentStart minting turn subagent).state.tables = mapping.state.tables := by
  unfold Mapping.maybeEmitSubagentStart
  split
  · rfl
  · split
    · rfl
    · rfl

theorem subagent_stop_tables (turn subagent : String) :
    (mapping.maybeEmitSubagentStop minting turn subagent).state.tables = mapping.state.tables := by
  unfold Mapping.maybeEmitSubagentStop
  split
  · rfl
  · rfl

/-- Closing a turn empties the buffers, if it does anything. -/
theorem close_turn_bounded (bounded : Bounded limit mapping) (status : TurnStatus) :
    Bounded limit (mapping.closeTurn minting status) := by
  unfold Mapping.closeTurn
  split
  · exact bounded
  · exact Nat.zero_le limit

end

/-! ## What takes from the buffers -/

/-- The replayed lines need less depth than there are waiting lines. -/
def Terminates (depth : Nat) (replay : Json → MapperState → Result) : Prop :=
  ∀ message state, state.waiting < depth →
    Ensures (Bounded (state.waiting + 1)) NotExhausted (replay message state)

/-- Every replayed line makes room for itself. -/
theorem Bounded.flush (bounded : Bounded limit mapping) (terminates : Terminates limit replay)
    (providerCallId : String) :
    Ensures (Bounded limit) NotExhausted (mapping.flush replay providerCallId) := by
  have taken := (OrderedMap.perm_delete mapping.state.bufferedSubagentMessages providerCallId).length_eq
  rw [List.length_append] at taken
  unfold Mapping.flush Mapping.replayAll
  refine Ensures.mono (Ensures.fold_counting
    (fun left (mapping : Mapping) => mapping.state.waiting + left ≤ limit) ?_ ?_) (fun _ within => within)
  · have total : mapping.state.waiting ≤ limit := bounded
    simp only [MapperState.waiting, MapperState.buffered] at *
    omega
  · intro message _ left during room
    apply Ensures.bind (terminates message during.state (by omega))
    intro replayed within
    have grown : replayed.state.waiting ≤ during.state.waiting + 1 := within
    simp only [Ensures.pure_value]
    omega

theorem Bounded.tool_use (bounded : Bounded limit mapping) (terminates : Terminates limit replay)
    (turn : String) (subagent : Option String) (block : Json) :
    Ensures (Bounded limit) NotExhausted
      (mapping.mapToolUse minting replay turn subagent block) := by
  have minted := (mint_subagent_buffers minting _ (mapping.pickCallId minting block).1).trans
    (congrArg Tables.waiting (call_id_tables minting mapping block))
  unfold Mapping.mapToolUse
  simp only
  split
  · apply Bounded.flush (bounded.of_same _) terminates
    cases pickTaskPrompt (block.field? "input") with
    | none => exact minted
    | some prompt => exact minted
  · have called := (bounded.of_same minted).of_tables
      (minted_call_tables minting _ (mapping.pickCallId minting block).1)
    split
    · simp [NotExhausted]
    · exact (called.emit _ _ _ _).flush terminates _
    · exact (called.emit _ _ _ _).flush terminates _

theorem Bounded.assistant_block (bounded : Bounded limit mapping) (terminates : Terminates limit replay)
    (turn : String) (subagent : Option String) (block : Json) :
    Ensures (Bounded limit) NotExhausted
      (mapping.mapAssistantBlock minting replay turn subagent block) := by
  unfold Mapping.mapAssistantBlock
  split
  · simp [NotExhausted]
  · split
    · exact bounded
    · exact bounded
    · exact bounded.tool_use terminates turn subagent _
    · exact bounded

theorem Bounded.image (bounded : Bounded limit mapping) (turn : String) (subagent : Option String)
    (block : Json) :
    Bounded limit ((imageEvent block).elim mapping (mapping.emitIn minting turn subagent)) := by
  cases imageEvent block with
  | none => exact bounded
  | some ev => exact bounded

theorem Bounded.tool_result (bounded : Bounded limit mapping) (turn : String)
    (subagent : Option String) (block : Json) :
    Ensures (Bounded limit) NotExhausted (mapping.mapToolResult minting turn subagent block) := by
  unfold Mapping.mapToolResult
  split
  · exact bounded
  · rename_i providerCallId _
    have stopped : Bounded limit ((mapping.state.lookupSubagentId providerCallId).elim mapping
        (mapping.maybeEmitSubagentStop minting turn)) := by
      cases mapping.state.lookupSubagentId providerCallId with
      | none => exact bounded
      | some subagent => exact bounded.of_tables (subagent_stop_tables minting mapping turn subagent)
    simp only
    split
    · exact stopped
    · have ended := stopped.of_tables (minted_call_tables minting _ providerCallId)
      split
      · apply Ensures.fold (Bounded limit)
        · exact ended
        · intro item _ during held
          unfold Mapping.mapNestedImage
          split
          · simp [NotExhausted]
          · simp only [Ensures.ok]
            split
            · exact held.image turn subagent item
            · exact held
      · exact ended

theorem Bounded.result_block (bounded : Bounded limit mapping) (turn : String)
    (subagent : Option String) (block : Json) :
    Ensures (Bounded limit) NotExhausted (mapping.mapResultBlock minting turn subagent block) := by
  unfold Mapping.mapResultBlock
  split
  · simp [NotExhausted]
  · split
    · exact bounded.tool_result turn subagent _
    · simp only [Ensures.ok]
      split
      · exact bounded
      · exact bounded
    · exact bounded.image turn subagent _
    · exact bounded

theorem Bounded.prompt_blocks (bounded : Bounded limit mapping) (blocks : List Json) :
    Bounded limit (blocks.foldl (Mapping.mapPromptBlock minting) mapping) := by
  induction blocks generalizing mapping with
  | nil => exact bounded
  | cons block rest inductionHypothesis =>
    apply inductionHypothesis
    unfold Mapping.mapPromptBlock
    split
    · split
      · exact bounded
      · exact bounded
    · cases imageEvent block with
      | none => exact bounded
      | some ev => exact bounded
    · exact bounded

/-! ## Lines -/

theorem Bounded.assistant (bounded : Bounded limit mapping) (terminates : Terminates limit replay)
    (message : Json) (subagent : Option String) :
    Ensures (Bounded limit) NotExhausted
      (mapping.mapAssistant minting replay message subagent) := by
  unfold Mapping.mapAssistant
  simp only
  have blocks : Ensures (Bounded limit) NotExhausted ((pickContentBlocks message).foldlM
      (fun during block => during.mapAssistantBlock minting replay
        (mapping.ensureTurn minting).1 subagent block)
      ((mapping.ensureTurn minting).2.maybeEmitSubagentStart minting
        (mapping.ensureTurn minting).1 subagent)) := by
    apply Ensures.fold (Bounded limit)
    · exact bounded.of_tables ((subagent_start_tables minting _ _ _).trans
        (ensure_turn_tables minting mapping))
    · exact fun block _ during held => held.assistant_block terminates _ subagent block
  apply Ensures.bind blocks
  intro later held
  cases pickUsage message with
  | none => exact held
  | some usage => exact held

theorem Bounded.user_text (bounded : Bounded limit mapping) (message : Json) (subagent : Option String)
    (content : String) : Bounded limit (mapping.mapUserText minting message subagent content) := by
  unfold Mapping.mapUserText
  split
  · exact bounded
  · split
    · exact bounded
    · split
      · exact bounded.of_tables ((subagent_start_tables minting _ _ _).trans
          (ensure_turn_tables minting mapping))
      · exact close_turn_bounded minting mapping bounded .completed

theorem Bounded.user_blocks (bounded : Bounded limit mapping) (message : Json) (subagent : Option String)
    (blocks : List Json) :
    Ensures (Bounded limit) NotExhausted
      (mapping.mapUserBlocks minting message subagent blocks) := by
  unfold Mapping.mapUserBlocks
  split
  · exact bounded
  · split
    · simp [NotExhausted]
    · simp only
      split
      · exact (close_turn_bounded minting mapping bounded .completed).prompt_blocks _
      · apply Ensures.fold (Bounded limit)
        · split
          · exact bounded.of_tables ((subagent_start_tables minting _ _ _).trans
          (ensure_turn_tables minting mapping))
          · exact bounded.of_tables (ensure_turn_tables minting mapping)
        · exact fun block _ during held => held.result_block _ subagent block

theorem Bounded.resolved (bounded : Bounded limit mapping) (terminates : Terminates limit replay)
    (message : Json) (subagent : Option String) :
    Ensures (Bounded limit) NotExhausted
      (mapping.mapResolved minting replay message subagent) := by
  unfold Mapping.mapResolved
  split
  · split
    · exact bounded
    · exact bounded.assistant terminates message subagent
  · split
    · exact bounded
    · split
      · exact bounded.user_text message subagent _
      · exact bounded.user_blocks message subagent _
  · exact bounded

/-- One call of `mapClaudeToEnvelopes`, given what the calls it makes of itself return. -/
def mapClaudeStep (minting : Minting) (replay : Json → MapperState → Result) (message : Json)
    (state : MapperState) : Result :=
  let (providerSubagent, state) := state.resolveProviderSubagent message
  let subagent := providerSubagent.bind state.lookupSubagentId
  let state := state.rememberSubagentForMessage message providerSubagent
  match providerSubagent, subagent with
  | some provider, none => .ok ⟨state.bufferForSubagent provider message, []⟩
  | _, _ => Mapping.mapResolved minting replay message subagent ⟨state, []⟩

/-- A call whose replays end where fewer lines wait returns or throws, and at most its own line
waits in addition. -/
theorem step_terminates (minting : Minting) {state : MapperState} (depth : Terminates state.waiting replay)
    (message : Json) :
    Ensures (Bounded (state.waiting + 1)) NotExhausted
      (mapClaudeStep minting replay message state) := by
  obtain ⟨prompts, resolved⟩ := resolve_state state message
  obtain ⟨uuids, remembered⟩ := remember_state (state.resolveProviderSubagent message).2 message
    (state.resolveProviderSubagent message).1
  have same : ((state.resolveProviderSubagent message).2.rememberSubagentForMessage message
      (state.resolveProviderSubagent message).1).bufferedSubagentMessages =
        state.bufferedSubagentMessages := by
    rw [remembered, resolved]
  unfold mapClaudeStep
  simp only
  split
  · rename_i provider _ _
    have grown := (OrderedMap.perm_set state.bufferedSubagentMessages provider
      (((state.bufferedSubagentMessages.get? provider).getD []) ++ [message])).length_eq
    simp only [List.length_append, List.length_singleton] at grown
    simp only [Ensures.ok, Bounded, MapperState.waiting, MapperState.buffered,
      MapperState.bufferForSubagent, same]
    omega
  · have bounded : Bounded state.waiting
        (⟨(state.resolveProviderSubagent message).2.rememberSubagentForMessage
          message (state.resolveProviderSubagent message).1, []⟩ : Mapping) := by
      simp only [Bounded, MapperState.waiting, MapperState.buffered, same, Nat.le_refl]
    apply (bounded.resolved depth message _).mono
    intro later within
    exact Nat.le_succ_of_le within

/-- With more fuel than waiting lines the mapper returns or throws, and at most the line
itself waits in addition. -/
theorem map_line_terminates (minting : Minting) (fuel : Nat) :
    Terminates fuel (mapLine minting fuel) := by
  induction fuel with
  | zero =>
    intro message state room
    omega
  | succ fuel inductionHypothesis =>
    intro message state room
    have depth : Terminates state.waiting (mapLine minting fuel) := by
      intro message state room
      exact inductionHypothesis message state (by omega)
    exact step_terminates minting depth message

end Kvy.Cli.Claude
