import Kvy.Cli.Claude.Replays
import Kvy.General.Brackets
import Kvy.General.Runs

/-!
# Turns are bracketed

What the mapper writes is read as spans: a turn starts, holds envelopes and stops. Every
line keeps the stream readable as long as no line closes the turn from inside the mapping
of another one, and no line throws after it has opened a turn.
-/

namespace Kvy.Cli.Claude

open General Wire Brackets

/-- How an envelope bears on its turn. -/
def mark (env : SessionEnvelope) : Mark String :=
  match env.turn, env.ev with
  | none, _ => .free
  | some turn, .turnStart => .start turn
  | some turn, .turnEnd _ => .stop turn
  | some turn, _ => .within turn

/-- An event that neither starts nor ends a turn. -/
def Inner (ev : SessionEvent) : Prop := ∀ turn id time role subagent,
  mark ⟨id, time, role, some turn, subagent, ev⟩ = .within turn

/-- The block can be read: neither it nor what its result holds is `null`, and the event of a
tool call fits its schema. -/
def readableBlock : Json → Bool
  | .null => false
  | block =>
    match typeOf block with
    | some "tool_use" =>
      match pickRisk ((nonEmptyString (block.field? "name")).getD "unknown") with
      | .inherited => false
      | _ => true
    | some "tool_result" =>
      match block.field? "content" with
      | some (.arr nested) => nested.all (fun item => !isNull item)
      | _ => true
    | _ => true

/-- Every block of the line can be read. -/
def readableLine (message : Json) : Bool := (pickContentBlocks message).all readableBlock

/-- The line is a prompt of the user's own, which closes the open turn. -/
def closesTurn (message : Json) : Bool :=
  decide (typeOf message = some "user") && !isMetaMessage message && !isSidechainMessage message &&
    match Schema.string (pickMessageContent message) with
    | some content => (extractLocalCommandStdout content).isNone && !isLocalCommandInvocation content
    | none =>
      !(pickContentBlocks message).isEmpty &&
        decide (someToolResult (pickContentBlocks message) = some false)

/-- The line waits for a tool call that has not been seen. -/
def waits (state : MapperState) (message : Json) : Bool :=
  let (providerSubagent, state) := state.resolveProviderSubagent message
  providerSubagent.any (fun provider => (state.lookupSubagentId provider).isNone)

variable (minting : Minting)

/-- Every turn seen was drawn before. -/
def Drawn (draws : Nat) (seen : List String) : Prop :=
  ∀ turn ∈ seen, ∃ draw < draws, minting.createId draw = turn

/-- The output takes a reader from the turn open before to the turn open after. -/
structure Advances (before after : MapperState) (output : List SessionEnvelope) : Prop where
  draws : before.issued ≤ after.issued
  reads : ∀ seen, Drawn minting before.issued seen → ∃ later, Drawn minting after.issued later ∧
    followAll ⟨seen, before.turn⟩ (output.map mark) = some ⟨later, after.turn⟩

variable {minting}

theorem Drawn.mono {draws more : Nat} {seen : List String} (drawn : Drawn minting draws seen)
    (fewer : draws ≤ more) : Drawn minting more seen := by
  intro turn member
  obtain ⟨draw, before, same⟩ := drawn turn member
  exact ⟨draw, Nat.lt_of_lt_of_le before fewer, same⟩

namespace Advances
variable {before middle after : MapperState} {first second : List SessionEnvelope}

/-- A state change that keeps the turn writes nothing. -/
theorem silent (draws : before.issued ≤ after.issued) (turn : after.turn = before.turn) :
    Advances minting before after [] where
  draws := draws
  reads := fun seen drawn => ⟨seen, drawn.mono draws, by simp [turn]⟩

theorem trans
    (one : Advances minting before middle first) (two : Advances minting middle after second) :
    Advances minting before after (first ++ second) where
  draws := Nat.le_trans one.draws two.draws
  reads := by
    intro seen drawn
    obtain ⟨halfway, drawnHalfway, readFirst⟩ := one.reads seen drawn
    obtain ⟨later, drawnLater, readSecond⟩ := two.reads halfway drawnHalfway
    refine ⟨later, drawnLater, ?_⟩
    rw [List.map_append, follow_all_append, readFirst]
    exact readSecond

variable {env : SessionEnvelope}

/-- An envelope of no turn may stand anywhere. -/
theorem free (draws : before.issued ≤ after.issued)
    (turn : after.turn = before.turn) (isFree : mark env = .free) :
    Advances minting before after [env] where
  draws := draws
  reads := fun seen drawn => ⟨seen, drawn.mono draws, by simp [isFree, follow, turn]⟩

/-- An envelope of the open turn may stand anywhere in it. -/
theorem inside {turn : String} (draws : before.issued ≤ after.issued)
    (isOpen : before.turn = some turn) (staysOpen : after.turn = some turn)
    (isInside : mark env = .within turn) : Advances minting before after [env] where
  draws := draws
  reads := fun seen drawn =>
    ⟨seen, drawn.mono draws, by simp [isInside, follow, isOpen, staysOpen]⟩

/-- A turn that starts is new. -/
theorem starts {turn : String} (idle : before.turn = none)
    (opened : after.turn = some turn) (isStart : mark env = .start turn)
    (drawn : minting.createId before.issued = turn) (draws : before.issued < after.issued) :
    Advances minting before after [env] where
  draws := Nat.le_of_lt draws
  reads := by
    intro seen drawnSeen
    have unseen : turn ∉ seen := by
      intro member
      obtain ⟨draw, earlier, same⟩ := drawnSeen turn member
      have equal : draw = before.issued := minting.injective (same.trans drawn.symm)
      omega
    refine ⟨turn :: seen, ?_, by simp [isStart, follow, idle, opened, unseen]⟩
    intro other member
    rcases List.mem_cons.mp member with rfl | member
    · exact ⟨before.issued, draws, drawn⟩
    · exact drawnSeen.mono (Nat.le_of_lt draws) other member

/-- The open turn ends. -/
theorem ends {turn : String} (draws : before.issued ≤ after.issued)
    (isOpen : before.turn = some turn) (closed : after.turn = none) (isEnd : mark env = .stop turn) :
    Advances minting before after [env] where
  draws := draws
  reads := fun seen drawn => ⟨seen, drawn.mono draws, by simp [isEnd, follow, isOpen, closed]⟩

end Advances

/-- The lines that wait are readable and close no turn. -/
def Quiet (state : MapperState) : Prop :=
  ∀ message ∈ state.buffered, readableLine message = true ∧ closesTurn message = false

/-- A mapping under way: what it has pushed leads from the state at its start. -/
structure Leads (minting : Minting) (start : MapperState) (mapping : Mapping) : Prop where
  quiet : Quiet mapping.state
  advances : Advances minting start mapping.state mapping.envelopes

/-- A mapping under way inside an open turn. -/
structure InTurn (minting : Minting) (start : MapperState) (turn : String) (mapping : Mapping) : Prop
    extends Leads minting start mapping where
  isOpen : mapping.state.turn = some turn

variable {start : MapperState} {turn : String} {mapping : Mapping}

/-- A state change that keeps the turn and adds no waiting line. -/
theorem Leads.change (leads : Leads minting start mapping) {state : MapperState}
    (draws : mapping.state.issued ≤ state.issued) (same : state.turn = mapping.state.turn)
    (fewer : ∀ message ∈ state.buffered, message ∈ mapping.state.buffered) :
    Leads minting start { mapping with state := state } where
  quiet := fun message member => leads.quiet message (fewer message member)
  advances := by
    have joined := leads.advances.trans
      (Advances.silent draws same : Advances minting mapping.state state [])
    rwa [List.append_nil] at joined

theorem InTurn.change (inTurn : InTurn minting start turn mapping) {state : MapperState}
    (draws : mapping.state.issued ≤ state.issued) (same : state.turn = mapping.state.turn)
    (fewer : ∀ message ∈ state.buffered, message ∈ mapping.state.buffered) :
    InTurn minting start turn { mapping with state := state } where
  toLeads := inTurn.toLeads.change draws same fewer
  isOpen := same.trans inTurn.isOpen

/-- An envelope of no turn may be pushed at any time. -/
theorem Leads.emit_free
    (leads : Leads minting start mapping) (role : SessionRole) (ev : SessionEvent)
    (subagent : Option String) : Leads minting start (mapping.emit minting role ev none subagent) where
  quiet := leads.quiet
  advances := leads.advances.trans (Advances.free (Nat.le_succ _) rfl rfl)

/-- An event of the open turn may be pushed at any time. -/
theorem InTurn.emit (inTurn : InTurn minting start turn mapping) (subagent : Option String)
    (ev : SessionEvent) (inner : Inner ev) :
    InTurn minting start turn (mapping.emitIn minting turn subagent ev) where
  quiet := inTurn.quiet
  advances := inTurn.advances.trans
    (Advances.inside (Nat.le_succ _) inTurn.isOpen inTurn.isOpen (inner _ _ _ _ _))
  isOpen := inTurn.isOpen

/-! ## Operations inside a turn -/

theorem mem_buffered (state : MapperState) (message : Json) :
    message ∈ state.buffered ↔
      ∃ provider queue, state.bufferedSubagentMessages.get? provider = some queue ∧ message ∈ queue := by
  simp [MapperState.buffered, List.mem_flatMap, OrderedMap.mem_entries]

/-- The lines taken for a tool call were waiting, and the others still wait. -/
theorem consume_buffered (state : MapperState) (provider : String) :
    (∀ message ∈ (state.consumeBufferedMessages provider).1, message ∈ state.buffered) ∧
    (∀ message ∈ (state.consumeBufferedMessages provider).2.buffered, message ∈ state.buffered) := by
  constructor
  · intro message member
    simp only [MapperState.consumeBufferedMessages] at member
    cases held : state.bufferedSubagentMessages.get? provider with
    | none => simp [held] at member
    | some queue =>
      rw [held, Option.getD_some] at member
      exact (mem_buffered state message).mpr ⟨provider, queue, held, member⟩
  · intro message member
    obtain ⟨other, queue, held, inQueue⟩ := (mem_buffered _ message).mp member
    simp only [MapperState.consumeBufferedMessages, OrderedMap.get_delete] at held
    split at held
    · contradiction
    · exact (mem_buffered state message).mpr ⟨other, queue, held, inQueue⟩

variable {message : Json}

/-- A line that is made to wait is the only new one. -/
theorem buffer_quiet {state : MapperState} (quiet : Quiet state) (provider : String)
    (readable : readableLine message = true) (plain : closesTurn message = false) :
    Quiet (state.bufferForSubagent provider message) := by
  intro other member
  obtain ⟨key, queue, held, inQueue⟩ := (mem_buffered _ other).mp member
  simp only [MapperState.bufferForSubagent, OrderedMap.get_set] at held
  split at held
  · cases held
    rcases List.mem_append.mp inQueue with before | last
    · cases waiting : state.bufferedSubagentMessages.get? provider with
      | none => simp [waiting] at before
      | some queue =>
        rw [waiting, Option.getD_some] at before
        exact quiet other ((mem_buffered state other).mpr ⟨provider, queue, waiting, before⟩)
    · obtain rfl := List.mem_singleton.mp last
      exact ⟨readable, plain⟩
  · exact quiet other ((mem_buffered state other).mpr ⟨key, queue, held, inQueue⟩)

theorem InTurn.mint_subagent (inTurn : InTurn minting start turn mapping) (providerId : String) :
    InTurn minting start turn (mapping.mintSubagent minting providerId) := by
  unfold Mapping.mintSubagent
  split
  · exact inTurn
  · exact inTurn.change (Nat.le_succ _) rfl (fun _ member => member)

theorem InTurn.minted_call (inTurn : InTurn minting start turn mapping) (providerId : String) :
    InTurn minting start turn (mapping.mintedCall minting providerId).2 := by
  unfold Mapping.mintedCall
  split
  · exact inTurn
  · exact inTurn.change (Nat.le_succ _) rfl (fun _ member => member)

theorem InTurn.call_id (inTurn : InTurn minting start turn mapping) (block : Json) :
    InTurn minting start turn (mapping.pickCallId minting block).2 := by
  unfold Mapping.pickCallId
  split
  · exact inTurn
  · exact inTurn.change (Nat.le_succ _) rfl (fun _ member => member)

theorem InTurn.subagent_start
    (inTurn : InTurn minting start turn mapping) (subagent : Option String) :
    InTurn minting start turn (mapping.maybeEmitSubagentStart minting turn subagent) := by
  unfold Mapping.maybeEmitSubagentStart
  cases subagent with
  | none => exact inTurn
  | some subagent =>
    simp only
    split
    · exact inTurn
    · exact (inTurn.emit (some subagent) _ (fun _ _ _ _ _ => rfl)).change (Nat.le_refl _) rfl
        (fun _ member => member)

theorem InTurn.subagent_stop (inTurn : InTurn minting start turn mapping) (subagent : String) :
    InTurn minting start turn (mapping.maybeEmitSubagentStop minting turn subagent) := by
  unfold Mapping.maybeEmitSubagentStop
  split
  · exact (inTurn.emit (some subagent) _ (fun _ _ _ _ _ => rfl)).change (Nat.le_refl _) rfl
      (fun _ member => member)
  · exact inTurn

/-- After `ensureTurn` a turn is open: the one that was, or a new one. -/
theorem Leads.ensure_turn (leads : Leads minting start mapping) :
    InTurn minting start (mapping.ensureTurn minting).1 (mapping.ensureTurn minting).2 ∧
      ∀ turn, mapping.state.turn = some turn → (mapping.ensureTurn minting).1 = turn := by
  unfold Mapping.ensureTurn
  cases isOpen : mapping.state.turn with
  | some turn => exact ⟨⟨leads, isOpen⟩, fun _ same => Option.some.inj same⟩
  | none =>
    have opened : ∀ state : MapperState,
        { state with currentTurnId := some (minting.createId mapping.state.issued) }.turn =
          some (minting.createId mapping.state.issued) := by
      intro state
      simp [MapperState.turn, minting.nonEmpty]
    refine ⟨⟨⟨leads.quiet, leads.advances.trans ?_⟩, opened _⟩, by simp⟩
    apply Advances.starts isOpen (opened _) rfl rfl
    simp only [Mapping.emitIn, Mapping.emit, MapperState.createId]
    omega

/-- Ending the turn stops its subagents first. -/
theorem Leads.close_turn (leads : Leads minting start mapping) (status : TurnStatus) :
    Leads minting start (mapping.closeTurn minting status) := by
  unfold Mapping.closeTurn
  cases isOpen : mapping.state.turn with
  | none => exact leads
  | some turn =>
    have stops (subagents : List String) (mapping : Mapping) (inTurn : InTurn minting start turn mapping) :
        InTurn minting start turn (subagents.foldl (fun mapping subagent =>
          mapping.emitIn minting turn (some subagent) .subStop) mapping) := by
      induction subagents generalizing mapping with
      | nil => exact inTurn
      | cons subagent rest inductionHypothesis =>
        exact inductionHypothesis _ (inTurn.emit (some subagent) _ (fun _ _ _ _ _ => rfl))
    have stopped : InTurn minting start turn (mapping.emitActiveSubagentStops minting turn) :=
      (stops _ mapping ⟨leads, isOpen⟩).change (Nat.le_refl _) rfl (fun _ member => member)
    refine ⟨by simp [Quiet, MapperState.buffered, MapperState.clearSubagentTracking, OrderedMap.empty],
      stopped.advances.trans ?_⟩
    exact Advances.ends (Nat.le_succ _) stopped.isOpen rfl rfl

/-! ## Lines inside a turn -/

/-- The only failure that is not excluded is the model's own. -/
def OutOfFuel (failure : Failure) : Prop := failure = .exhausted

/-- A line that closes no turn leads on from any quiet state and keeps an open turn open. -/
def Replays (minting : Minting) (replay : Json → MapperState → Result) : Prop :=
  ∀ message state, Quiet state → readableLine message = true → closesTurn message = false →
    Ensures (fun mapping => Leads minting state mapping ∧
      ∀ turn, state.turn = some turn → mapping.state.turn = some turn) OutOfFuel (replay message state)

variable {replay : Json → MapperState → Result}

/-- Waiting lines are replayed inside the turn of the line that replays them. -/
theorem InTurn.flush (inTurn : InTurn minting start turn mapping) (replays : Replays minting replay)
    (providerCallId : String) :
    Ensures (InTurn minting start turn) OutOfFuel (mapping.flush replay providerCallId) := by
  obtain ⟨taken, left⟩ := consume_buffered mapping.state providerCallId
  unfold Mapping.flush Mapping.replayAll
  apply Ensures.fold (InTurn minting start turn)
  · exact inTurn.change (Nat.le_refl _) rfl left
  · intro message member during held
    obtain ⟨readable, plain⟩ := inTurn.quiet message (taken message member)
    apply Ensures.bind (replays message during.state held.quiet readable plain)
    intro replayed ⟨leads, keeps⟩
    exact ⟨⟨leads.quiet, held.advances.trans leads.advances⟩, keeps turn held.isOpen⟩

variable {block : Json}

/-- A tool call is registered, shown unless it is a task, and followed by what waited for it. -/
theorem InTurn.tool_use
    (inTurn : InTurn minting start turn mapping) (replays : Replays minting replay)
    (subagent : Option String) (readable : readableBlock block = true)
    (isToolUse : typeOf block = some "tool_use") :
    Ensures (InTurn minting start turn) OutOfFuel
      (mapping.mapToolUse minting replay turn subagent block) := by
  have fits : ∀ risk, pickRisk ((nonEmptyString (block.field? "name")).getD "unknown") = risk →
      risk ≠ .inherited := by
    rintro risk picked rfl
    cases block with
    | null => simp [readableBlock] at readable
    | bool | num | str | arr | obj => simp [readableBlock, isToolUse, picked] at readable
  have minted := (inTurn.call_id block).mint_subagent (mapping.pickCallId minting block).1
  unfold Mapping.mapToolUse
  simp only
  split
  · apply InTurn.flush _ replays
    cases pickTaskPrompt (block.field? "input") with
    | none => exact minted.change (Nat.le_refl _) rfl (fun _ member => member)
    | some prompt => exact minted.change (Nat.le_refl _) rfl (fun _ member => member)
  · have call := minted.minted_call (mapping.pickCallId minting block).1
    cases picked : pickRisk ((nonEmptyString (block.field? "name")).getD "unknown") with
    | inherited => exact absurd rfl (fits _ picked)
    | absent => exact (call.emit subagent _ (fun _ _ _ _ _ => rfl)).flush replays _
    | risk risk => exact (call.emit subagent _ (fun _ _ _ _ _ => rfl)).flush replays _

/-- A block of an assistant line. -/
theorem InTurn.assistant_block (inTurn : InTurn minting start turn mapping)
    (replays : Replays minting replay) (subagent : Option String)
    (readable : readableBlock block = true) :
    Ensures (InTurn minting start turn) OutOfFuel
      (mapping.mapAssistantBlock minting replay turn subagent block) := by
  unfold Mapping.mapAssistantBlock
  split
  · simp [readableBlock] at readable
  · split
    · exact inTurn.emit subagent _ (fun _ _ _ _ _ => rfl)
    · exact inTurn.emit subagent _ (fun _ _ _ _ _ => rfl)
    · rename_i isToolUse
      exact inTurn.tool_use replays subagent readable isToolUse
    · exact inTurn

theorem image_event_inner {ev : SessionEvent} (picked : imageEvent block = some ev) :
    Inner ev := by
  obtain ⟨source, _, rfl⟩ := Option.map_eq_some_iff.mp picked
  intro turn id time role subagent
  simp only
  split <;> rfl

/-- An image is pushed when it can be read. -/
theorem InTurn.image (inTurn : InTurn minting start turn mapping) (subagent : Option String)
    (block : Json) :
    InTurn minting start turn ((imageEvent block).elim mapping (mapping.emitIn minting turn subagent)) := by
  cases picked : imageEvent block with
  | none => exact inTurn
  | some ev => exact inTurn.emit subagent _ (image_event_inner picked)

/-- A tool's result. -/
theorem InTurn.tool_result (inTurn : InTurn minting start turn mapping) (subagent : Option String)
    (readable : readableBlock block = true)
    (isResult : typeOf block = some "tool_result") :
    Ensures (InTurn minting start turn) OutOfFuel
      (mapping.mapToolResult minting turn subagent block) := by
  unfold Mapping.mapToolResult
  split
  · exact inTurn
  · rename_i providerCallId _
    have stopped : InTurn minting start turn ((mapping.state.lookupSubagentId providerCallId).elim mapping
        (mapping.maybeEmitSubagentStop minting turn)) := by
      cases mapping.state.lookupSubagentId providerCallId with
      | none => exact inTurn
      | some subagent => exact inTurn.subagent_stop subagent
    simp only
    split
    · exact stopped.change (Nat.le_refl _) rfl (fun _ member => member)
    · have ended := (stopped.minted_call providerCallId).emit subagent
        (.toolEnd (((mapping.state.lookupSubagentId providerCallId).elim mapping
          (mapping.maybeEmitSubagentStop minting turn)).mintedCall minting providerCallId).1
          (!isTrue (block.field? "is_error")) (block.field? "content")) (fun _ _ _ _ _ => rfl)
      split
      · rename_i nested content
        apply Ensures.fold _ ended
        intro item member during held
        have notNull : isNull item = false := by
          have all : nested.all (fun item => !isNull item) = true := by
            cases block with
            | null => simp [readableBlock] at readable
            | bool | num | str | arr | obj => simpa [readableBlock, isResult, content] using readable
          simpa using List.all_eq_true.mp all item member
        unfold Mapping.mapNestedImage
        split
        · contradiction
        · simp only [Ensures.ok]
          split
          · exact held.image subagent item
          · exact held
      · exact ended

/-- A block that reports to the agent. -/
theorem InTurn.result_block (inTurn : InTurn minting start turn mapping) (subagent : Option String)
    (readable : readableBlock block = true) :
    Ensures (InTurn minting start turn) OutOfFuel
      (mapping.mapResultBlock minting turn subagent block) := by
  unfold Mapping.mapResultBlock
  split
  · simp [readableBlock] at readable
  · split
    · rename_i isResult
      exact inTurn.tool_result subagent readable isResult
    · simp only [Ensures.ok]
      split
      · exact inTurn.emit subagent _ (fun _ _ _ _ _ => rfl)
      · exact inTurn
    · exact inTurn.image subagent block
    · exact inTurn

/-! ## Whole lines -/

/-- The open turn stays open. -/
def KeepsTurn (before after : MapperState) : Prop :=
  ∀ turn, before.turn = some turn → after.turn = some turn

/-- A mapping inside the turn that `ensureTurn` returns keeps the turn that was open. -/
theorem InTurn.keeps_turn {later : Mapping}
    (ensured : ∀ turn, mapping.state.turn = some turn → (mapping.ensureTurn minting).1 = turn)
    (inTurn : InTurn minting start (mapping.ensureTurn minting).1 later) :
    Leads minting start later ∧ KeepsTurn mapping.state later.state := by
  refine ⟨inTurn.toLeads, ?_⟩
  intro turn isOpen
  rw [inTurn.isOpen, ensured turn isOpen]

/-- An assistant line runs inside one turn. -/
theorem Leads.assistant (leads : Leads minting start mapping) (replays : Replays minting replay)
    (subagent : Option String) (readable : readableLine message = true) :
    Ensures (fun later => Leads minting start later ∧ KeepsTurn mapping.state later.state) OutOfFuel
      (mapping.mapAssistant minting replay message subagent) := by
  obtain ⟨opened, ensured⟩ := leads.ensure_turn
  unfold Mapping.mapAssistant
  simp only
  apply Ensures.bind (Ensures.fold _ (opened.subagent_start subagent) ?_)
  · intro later inTurn
    apply InTurn.keeps_turn ensured
    cases pickUsage message with
    | none => exact inTurn
    | some usage => exact inTurn.emit subagent _ (fun _ _ _ _ _ => rfl)
  · intro block member during held
    exact held.assistant_block replays subagent (List.all_eq_true.mp readable block member)

/-- A prompt block is free of turns. -/
theorem Leads.prompt_blocks (leads : Leads minting start mapping) (blocks : List Json) :
    Leads minting start (blocks.foldl (Mapping.mapPromptBlock minting) mapping) := by
  induction blocks generalizing mapping with
  | nil => exact leads
  | cons block rest inductionHypothesis =>
    apply inductionHypothesis
    unfold Mapping.mapPromptBlock
    split
    · split
      · exact leads.emit_free _ _ _
      · exact leads
    · cases imageEvent block with
      | none => exact leads
      | some ev => exact leads.emit_free _ _ _
    · exact leads

/-- A user line of text closes the turn only when it is a prompt. -/
theorem Leads.user_text (leads : Leads minting start mapping)
    (subagent : Option String) {content : String}
    (isContent : Schema.string (pickMessageContent message) = some content)
    (isUser : typeOf message = some "user") (notMeta : isMetaMessage message = false) :
    let later := mapping.mapUserText minting message subagent content
    Leads minting start later ∧ (closesTurn message = false → KeepsTurn mapping.state later.state) := by
  unfold Mapping.mapUserText
  cases stdout : extractLocalCommandStdout content with
  | some text => exact ⟨leads.emit_free _ _ _, fun _ _ isOpen => isOpen⟩
  | none =>
    simp only
    by_cases invocation : isLocalCommandInvocation content = true
    · rw [if_pos invocation]
      exact ⟨leads, fun _ _ isOpen => isOpen⟩
    · rw [if_neg invocation]
      by_cases sidechain : isSidechainMessage message = true
      · rw [if_pos sidechain]
        obtain ⟨opened, ensured⟩ := leads.ensure_turn
        have shown := (opened.subagent_start subagent).emit subagent
          (.text content none) (fun _ _ _ _ _ => rfl)
        obtain ⟨after, keeps⟩ := InTurn.keeps_turn ensured shown
        exact ⟨after, fun _ => keeps⟩
      · rw [if_neg sidechain]
        refine ⟨(leads.close_turn .completed).emit_free _ _ _, ?_⟩
        intro plain
        simp [closesTurn, isUser, notMeta, isContent, stdout, invocation, sidechain] at plain

/-- Looking for a result in readable blocks throws on none of them. -/
theorem some_tool_result_read {blocks : List Json} (readable : blocks.all readableBlock = true) :
    ∃ found, someToolResult blocks = some found := by
  induction blocks with
  | nil => exact ⟨false, rfl⟩
  | cons block rest inductionHypothesis =>
    simp only [List.all_cons, Bool.and_eq_true] at readable
    unfold someToolResult
    split
    · simp_all
    · simp_all [readableBlock]
    · rename_i same
      obtain ⟨rfl, rfl⟩ := List.cons.inj same
      split
      · exact ⟨true, rfl⟩
      · exact inductionHypothesis readable.2

/-- A user line of blocks closes the turn only when it is a prompt. -/
theorem Leads.user_blocks (leads : Leads minting start mapping)
    (subagent : Option String) (isContent : Schema.string (pickMessageContent message) = none)
    (isUser : typeOf message = some "user") (notMeta : isMetaMessage message = false)
    (readable : readableLine message = true) :
    Ensures (fun later => Leads minting start later ∧
        (closesTurn message = false → KeepsTurn mapping.state later.state)) OutOfFuel
      (mapping.mapUserBlocks minting message subagent (pickContentBlocks message)) := by
  unfold Mapping.mapUserBlocks
  by_cases empty : (pickContentBlocks message).isEmpty = true
  · rw [if_pos empty]
    exact ⟨leads, fun _ _ isOpen => isOpen⟩
  · rw [if_neg empty]
    obtain ⟨hasToolResult, found⟩ := some_tool_result_read readable
    rw [found]
    simp only
    by_cases prompt : (!isSidechainMessage message && !hasToolResult) = true
    · rw [if_pos prompt]
      refine ⟨(leads.close_turn .completed).prompt_blocks _, ?_⟩
      intro plain
      simp only [Bool.and_eq_true, Bool.not_eq_true'] at prompt
      simp [closesTurn, isUser, notMeta, isContent, prompt.1, prompt.2, empty, found] at plain
    · rw [if_neg prompt]
      obtain ⟨opened, ensured⟩ := leads.ensure_turn
      have started : InTurn minting start (mapping.ensureTurn minting).1
          (if isSidechainMessage message = true then
            (mapping.ensureTurn minting).2.maybeEmitSubagentStart minting
              (mapping.ensureTurn minting).1 subagent
          else (mapping.ensureTurn minting).2) := by
        split
        · exact opened.subagent_start subagent
        · exact opened
      apply Ensures.mono (Ensures.fold _ started ?_)
      · intro later inTurn
        obtain ⟨after, keeps⟩ := InTurn.keeps_turn ensured inTurn
        exact ⟨after, fun _ => keeps⟩
      · intro block member during held
        exact held.result_block subagent (List.all_eq_true.mp readable block member)

/-- A line whose subagent is settled leads on, and keeps the open turn unless it is a prompt. -/
theorem Leads.resolved (leads : Leads minting start mapping) (replays : Replays minting replay)
    (subagent : Option String) (readable : readableLine message = true) :
    Ensures (fun later => Leads minting start later ∧
        (closesTurn message = false → KeepsTurn mapping.state later.state)) OutOfFuel
      (mapping.mapResolved minting replay message subagent) := by
  unfold Mapping.mapResolved
  split
  · split
    · exact ⟨leads.emit_free _ _ _, fun _ _ isOpen => isOpen⟩
    · exact (leads.assistant replays subagent readable).mono
        (fun _ held => ⟨held.1, fun _ => held.2⟩)
  · rename_i isUser
    split
    · exact ⟨leads, fun _ _ isOpen => isOpen⟩
    · rename_i notMeta
      have real : isMetaMessage message = false := by simpa using notMeta
      split
      · rename_i content isContent
        exact leads.user_text subagent isContent isUser real
      · rename_i isContent
        exact leads.user_blocks subagent isContent isUser real readable
  · exact ⟨leads, fun _ _ isOpen => isOpen⟩

/-- Every line leads on, at any depth of replays, when it is readable and no prompt waits. -/
theorem map_line_leads (minting : Minting) (fuel : Nat) (message : Json) (state : MapperState)
    (quiet : Quiet state) (readable : readableLine message = true)
    (prompt : closesTurn message = true → waits state message = false) :
    Ensures (fun mapping => Leads minting state mapping ∧
        (closesTurn message = false → KeepsTurn state mapping.state)) OutOfFuel
      (mapLine minting fuel message state) := by
  induction fuel generalizing message state with
  | zero => exact rfl
  | succ fuel inductionHypothesis =>
    have replays : Replays minting (mapLine minting fuel) := by
      intro message state quiet readable plain
      apply (inductionHypothesis message state quiet readable (by simp [plain])).mono
      rintro mapping ⟨leads, keeps⟩
      exact ⟨leads, keeps plain⟩
    obtain ⟨prompts, resolved⟩ := resolve_state state message
    obtain ⟨uuids, remembered⟩ := remember_state (state.resolveProviderSubagent message).2 message
      (state.resolveProviderSubagent message).1
    have same : ((state.resolveProviderSubagent message).2.rememberSubagentForMessage message
        (state.resolveProviderSubagent message).1).turn = state.turn := by
      rw [remembered, resolved]
      rfl
    have kept : Quiet ((state.resolveProviderSubagent message).2.rememberSubagentForMessage message
        (state.resolveProviderSubagent message).1) := by
      rw [remembered, resolved]
      exact quiet
    have silent : Advances minting state ((state.resolveProviderSubagent message).2.rememberSubagentForMessage
        message (state.resolveProviderSubagent message).1) [] := by
      apply Advances.silent _ same
      rw [remembered, resolved]
    unfold mapLine
    simp only
    split
    · rename_i provider isProvider unknown
      have waiting : waits state message = true := by
        simpa [waits, isProvider] using unknown
      have plain : closesTurn message = false := by
        by_contra closes
        have settled := prompt (by simpa using closes)
        rw [waiting] at settled
        contradiction
      refine ⟨⟨buffer_quiet kept provider readable plain, silent.trans (Advances.silent (Nat.le_refl _) rfl)⟩, ?_⟩
      intro _ turn isOpen
      exact same.trans isOpen
    · apply (Leads.resolved ⟨kept, silent⟩ replays _ readable).mono
      rintro later ⟨leads, keeps⟩
      refine ⟨leads, ?_⟩
      intro plain turn isOpen
      exact keeps plain turn (same.trans isOpen)

end Kvy.Cli.Claude
