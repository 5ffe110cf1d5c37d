import Kvy.Cli.Claude.TranscriptLine

/-!
# The transcript mapper

Maps the lines of a Claude Code transcript to session envelopes. The state carries the open
turn, the identities minted for tool calls and subagents, and the lines that wait for the
tool call they descend from: mapping that tool call replays them, from inside the mapping of
its own line.

A line whose mapping throws leaves the state as it is at that point, and none of its
envelopes is returned. Identifiers and times are drawn from the process: `issued` counts the
draws. The recursion is bounded by fuel, which the number of waiting lines suffices for.
-/

namespace Kvy.Cli.Claude

open General Wire

/-- Where a process draws its identifiers and times from. -/
structure Minting where
  createId : Nat → String
  now : Nat → Decimal
  injective : Function.Injective createId
  nonEmpty : ∀ draw, createId draw ≠ ""

/-- `ClaudeEnvelopeMapperState`. -/
structure MapperState where
  currentTurnId : Option String
  uuidToProviderSubagent : OrderedMap String String
  taskPromptToProviderSubagents : OrderedMap String (List String)
  providerCallIds : OrderedMap String String
  providerSubagentIds : OrderedMap String String
  bufferedSubagentMessages : OrderedMap String (List Json)
  hiddenParentToolCalls : List String
  startedSubagents : List String
  activeSubagents : List String
  issued : Nat

/-- `createClaudeEnvelopeMapperState`. -/
def createClaudeEnvelopeMapperState : MapperState :=
  ⟨none, .empty, .empty, .empty, .empty, .empty, [], [], [], 0⟩

/-- The state and the envelopes that the call under way has pushed. -/
structure Mapping where
  state : MapperState
  envelopes : List SessionEnvelope

/-- Why a mapping does not return: it throws, or the fuel of the model is used up. -/
inductive Failure where
  | thrown (state : MapperState)
  | exhausted

/-- A step of a mapping that may throw. -/
abbrev Result := Except Failure Mapping

/-- Add to a set. -/
def addTo (members : List String) (member : String) : List String :=
  if member ∈ members then members else members ++ [member]

namespace MapperState

/-! ## Task prompts -/

/-- `queueTaskPromptSubagent`, for a prompt that is normalized. -/
def queueTaskPromptSubagent (state : MapperState) (prompt providerSubagent : String) : MapperState :=
  let queue := (state.taskPromptToProviderSubagents.get? prompt).getD []
  { state with taskPromptToProviderSubagents :=
      state.taskPromptToProviderSubagents.set prompt (addTo queue providerSubagent) }

/-- The state after the first of a prompt's queue is taken. -/
def shiftTaskPrompt (state : MapperState) (prompt : String) (rest : List String) : MapperState :=
  { state with taskPromptToProviderSubagents :=
      if rest.isEmpty then state.taskPromptToProviderSubagents.delete prompt
      else state.taskPromptToProviderSubagents.set prompt rest }

/-- `consumeTaskPromptSubagent`. -/
def consumeTaskPromptSubagent (state : MapperState) (prompt : String) :
    Option String × MapperState :=
  match state.taskPromptToProviderSubagents.get? prompt with
  | some (providerSubagent :: rest) => (some providerSubagent, state.shiftTaskPrompt prompt rest)
  | _ => (none, state)

/-- `consumeSinglePendingTaskSubagent`. -/
def consumeSinglePendingTaskSubagent (state : MapperState) : Option String × MapperState :=
  match state.taskPromptToProviderSubagents.entries.filter (fun entry => !entry.2.isEmpty) with
  | [(prompt, providerSubagent :: rest)] =>
    if prompt = "" ∨ providerSubagent = "" then (none, state)
    else (some providerSubagent, state.shiftTaskPrompt prompt rest)
  | _ => (none, state)

/-! ## Subagent scopes -/

/-- `resolveProviderSubagent`. -/
def resolveProviderSubagent (message : Json) (state : MapperState) : Option String × MapperState :=
  match pickExplicitProviderSubagent message with
  | some explicit => (some explicit, state)
  | none =>
    let parentUuid := pickParentUuid message
    match (parentUuid.bind state.uuidToProviderSubagent.get?).filter (· ≠ "") with
    | some inherited => (some inherited, state)
    | none =>
      if isSidechainMessage message then
        let (matched, state) := (pickSidechainRootPrompt message).elim (none, state)
          state.consumeTaskPromptSubagent
        match matched.filter (· ≠ ""), parentUuid with
        | some subagent, _ => (some subagent, state)
        | none, none => state.consumeSinglePendingTaskSubagent
        | none, some _ => (none, state)
      else (none, state)

/-- `lookupSubagentId`, where an empty id counts as none. -/
def lookupSubagentId (state : MapperState) (providerSubagent : String) : Option String :=
  (state.providerSubagentIds.get? providerSubagent).filter (· ≠ "")

/-- `rememberSubagentForMessage`. -/
def rememberSubagentForMessage (message : Json) (state : MapperState) :
    Option String → MapperState
  | none => state
  | some providerSubagent =>
    (pickUuid message).elim state (fun uuid =>
      { state with uuidToProviderSubagent := state.uuidToProviderSubagent.set uuid providerSubagent })

/-- `bufferForSubagent`. -/
def bufferForSubagent (state : MapperState) (providerSubagent : String) (message : Json) :
    MapperState :=
  let queue := (state.bufferedSubagentMessages.get? providerSubagent).getD []
  { state with bufferedSubagentMessages :=
      state.bufferedSubagentMessages.set providerSubagent (queue ++ [message]) }

/-- `consumeBufferedMessages`. -/
def consumeBufferedMessages (state : MapperState) (providerSubagent : String) :
    List Json × MapperState :=
  ((state.bufferedSubagentMessages.get? providerSubagent).getD [],
    { state with bufferedSubagentMessages := state.bufferedSubagentMessages.delete providerSubagent })

/-- The open turn, where an empty id counts as none. -/
def turn (state : MapperState) : Option String := state.currentTurnId.filter (· ≠ "")

/-- `clearSubagentTracking`. -/
def clearSubagentTracking (state : MapperState) : MapperState :=
  { state with
    uuidToProviderSubagent := .empty
    taskPromptToProviderSubagents := .empty
    providerCallIds := .empty
    providerSubagentIds := .empty
    bufferedSubagentMessages := .empty
    hiddenParentToolCalls := []
    startedSubagents := []
    activeSubagents := [] }

/-- Draw an identifier. -/
def createId (minting : Minting) (state : MapperState) : String × MapperState :=
  (minting.createId state.issued, { state with issued := state.issued + 1 })

end MapperState

namespace Mapping
variable (minting : Minting)

/-- Push a new envelope. -/
def emit (mapping : Mapping) (role : SessionRole) (ev : SessionEvent) (turn subagent : Option String) :
    Mapping where
  state := { mapping.state with issued := mapping.state.issued + 1 }
  envelopes := mapping.envelopes ++ [{
    id := minting.createId mapping.state.issued
    time := minting.now mapping.state.issued
    role := role
    turn := turn
    subagent := subagent
    ev := ev }]

/-- Push an agent's event of a turn. -/
def emitIn (mapping : Mapping) (turn : String) (subagent : Option String) (ev : SessionEvent) : Mapping :=
  mapping.emit minting .agent ev (some turn) subagent

/-- `mintedId` on the table of calls. -/
def mintedCall (mapping : Mapping) (providerId : String) : String × Mapping :=
  match (mapping.state.providerCallIds.get? providerId).filter (· ≠ "") with
  | some existing => (existing, mapping)
  | none =>
    let (minted, state) := mapping.state.createId minting
    (minted, { mapping with
      state := { state with providerCallIds := state.providerCallIds.set providerId minted } })

/-- `mintedId` on the table of subagents. -/
def mintSubagent (mapping : Mapping) (providerId : String) : Mapping :=
  match (mapping.state.providerSubagentIds.get? providerId).filter (· ≠ "") with
  | some _ => mapping
  | none =>
    let (minted, state) := mapping.state.createId minting
    { mapping with
      state := { state with providerSubagentIds := state.providerSubagentIds.set providerId minted } }

/-- `ensureTurn`. -/
def ensureTurn (mapping : Mapping) : String × Mapping :=
  match mapping.state.turn with
  | some turn => (turn, mapping)
  | none =>
    let (turnId, state) := mapping.state.createId minting
    let started := { mapping with state := state }.emitIn minting turnId none .turnStart
    (turnId, { started with state := { started.state with currentTurnId := some turnId } })

/-- `maybeEmitSubagentStart`. -/
def maybeEmitSubagentStart (mapping : Mapping) (turn : String) : Option String → Mapping
  | none => mapping
  | some subagent =>
    if subagent ∈ mapping.state.startedSubagents then mapping
    else
      let started := mapping.emitIn minting turn (some subagent) .subStart
      { started with state := { started.state with
          startedSubagents := addTo started.state.startedSubagents subagent
          activeSubagents := addTo started.state.activeSubagents subagent } }

/-- `maybeEmitSubagentStop`. -/
def maybeEmitSubagentStop (mapping : Mapping) (turn subagent : String) : Mapping :=
  if subagent ∈ mapping.state.activeSubagents then
    let stopped := mapping.emitIn minting turn (some subagent) .subStop
    { stopped with state := { stopped.state with
        activeSubagents := stopped.state.activeSubagents.filter (· ≠ subagent) } }
  else mapping

/-- `emitActiveSubagentStops`. -/
def emitActiveSubagentStops (mapping : Mapping) (turn : String) : Mapping :=
  let stopped := mapping.state.activeSubagents.foldl
    (fun mapping subagent => mapping.emitIn minting turn (some subagent) .subStop) mapping
  { stopped with state := { stopped.state with activeSubagents := [] } }

/-- `closeTurn`. -/
def closeTurn (mapping : Mapping) (status : TurnStatus) : Mapping :=
  match mapping.state.turn with
  | none => mapping
  | some turn =>
    let ended := (mapping.emitActiveSubagentStops minting turn).emitIn minting turn none (.turnEnd status)
    { ended with state := { ended.state with currentTurnId := none }.clearSubagentTracking }

/-! ## Blocks -/

/-- Map waiting lines in place, one after the other. -/
def replayAll (replay : Json → MapperState → Result) (messages : List Json) (mapping : Mapping) : Result :=
  messages.foldlM (fun mapping message => do
    let replayed ← replay message mapping.state
    return ⟨replayed.state, mapping.envelopes ++ replayed.envelopes⟩) mapping

/-- Replay the lines that wait for a tool call. -/
def flush (replay : Json → MapperState → Result) (mapping : Mapping) (providerCallId : String) : Result :=
  let (messages, state) := mapping.state.consumeBufferedMessages providerCallId
  replayAll replay messages { mapping with state := state }

/-- The provider's id of a tool call, or a new one. -/
def pickCallId (mapping : Mapping) (block : Json) : String × Mapping :=
  match nonEmptyString (block.field? "id") with
  | some id => (id, mapping)
  | none =>
    let (id, state) := mapping.state.createId minting
    (id, { mapping with state := state })

/-- A `tool_use` block. -/
def mapToolUse (replay : Json → MapperState → Result) (turnId : String) (subagent : Option String)
    (mapping : Mapping) (block : Json) : Result :=
  let (providerCallId, mapping) := mapping.pickCallId minting block
  let name := (nonEmptyString (block.field? "name")).getD "unknown"
  let input := block.field? "input"
  let mapping := mapping.mintSubagent minting providerCallId
  if name = "Task" then
    let state := (pickTaskPrompt input).elim mapping.state
      (fun prompt => mapping.state.queueTaskPromptSubagent prompt providerCallId)
    let hidden := { mapping with state := { state with
      hiddenParentToolCalls := addTo state.hiddenParentToolCalls providerCallId } }
    hidden.flush replay providerCallId
  else
    let (call, mapping) := mapping.mintedCall minting providerCallId
    let toolStart (risk : Option ToolRisk) : SessionEvent :=
      .toolStart call name (some (toolTitle name input)) (some (toToolArgs input)) risk
    match pickRisk name with
    -- the event does not fit its schema; its identifier is drawn before that shows
    | .inherited => .error (.thrown { mapping.state with issued := mapping.state.issued + 1 })
    | .absent => (mapping.emitIn minting turnId subagent (toolStart none)).flush replay providerCallId
    | .risk risk =>
      (mapping.emitIn minting turnId subagent (toolStart (some risk))).flush replay providerCallId

/-- A content block of an assistant line. -/
def mapAssistantBlock (replay : Json → MapperState → Result) (turnId : String)
    (subagent : Option String) (mapping : Mapping) : Json → Result
  | .null => .error (.thrown mapping.state)
  | block =>
    match typeOf block, Schema.string (block.field? "text"), Schema.string (block.field? "thinking") with
    | some "text", some text, _ => .ok (mapping.emitIn minting turnId subagent (.text text none))
    | some "thinking", _, some thinking =>
      .ok (mapping.emitIn minting turnId subagent (.text thinking (some true)))
    | some "tool_use", _, _ => mapping.mapToolUse minting replay turnId subagent block
    | _, _, _ => .ok mapping

/-- An assistant line. -/
def mapAssistant (replay : Json → MapperState → Result) (message : Json) (subagent : Option String)
    (mapping : Mapping) : Result := do
  let (turnId, mapping) := mapping.ensureTurn minting
  let mapping := mapping.maybeEmitSubagentStart minting turnId subagent
  let mapping ← (pickContentBlocks message).foldlM
    (fun mapping block => mapping.mapAssistantBlock minting replay turnId subagent block) mapping
  return (pickUsage message).elim mapping (fun (inputTokens, outputTokens) =>
    mapping.emitIn minting turnId subagent (.usage inputTokens outputTokens none))

/-- An image inside the output of a tool. -/
def mapNestedImage (turnId : String) (subagent : Option String) (mapping : Mapping) : Json → Result
  | .null => .error (.thrown mapping.state)
  | nested =>
    .ok (if typeOf nested = some "image" then
      (imageEvent nested).elim mapping (mapping.emitIn minting turnId subagent)
    else mapping)

/-- A `tool_result` block. -/
def mapToolResult (turnId : String) (subagent : Option String) (mapping : Mapping) (block : Json) :
    Result :=
  match nonEmptyString (block.field? "tool_use_id") with
  | none => .ok mapping
  | some providerCallId =>
    let stopped := (mapping.state.lookupSubagentId providerCallId).elim mapping
      (mapping.maybeEmitSubagentStop minting turnId)
    if providerCallId ∈ mapping.state.hiddenParentToolCalls then
      .ok { stopped with state := { stopped.state with
        hiddenParentToolCalls := stopped.state.hiddenParentToolCalls.filter (· ≠ providerCallId) } }
    else
      let (call, mapping) := stopped.mintedCall minting providerCallId
      let content := block.field? "content"
      let ended := mapping.emitIn minting turnId subagent
        (.toolEnd call (!isTrue (block.field? "is_error")) content)
      match content with
      | some (.arr nested) => nested.foldlM (mapNestedImage minting turnId subagent) ended
      | _ => .ok ended

/-- A content block of a user line that reports to the agent. -/
def mapResultBlock (turnId : String) (subagent : Option String) (mapping : Mapping) : Json → Result
  | .null => .error (.thrown mapping.state)
  | block =>
    match typeOf block, Schema.string (block.field? "text") with
    | some "tool_result", _ => mapping.mapToolResult minting turnId subagent block
    | some "text", some text =>
      .ok (if (normalizePrompt text).isSome then
        mapping.emitIn minting turnId subagent (.text text none)
      else mapping)
    | some "image", _ => .ok ((imageEvent block).elim mapping (mapping.emitIn minting turnId subagent))
    | _, _ => .ok mapping

/-- A content block of a user's own prompt. -/
def mapPromptBlock (mapping : Mapping) (block : Json) : Mapping :=
  match typeOf block, Schema.string (block.field? "text") with
  | some "text", some text =>
    if (normalizePrompt text).isSome then mapping.emit minting .user (.text text none) none none
    else mapping
  | some "image", _ =>
    (imageEvent block).elim mapping (fun ev => mapping.emit minting .user ev none none)
  | _, _ => mapping

end Mapping

/-- Whether some block is a tool's result; absent when a `null` is met before one. -/
def someToolResult : List Json → Option Bool
  | [] => some false
  | .null :: _ => none
  | block :: rest => if typeOf block = some "tool_result" then some true else someToolResult rest

namespace Mapping
variable (minting : Minting)

/-- A user line whose content is text. -/
def mapUserText (message : Json) (subagent : Option String) (mapping : Mapping) (content : String) :
    Mapping :=
  match extractLocalCommandStdout content with
  | some stdout =>
    mapping.emit minting .agent (.service (String.ofList (normalizeTranscriptText stdout))) none none
  | none =>
    if isLocalCommandInvocation content then mapping
    else if isSidechainMessage message then
      let (turnId, mapping) := mapping.ensureTurn minting
      (mapping.maybeEmitSubagentStart minting turnId subagent).emitIn minting turnId subagent
        (.text content none)
    else (mapping.closeTurn minting .completed).emit minting .user (.text content none) none none

/-- A user line whose content is blocks. -/
def mapUserBlocks (message : Json) (subagent : Option String) (mapping : Mapping) (blocks : List Json) :
    Result :=
  if blocks.isEmpty then .ok mapping
  else
    match someToolResult blocks with
    | none => .error (.thrown mapping.state)
    | some hasToolResult =>
      let sidechain := isSidechainMessage message
      if !sidechain && !hasToolResult then
        .ok (blocks.foldl (mapPromptBlock minting) (mapping.closeTurn minting .completed))
      else
        let (turnId, mapping) := mapping.ensureTurn minting
        let started := if sidechain then mapping.maybeEmitSubagentStart minting turnId subagent
          else mapping
        blocks.foldlM (mapResultBlock minting turnId subagent) started

/-- A line whose subagent is known, or that has none. -/
def mapResolved (replay : Json → MapperState → Result) (message : Json) (subagent : Option String)
    (mapping : Mapping) : Result :=
  match typeOf message with
  | some "assistant" =>
    if isCompactSummaryMessage message then
      .ok (mapping.emit minting .agent (.service "History compacted (/clear)") none none)
    else mapping.mapAssistant minting replay message subagent
  | some "user" =>
    if isMetaMessage message then .ok mapping
    else
      match Schema.string (pickMessageContent message) with
      | some content => .ok (mapping.mapUserText minting message subagent content)
      | none => mapping.mapUserBlocks minting message subagent (pickContentBlocks message)
  | _ => .ok mapping

end Mapping

/-- `mapClaudeToEnvelopes`, to a depth of replays bounded by the fuel. -/
def mapLine (minting : Minting) : Nat → Json → MapperState → Result
  | 0, _, _ => .error .exhausted
  | fuel + 1, message, state =>
    let (providerSubagent, state) := state.resolveProviderSubagent message
    let subagent := providerSubagent.bind state.lookupSubagentId
    let state := state.rememberSubagentForMessage message providerSubagent
    match providerSubagent, subagent with
    | some provider, none => .ok ⟨state.bufferForSubagent provider message, []⟩
    | _, _ => Mapping.mapResolved minting (mapLine minting fuel) message subagent ⟨state, []⟩

/-- The lines that wait. -/
def MapperState.buffered (state : MapperState) : List Json :=
  state.bufferedSubagentMessages.entries.flatMap Prod.snd

/-- `mapClaudeToEnvelopes`. -/
def mapClaudeToEnvelopes (minting : Minting) (message : Json) (state : MapperState) : Result :=
  mapLine minting (state.buffered.length + 1) message state

/-- `closeClaudeTurnWithStatus`. -/
def closeClaudeTurnWithStatus (minting : Minting) (state : MapperState) (status : TurnStatus) : Mapping :=
  Mapping.closeTurn minting ⟨state, []⟩ status

end Kvy.Cli.Claude
