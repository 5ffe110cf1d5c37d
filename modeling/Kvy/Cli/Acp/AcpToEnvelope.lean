import Kvy.Cli.Acp.AcpRemote
import Kvy.Cli.Acp.PermissionHandler
import Kvy.Cli.Claude.EnvelopeMapper

/-!
# The mapper of an ACP session

Maps the updates of an ACP agent to session envelopes, in turns that are opened and closed around
a prompt. Text is held back until its run breaks; the start of a tool call is held back until the
arguments of the call are known. Both are written when the turn is closed.

A call that throws leaves the state as it is at that point, and none of its envelopes is returned.
Identifiers and times are drawn from the process, as in the transcript mapper; an identifier is
never empty, so one that is present counts as one.
-/

namespace Kvy.Cli.Acp

open General Wire
open Claude (Minting PickedRisk addTo)

/-- `PendingTextRun`. -/
structure PendingTextRun where
  turn : String
  subagent : Option String
  thinking : Bool
  messageId : Option String
  parts : List String

/-- `PendingToolStart`. -/
structure PendingToolStart where
  turn : String
  call : String
  subagent : Option String
  name : String
  title : Option String
  args : List (String × Json)
  risk : PickedRisk

/-- `AcpEnvelopeMapperState`. -/
structure AcpEnvelopeMapperState where
  currentTurnId : Option String
  providerIds : OrderedMap String String
  subagentByCall : OrderedMap String String
  startedSubagents : List String
  activeSubagents : List String
  pendingText : Option PendingTextRun
  pendingToolStarts : OrderedMap String PendingToolStart
  issued : Nat

/-- `createAcpEnvelopeMapperState`. -/
def createAcpEnvelopeMapperState : AcpEnvelopeMapperState :=
  ⟨none, .empty, .empty, [], [], none, .empty, 0⟩

/-- `clearMapperState`. -/
def clearMapperState (state : AcpEnvelopeMapperState) : AcpEnvelopeMapperState :=
  { state with
    providerIds := .empty
    subagentByCall := .empty
    startedSubagents := []
    activeSubagents := []
    pendingText := none
    pendingToolStarts := .empty }

/-! ## Reading an update -/

/-- `pickToolCallId`. -/
def pickToolCallId (update : Json) : Option String := pickString (update.field? "toolCallId")

/-- `pickParentToolUseId`. -/
def pickParentToolUseId (update : Json) : Option String :=
  pickString (recordField "parentToolUseId" (recordField "claudeCode" (update.field? "_meta")))

/-- `pickContentText`. -/
def pickContentText (content : Option Json) : Option String :=
  if Schema.string (recordField "type" content) = some "text" then
    Schema.string (recordField "text" content)
  else none

/-- `isPlanStepStatus`. -/
def planStepStatus : Schema.Reader PlanStatus :=
  Schema.enum [("pending", .pending), ("in_progress", .inProgress), ("completed", .completed)]

/-- `pickPlanSteps`. -/
def pickPlanSteps : Option Json → List PlanStep
  | some (.arr entries) => entries.filterMap (fun entry => do
      let text ← pickString (entry.field? "content")
      let status ← planStepStatus (entry.field? "status")
      return ⟨text, status⟩)
  | _ => []

/-- `RISK_BY_KIND`. -/
def riskByKind : List (String × ToolRisk) :=
  [("read", .read), ("search", .read), ("edit", .write), ("delete", .write), ("move", .write),
    ("execute", .exec), ("fetch", .network)]

/-- `pickRisk`. An inherited property is no risk, but it is not absent either. -/
def pickAcpRisk (update : Json) : PickedRisk :=
  match pickString (update.field? "kind") with
  | none => .absent
  | some kind =>
    match riskByKind.lookup kind with
    | some risk => .risk risk
    | none => if (inheritedProperties.lookup kind).isSome then .inherited else .absent

/-- `pickContentSummary`. -/
def pickContentSummary : Option Json → Option String
  | some (.arr blocks) =>
    let parts := blocks.filterMap (fun block =>
      (pickContentText (block.field? "content")).filter (· ≠ ""))
    if parts.isEmpty then none else some ("\n".intercalate parts)
  | _ => none

/-- `pickToolOutput`. -/
def pickToolOutput (update : Json) : Option Json :=
  (update.field? "rawOutput").or ((pickContentSummary (update.field? "content")).map .str)

/-- `isTerminalStatus`. -/
def isTerminalStatus (status : Option String) : Bool :=
  status = some "completed" || status = some "failed"

/-- `hasArgs`. -/
def hasArgs (args : List (String × Json)) : Bool := !args.isEmpty

/-! ## Envelopes -/

/-- The state and the envelopes that the call under way has pushed. -/
structure Mapping where
  state : AcpEnvelopeMapperState
  envelopes : List SessionEnvelope

/-- A call that may throw. -/
abbrev Result := Except AcpEnvelopeMapperState Mapping

namespace Mapping
variable (minting : Minting)

/-- Push a new envelope of a turn. -/
def emit (mapping : Mapping) (turn : String) (subagent : Option String) (ev : SessionEvent) :
    Mapping where
  state := { mapping.state with issued := mapping.state.issued + 1 }
  envelopes := mapping.envelopes ++ [{
    id := minting.createId mapping.state.issued
    time := minting.now mapping.state.issued
    role := .agent
    turn := some turn
    subagent := subagent
    ev := ev }]

/-- `mintedId`. -/
def mintedId (mapping : Mapping) (providerId : String) : String × Mapping :=
  match mapping.state.providerIds.get? providerId with
  | some existing => (existing, mapping)
  | none =>
    let minted := minting.createId mapping.state.issued
    (minted, { mapping with state := { mapping.state with
      issued := mapping.state.issued + 1
      providerIds := mapping.state.providerIds.set providerId minted } })

/-- `maybeEmitSubagentStart`. -/
def maybeEmitSubagentStart (mapping : Mapping) (turn : String) : Option String → Mapping
  | none => mapping
  | some subagent =>
    if subagent ∈ mapping.state.startedSubagents then mapping
    else
      let started := mapping.emit minting turn (some subagent) .subStart
      { started with state := { started.state with
          startedSubagents := addTo started.state.startedSubagents subagent
          activeSubagents := addTo started.state.activeSubagents subagent } }

/-- `maybeEmitSubagentStop`. -/
def maybeEmitSubagentStop (mapping : Mapping) (turn subagent : String) : Mapping :=
  if subagent ∈ mapping.state.activeSubagents then
    let stopped := mapping.emit minting turn (some subagent) .subStop
    { stopped with state := { stopped.state with
        activeSubagents := stopped.state.activeSubagents.filter (· ≠ subagent) } }
  else mapping

/-- `emitActiveSubagentStops`. -/
def emitActiveSubagentStops (mapping : Mapping) (turn : String) : Mapping :=
  let stopped := mapping.state.activeSubagents.foldl
    (fun mapping subagent => mapping.emit minting turn (some subagent) .subStop) mapping
  { stopped with state := { stopped.state with activeSubagents := [] } }

/-- `emitPendingToolStart`. An inherited risk does not fit the schema of the event; the identifier
of the envelope is drawn before that shows. -/
def emitPendingToolStart (mapping : Mapping) (pending : PendingToolStart) : Result :=
  let dropped := { mapping with state := { mapping.state with
    pendingToolStarts := mapping.state.pendingToolStarts.delete pending.call } }
  let started := dropped.maybeEmitSubagentStart minting pending.turn pending.subagent
  let toolStart (risk : Option ToolRisk) : SessionEvent :=
    .toolStart pending.call pending.name pending.title (some (.obj pending.args)) risk
  match pending.risk with
  | .inherited => .error { started.state with issued := started.state.issued + 1 }
  | .absent => .ok (started.emit minting pending.turn pending.subagent (toolStart none))
  | .risk risk => .ok (started.emit minting pending.turn pending.subagent (toolStart (some risk)))

/-- `flushPendingToolStarts`. -/
def flushPendingToolStarts (mapping : Mapping) : Result :=
  (mapping.state.pendingToolStarts.entries.map Prod.snd).foldlM (emitPendingToolStart minting) mapping

/-- `flushPendingText`. -/
def flushPendingText (mapping : Mapping) : Mapping :=
  match mapping.state.pendingText with
  | none => mapping
  | some run =>
    let cleared := { mapping with state := { mapping.state with pendingText := none } }
    let md := String.join run.parts
    if md = "" then cleared
    else
      (cleared.maybeEmitSubagentStart minting run.turn run.subagent).emit minting run.turn
        run.subagent (.text md (if run.thinking then some true else none))

/-- `resolveEnvelopeSubagent`. -/
def resolveEnvelopeSubagent (mapping : Mapping) (update : Json) : Option String × Mapping :=
  match pickParentToolUseId update, pickToolCallId update with
  | some parentProviderId, some toolCallId =>
    let (subagent, mapping) := mapping.mintedId minting parentProviderId
    let (call, mapping) := mapping.mintedId minting toolCallId
    (some subagent, { mapping with state := { mapping.state with
      subagentByCall := mapping.state.subagentByCall.set call subagent } })
  | some parentProviderId, none =>
    let (subagent, mapping) := mapping.mintedId minting parentProviderId
    (some subagent, mapping)
  | none, some toolCallId =>
    let (call, mapping) := mapping.mintedId minting toolCallId
    (mapping.state.subagentByCall.get? call, mapping)
  | none, none => (none, mapping)

/-! ## Updates -/

/-- A chunk is appended to a run of its own turn, scope, kind and message. -/
def continues (run : PendingTextRun) (turn : String) (subagent : Option String) (thinking : Bool)
    (messageId : Option String) : Bool :=
  run.turn = turn && run.subagent = subagent && run.thinking = thinking && run.messageId = messageId

/-- A chunk of text, in a turn. -/
def addText (mapping : Mapping) (turn : String) (subagent : Option String) (thinking : Bool)
    (messageId : Option String) (text : String) : Mapping :=
  match mapping.state.pendingText.filter (continues · turn subagent thinking messageId) with
  | some run =>
    { mapping with state := { mapping.state with
      pendingText := some { run with parts := run.parts ++ [text] } } }
  | none =>
    let flushed := mapping.flushPendingText minting
    { flushed with state := { flushed.state with
      pendingText := some { turn, subagent, thinking, messageId, parts := [text] } } }

/-- `handleTextChunk`. -/
def handleTextChunk (mapping : Mapping) (update : Json) (thinking : Bool) : Mapping :=
  match mapping.state.currentTurnId, pickContentText (update.field? "content") with
  | some turn, some text =>
    let (subagent, mapping) := mapping.resolveEnvelopeSubagent minting update
    mapping.addText minting turn subagent thinking (pickString (update.field? "messageId")) text
  | _, _ => mapping

/-- `handlePlan`. -/
def handlePlan (mapping : Mapping) (update : Json) : Mapping :=
  match mapping.state.currentTurnId with
  | none => mapping
  | some turn =>
    let (subagent, mapping) := mapping.resolveEnvelopeSubagent minting update
    mapping.emit minting turn subagent (.plan (pickPlanSteps (update.field? "entries")))

/-- Buffer the start of a tool call. -/
def hold (mapping : Mapping) (pending : PendingToolStart) : Mapping :=
  { mapping with state := { mapping.state with
    pendingToolStarts := mapping.state.pendingToolStarts.set pending.call pending } }

/-- The start of a tool call, as far as its announcement tells. -/
def announcedStart (turn call : String) (subagent : Option String) (update : Json) :
    PendingToolStart where
  turn := turn
  call := call
  subagent := subagent
  name := pickAcpToolName update
  title := pickString (update.field? "title")
  args := pickAcpToolArgs update
  risk := pickAcpRisk update

/-- `handleToolCall`. -/
def handleToolCall (mapping : Mapping) (update : Json) : Result :=
  match mapping.state.currentTurnId, pickToolCallId update with
  | some turn, some toolCallId =>
    let flushed := mapping.flushPendingText minting
    let (subagent, resolved) := flushed.resolveEnvelopeSubagent minting update
    let (call, minted) := resolved.mintedId minting toolCallId
    let pending := announcedStart turn call subagent update
    let held := minted.hold pending
    if hasArgs pending.args then held.emitPendingToolStart minting pending else .ok held
  | _, _ => .ok mapping

end Mapping

/-- `refinePendingToolStart`. -/
def refinePendingToolStart (pending : PendingToolStart) (update : Json) : PendingToolStart :=
  let args := pickAcpToolArgs update
  { pending with
    args := if hasArgs args then args else pending.args
    title := (pickString (update.field? "title")).or pending.title
    risk := match pending.risk with
      | .absent => pickAcpRisk update
      | known => known
    name := if pending.name = "tool" then (pickClaudeCodeToolName update).getD pending.name
      else pending.name }

namespace Mapping
variable (minting : Minting)

/-- An update of a tool call that does not end it. -/
def refineToolCall (mapping : Mapping) (update : Json) (call : String) : Result :=
  match mapping.state.pendingToolStarts.get? call with
  | none => .ok mapping
  | some pending =>
    let refined := refinePendingToolStart pending update
    let held := mapping.hold refined
    if hasArgs refined.args then (held.flushPendingText minting).emitPendingToolStart minting refined
    else .ok held

/-- The start of a tool call that ends, where it is still buffered. -/
def startBeforeEnd (mapping : Mapping) (update : Json) (call : String) : Result :=
  match mapping.state.pendingToolStarts.get? call with
  | none => .ok mapping
  | some pending =>
    let refined := refinePendingToolStart pending update
    (mapping.hold refined).emitPendingToolStart minting refined

/-- The end of a tool call. -/
def endToolCall (mapping : Mapping) (update : Json) (turn call : String) (ok : Bool) : Mapping :=
  let stopped := mapping.maybeEmitSubagentStop minting turn call
  let (subagent, resolved) := stopped.resolveEnvelopeSubagent minting update
  resolved.emit minting turn subagent (.toolEnd call ok (pickToolOutput update))

/-- `handleToolCallUpdate`. -/
def handleToolCallUpdate (mapping : Mapping) (update : Json) : Result :=
  match mapping.state.currentTurnId, pickToolCallId update with
  | some turn, some toolCallId =>
    let (call, minted) := mapping.mintedId minting toolCallId
    let status := pickString (update.field? "status")
    if isTerminalStatus status then do
      let started ← (minted.flushPendingText minting).startBeforeEnd minting update call
      return started.endToolCall minting update turn call (status = some "completed")
    else minted.refineToolCall minting update call
  | _, _ => .ok mapping

/-- The end of a turn whose subagents have stopped. -/
def endTurn (mapping : Mapping) (turn : String) (status : TurnStatus) : Mapping :=
  let ended := mapping.emit minting turn none (.turnEnd status)
  { ended with state := clearMapperState { ended.state with currentTurnId := none } }

/-- Closing a turn that is open. -/
def closeTurn (mapping : Mapping) (turn : String) (status : TurnStatus) : Result := do
  let flushed ← (mapping.flushPendingText minting).flushPendingToolStarts minting
  return (flushed.emitActiveSubagentStops minting turn).endTurn minting turn status

end Mapping

variable (minting : Minting)

/-- `startAcpTurn`. -/
def startAcpTurn (state : AcpEnvelopeMapperState) : Mapping :=
  let turnId := minting.createId state.issued
  Mapping.emit minting ⟨{ state with issued := state.issued + 1, currentTurnId := some turnId }, []⟩
    turnId none .turnStart

/-- `closeAcpTurnWithStatus`. -/
def closeAcpTurnWithStatus (state : AcpEnvelopeMapperState) (status : TurnStatus) : Result :=
  match state.currentTurnId with
  | none => .ok ⟨state, []⟩
  | some turn => Mapping.closeTurn minting ⟨state, []⟩ turn status

/-- `endAcpTurn`. -/
def endAcpTurn (state : AcpEnvelopeMapperState) (stopReason : String) : Result :=
  closeAcpTurnWithStatus minting state (mapAcpStopReasonToTurnStatus stopReason)

/-- `flushAcpText`. -/
def flushAcpText (state : AcpEnvelopeMapperState) : Mapping :=
  Mapping.flushPendingText minting ⟨state, []⟩

/-- `mapAcpUpdateToEnvelopes`. What is not mapped is dropped. -/
def mapAcpUpdateToEnvelopes (update : Json) (state : AcpEnvelopeMapperState) : Result :=
  let mapping : Mapping := ⟨state, []⟩
  match Schema.string (update.field? "sessionUpdate") with
  | some "agent_message_chunk" => .ok (mapping.handleTextChunk minting update false)
  | some "agent_thought_chunk" => .ok (mapping.handleTextChunk minting update true)
  | some "tool_call" => mapping.handleToolCall minting update
  | some "tool_call_update" => mapping.handleToolCallUpdate minting update
  | some "plan" => .ok (mapping.handlePlan minting update)
  | _ => .ok mapping

end Kvy.Cli.Acp
