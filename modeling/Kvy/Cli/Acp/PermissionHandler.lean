import Kvy.Cli.Permissions.Ledger
import Kvy.General.Text

/-!
# Permission requests of an ACP agent

The agent asks with a list of options and waits for one of them. A request is answered by a
decision from the web, given up when the agent aborts it, or settled by a reset. What is told
to the agent is one of its options, or that the request was cancelled.
-/

namespace Kvy.Cli.Acp

open General Wire Permissions

/-! ## What the request is about -/

/-- `pickString`. -/
def pickString : Option Json → Option String
  | some (.str value) =>
    let trimmed := Text.trimString value
    if trimmed = "" then none else some trimmed
  | _ => none

/-- A field of a value that is a record. -/
def recordField (name : String) (value : Option Json) : Option Json := value.bind (Json.field? name)

/-- `pickClaudeCodeToolName`. -/
def pickClaudeCodeToolName (update : Json) : Option String :=
  pickString (recordField "toolName" (recordField "claudeCode" (update.field? "_meta")))

/-- `pickAcpToolName`. -/
def pickAcpToolName (update : Json) : String :=
  ((pickClaudeCodeToolName update).or (pickString (update.field? "kind"))).getD "tool"

/-- `pickAcpToolArgs`. -/
def pickAcpToolArgs (update : Json) : List (String × Json) :=
  match update.field? "rawInput" with
  | some (.obj fields) => fields
  | _ => []

/-! ## Options -/

/-- The kinds of an option. -/
inductive PermissionOptionKind where
  | allowOnce
  | allowAlways
  | rejectOnce
  | rejectAlways
deriving DecidableEq

/-- `PermissionOption`. -/
structure PermissionOption where
  optionId : String
  kind : PermissionOptionKind
deriving DecidableEq

/-- The outcome of a `RequestPermissionResponse`. -/
inductive PermissionOutcome where
  | cancelled
  | selected (optionId : String)
deriving DecidableEq

/-- `findOption`. -/
def findOption (options : List PermissionOption) (preferredKinds : List PermissionOptionKind) :
    Option PermissionOption :=
  preferredKinds.findSome? (fun kind => options.find? (fun option => option.kind = kind))

/-- The outcome for an option, or a cancellation where there is none. -/
def outcomeOf : Option PermissionOption → PermissionOutcome
  | none => .cancelled
  | some option => .selected option.optionId

/-- The outcome that `mapDecision` returns. -/
def mapDecision (options : List PermissionOption) : PermDecision → PermissionOutcome
  | .allow .session _ => outcomeOf (findOption options [.allowAlways, .allowOnce])
  | .allow .once _ => outcomeOf (findOption options [.allowOnce, .allowAlways])
  | .deny _ => outcomeOf (findOption options [.rejectOnce, .rejectAlways])
  | .mode _ => outcomeOf (findOption options [.allowOnce, .allowAlways])

/-- `isRejectSelection`. -/
def isRejectSelection (options : List PermissionOption) : PermissionOutcome → Bool
  | .cancelled => false
  | .selected selectedId =>
    match options.find? (fun option => option.optionId = selectedId) with
    | none => false
    | some option => option.kind = .rejectOnce || option.kind = .rejectAlways

/-! ## The handler -/

/-- `PendingAcpRequest`. -/
structure PendingAcpRequest where
  toolName : String
  input : List (String × Json)
  options : List PermissionOption

/-- `AcpPermissionHandler`. The listeners are the requests whose abort signal has one, and
`attention` says that `sessionId` and `attention` are supplied. -/
structure AcpPermissionHandler where
  attention : Bool
  pending : OrderedMap String PendingAcpRequest
  ledger : PermissionLedger PermissionOutcome
  listeners : List String

namespace AcpPermissionHandler

/-- A new handler. -/
def create (attention : Bool) : AcpPermissionHandler := ⟨attention, .empty, .create, []⟩

/-- `reportAttention`. -/
def reportAttention (handler : AcpPermissionHandler) (kind : SessionAttentionKind) :
    AcpPermissionHandler :=
  if handler.attention then { handler with ledger := handler.ledger.call (.attention kind) }
  else handler

/-- `handleRequest`, for a request whose signal may be aborted already. -/
def handleRequest (handler : AcpPermissionHandler) (reqId : String) (toolCall : Json)
    (options : List PermissionOption) (aborted : Bool) (now : Decimal) : AcpPermissionHandler :=
  let toolName := pickAcpToolName toolCall
  let input := pickAcpToolArgs toolCall
  let told := handler.reportAttention (if isAskUserQuestion toolName then .question else .perm)
  if aborted then { told with ledger := told.ledger.call (.settle reqId .cancelled) }
  else
    { told with
      listeners := told.listeners ++ [reqId]
      pending := told.pending.set reqId { toolName, input, options }
      ledger := told.ledger.openRequest reqId { tool := toolName, arguments := input, createdAt := now }
        (availableModes toolName) true }

/-- The end of a request: its resolution on the timeline and the answer to the agent, whose
abort signal is no longer listened to. -/
def conclude (handler : AcpPermissionHandler) (reqId : String) (decision : PermDecision)
    (status : CompletedStatus) (now : Decimal) (outcome : PermissionOutcome) : AcpPermissionHandler :=
  { handler with
    ledger := (handler.ledger.finishRequest reqId decision status now).call (.settle reqId outcome)
    listeners := handler.listeners.filter (fun listener => listener ≠ reqId) }

/-- A request that is no longer pending. -/
def remove (handler : AcpPermissionHandler) (reqId : String) : AcpPermissionHandler :=
  { handler with pending := handler.pending.delete reqId }

/-- The decision of an aborted request. -/
def abortDecision : PermDecision := .deny (some "Permission request cancelled")

/-- The abort signal of a request. -/
def abort (handler : AcpPermissionHandler) (reqId : String) (now : Decimal) : AcpPermissionHandler :=
  if reqId ∈ handler.listeners then
    let once :=
      { handler with listeners := handler.listeners.filter (fun listener => listener ≠ reqId) }
    match once.pending.get? reqId with
    | none => once
    | some _ => (once.remove reqId).conclude reqId abortDecision .canceled now .cancelled
  else handler

/-- Switching the mode is told before the request is resolved. -/
def modeChange (handler : AcpPermissionHandler) : PermDecision → AcpPermissionHandler
  | .mode mode => { handler with ledger := handler.ledger.call (.onModeChange mode) }
  | _ => handler

/-- `resolve`. -/
def resolve (handler : AcpPermissionHandler) (reqId : String) (decision : PermDecision)
    (now : Decimal) : PermAnswerResult × AcpPermissionHandler :=
  match handler.pending.get? reqId with
  | none => (handler.ledger.alreadyAnswered reqId, handler)
  | some pending =>
    let outcome := mapDecision pending.options decision
    let denied := outcome = .cancelled || isRejectSelection pending.options outcome
    (.ok, ((handler.remove reqId).modeChange decision).conclude reqId decision
      (if denied then .denied else .approved) now outcome)

/-- `reset`. Each request is completed at its own time. -/
def reset (handler : AcpPermissionHandler) (reason : Option String) (clock : String → Decimal) :
    AcpPermissionHandler :=
  let decision : PermDecision := .deny (some (reason.getD "Session switched to local mode"))
  let closed := handler.pending.entries.foldl (fun closing entry =>
    closing.conclude entry.1 decision .canceled (clock entry.1) .cancelled) handler
  { closed with pending := .empty }

/-- What can happen to a handler. -/
inductive Event where
  | request (reqId : String) (toolCall : Json) (options : List PermissionOption) (aborted : Bool)
      (now : Decimal)
  | resolve (reqId : String) (decision : PermDecision) (now : Decimal)
  | abort (reqId : String) (now : Decimal)
  | reset (reason : Option String) (clock : String → Decimal)
  | reportTurnEnd

/-- One call. -/
def step (handler : AcpPermissionHandler) : Event → AcpPermissionHandler
  | .request reqId toolCall options aborted now =>
    handler.handleRequest reqId toolCall options aborted now
  | .resolve reqId decision now => (handler.resolve reqId decision now).2
  | .abort reqId now => handler.abort reqId now
  | .reset reason clock => handler.reset reason clock
  | .reportTurnEnd => handler.reportAttention .done

end AcpPermissionHandler

end Kvy.Cli.Acp
