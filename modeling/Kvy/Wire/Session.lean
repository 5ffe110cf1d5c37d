import Kvy.General.Schema

/-!
# Session events

An agent session is a stream of envelopes, each of which wraps one event. The provider
adapters write this shape, the server stores it sealed, and the clients fold it into a
transcript. A batch of envelopes is read whole: one envelope that does not fit the schema
refuses the batch.
-/

namespace Kvy.Wire

open General

/-- `PermissionModeSchema`. -/
inductive PermissionMode where
  | default
  | acceptEdits
  | plan
  | bypassPermissions
deriving DecidableEq

/-- A mode as text. -/
def PermissionMode.text : PermissionMode → String
  | .default => "default"
  | .acceptEdits => "acceptEdits"
  | .plan => "plan"
  | .bypassPermissions => "bypassPermissions"

/-- The scope of an allowed request. -/
inductive PermScope where
  | once
  | session
deriving DecidableEq

/-- `PermDecisionSchema`. -/
inductive PermDecision where
  | allow (scope : PermScope) (updatedInput : Option Json)
  | deny (message : Option String)
  | mode (mode : PermissionMode)

/-- `SessionRoleSchema`. -/
inductive SessionRole where
  | user
  | agent
deriving DecidableEq

/-- What a tool call may touch. -/
inductive ToolRisk where
  | read
  | write
  | exec
  | network
deriving DecidableEq

/-- How a turn ended. -/
inductive TurnStatus where
  | completed
  | failed
  | cancelled
deriving DecidableEq

/-- Who controls a session. -/
inductive SessionControl where
  | localTerminal
  | remote
deriving DecidableEq

/-- Who changed a mode. -/
inductive ModeSource where
  | terminal
  | client
deriving DecidableEq

/-- The state of a step of a plan. -/
inductive PlanStatus where
  | pending
  | inProgress
  | completed
deriving DecidableEq

/-- A step of a plan. -/
structure PlanStep where
  text : String
  status : PlanStatus
deriving DecidableEq

/-- The preview of an image. -/
structure FileImage where
  w : Decimal
  h : Decimal
  thumbhash : String
deriving DecidableEq

/-- `SessionEventSchema`. -/
inductive SessionEvent where
  | text (md : String) (thinking : Option Bool)
  | service (text : String)
  | toolStart (call name : String) (title : Option String) (args : Option Json)
      (risk : Option ToolRisk)
  | toolEnd (call : String) (ok : Bool) (output : Option Json)
  | file (ref name : String) (size : Decimal) (image : Option FileImage)
  | turnStart
  | turnEnd (status : TurnStatus)
  | permRequest (reqId : String) (call : Option String) (name : String) (args : Option Json)
      (modes : List PermissionMode) (answerable : Option Bool)
  | permResolve (reqId : String) (decision : PermDecision)
  | modeSwitch (control : SessionControl) (source : ModeSource)
  | permissionMode (mode : PermissionMode) (source : ModeSource)
  | subStart
  | subStop
  | usage (inputTokens outputTokens : Decimal) (costUsd : Option Decimal)
  | plan (steps : List PlanStep)

/-- `SessionEnvelopeSchema`. -/
structure SessionEnvelope where
  id : String
  time : Decimal
  role : SessionRole
  turn : Option String
  subagent : Option String
  ev : SessionEvent

/-! ## The schemas as readers -/

/-- `PermissionModeSchema` as a reader. -/
def readPermissionMode : Schema.Reader PermissionMode :=
  Schema.enum [("default", .default), ("acceptEdits", .acceptEdits), ("plan", .plan),
    ("bypassPermissions", .bypassPermissions)]

/-- `ModeSource` as a reader. -/
def readModeSource : Schema.Reader ModeSource :=
  Schema.enum [("terminal", .terminal), ("client", .client)]

/-- `PermDecisionSchema` as a reader. -/
def readPermDecision (value : Option Json) : Option PermDecision := do
  let field (name : String) := value.bind (Json.field? name)
  match ← Schema.string (field "kind") with
  | "allow" =>
    let scope ← Schema.enum [("once", PermScope.once), ("session", .session)] (field "scope")
    return .allow scope (field "updatedInput")
  | "deny" => return .deny (← Schema.optional Schema.string (field "message"))
  | "mode" => return .mode (← readPermissionMode (field "mode"))
  | _ => none

/-- The image preview as a reader. -/
def readFileImage (value : Option Json) : Option FileImage := do
  let field (name : String) := value.bind (Json.field? name)
  return { w := ← Schema.number (field "w")
           h := ← Schema.number (field "h")
           thumbhash := ← Schema.string (field "thumbhash") }

/-- A step of a plan as a reader. -/
def readPlanStep (value : Option Json) : Option PlanStep := do
  let field (name : String) := value.bind (Json.field? name)
  return { text := ← Schema.string (field "text")
           status := ← Schema.enum [("pending", .pending), ("in_progress", .inProgress),
             ("completed", .completed)] (field "status") }

/-- `SessionEventSchema` as a reader. -/
def readSessionEvent (value : Option Json) : Option SessionEvent := do
  let field (name : String) := value.bind (Json.field? name)
  match ← Schema.string (field "t") with
  | "text" =>
    return .text (← Schema.string (field "md")) (← Schema.optional Schema.boolean (field "thinking"))
  | "service" => return .service (← Schema.string (field "text"))
  | "tool-start" =>
    let call ← Schema.string (field "call")
    let name ← Schema.string (field "name")
    let title ← Schema.optional Schema.string (field "title")
    let risk ← Schema.optional (Schema.enum [("read", ToolRisk.read), ("write", .write),
      ("exec", .exec), ("network", .network)]) (field "risk")
    return .toolStart call name title (field "args") risk
  | "tool-end" =>
    let call ← Schema.string (field "call")
    let ok ← Schema.boolean (field "ok")
    return .toolEnd call ok (field "output")
  | "file" =>
    let ref ← Schema.string (field "ref")
    let name ← Schema.string (field "name")
    let size ← Schema.number (field "size")
    return .file ref name size (← Schema.optional readFileImage (field "image"))
  | "turn-start" => return .turnStart
  | "turn-end" =>
    return .turnEnd (← Schema.enum [("completed", .completed), ("failed", .failed),
      ("cancelled", .cancelled)] (field "status"))
  | "perm-request" =>
    let reqId ← Schema.string (field "reqId")
    let call ← Schema.optional Schema.string (field "call")
    let name ← Schema.string (field "name")
    let modes ← Schema.array readPermissionMode (field "modes")
    let answerable ← Schema.optional Schema.boolean (field "answerable")
    return .permRequest reqId call name (field "args") modes answerable
  | "perm-resolve" =>
    return .permResolve (← Schema.string (field "reqId")) (← readPermDecision (field "decision"))
  | "mode-switch" =>
    let control ← Schema.enum [("local", SessionControl.localTerminal), ("remote", .remote)]
      (field "control")
    return .modeSwitch control (← readModeSource (field "by"))
  | "permission-mode" =>
    return .permissionMode (← readPermissionMode (field "mode")) (← readModeSource (field "source"))
  | "sub-start" => return .subStart
  | "sub-stop" => return .subStop
  | "usage" =>
    let inputTokens ← Schema.number (field "inputTokens")
    let outputTokens ← Schema.number (field "outputTokens")
    return .usage inputTokens outputTokens (← Schema.optional Schema.number (field "costUsd"))
  | "plan" => return .plan (← Schema.array readPlanStep (field "steps"))
  | _ => none

/-- `SessionEnvelopeSchema` as a reader. -/
def readSessionEnvelope (value : Option Json) : Option SessionEnvelope := do
  let field (name : String) := value.bind (Json.field? name)
  return { id := ← Schema.string (field "id")
           time := ← Schema.number (field "time")
           role := ← Schema.enum [("user", .user), ("agent", .agent)] (field "role")
           turn := ← Schema.optional Schema.string (field "turn")
           subagent := ← Schema.optional Schema.string (field "subagent")
           ev := ← readSessionEvent (field "ev") }

end Kvy.Wire
