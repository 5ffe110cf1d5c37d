import Kvy.Wire.Session

/-!
# Transcript items

The items of a rendered transcript. Eleven kinds show one event each and never change
again; permission placeholders, tools and orphan results take part in pairing, and a tool
or a group may hold the items of a subagent.
-/

namespace Kvy.Web.Sync

open General Wire

/-- `RenderItemBase`. -/
structure RenderItemBase where
  id : String
  time : Decimal
  role : SessionRole
  turn : Option String
deriving DecidableEq

/-- The base an envelope gives to its item. -/
def baseOf (env : SessionEnvelope) : RenderItemBase := ⟨env.id, env.time, env.role, env.turn⟩

/-- The items that show one event. -/
inductive EventItem where
  | text (md : String) (thinking : Bool)
  | service (text : String) (quiet : Bool)
  | file (ref name : String) (size : Decimal) (image : Option FileImage)
  | turnStart
  | turnEnd (status : TurnStatus)
  | modeSwitch (control : SessionControl) (source : ModeSource)
  | permissionMode (mode : PermissionMode) (source : ModeSource)
  | subStart
  | subStop
  | usage (inputTokens outputTokens : Decimal) (costUsd : Option Decimal)
  | plan (steps : List PlanStep)
deriving DecidableEq

/-- `PermissionInfo`. -/
structure PermissionInfo where
  reqId : String
  modes : List PermissionMode
  decision : Option PermDecision
  answerable : Option Bool
deriving Inhabited

/-- The state of a tool call. -/
inductive ToolStatus where
  | running
  | done
deriving DecidableEq

/-- `ToolItem`, without its base, its permission and its subagent. -/
structure ToolCall where
  call : String
  name : String
  title : Option String
  args : Option Json
  risk : Option ToolRisk
  status : ToolStatus
  ok : Option Bool
  output : Option Json

/-- `RenderItem`. -/
inductive RenderItem where
  | event (base : RenderItemBase) (item : EventItem)
  | permPlaceholder (base : RenderItemBase) (name : String) (args : Option Json)
      (permission : PermissionInfo)
  | tool (base : RenderItemBase) (tool : ToolCall) (permission : Option PermissionInfo)
      (subagent : Option (List RenderItem))
  | orphanToolEnd (base : RenderItemBase) (call : String) (ok : Bool) (output : Option Json)
  | subagentGroup (base : RenderItemBase) (subagentId : String) (items : List RenderItem)

/-- The base of an item. -/
def RenderItem.base : RenderItem → RenderItemBase
  | .event base _ => base
  | .permPlaceholder base _ _ _ => base
  | .tool base _ _ _ => base
  | .orphanToolEnd base _ _ _ => base
  | .subagentGroup base _ _ => base

end Kvy.Web.Sync
