import Kvy.General.Text
import Kvy.Web.Sync.Reducer.Types
import Mathlib.Algebra.Order.Ring.Unbundled.Rat

/-!
# Folding envelopes into a transcript

`reduceEnvelopes` drops repeated ids, sorts by time and splits the envelopes into the root
scope and one scope per subagent. Each scope pairs tool starts with their ends and requests
with the tools they are about; then every subagent's items are attached to the tool that
spawned it, or shown as a group of their own.

The permission records and tools that the code shares by reference are cells here: an item
names its permission by the position of a cell, and a call its tool by the position of an
item.
-/

namespace Kvy.Web.Sync

open General Wire

/-- Keep the first envelope of every id. -/
def dedupeById (envelopes : List SessionEnvelope) : List SessionEnvelope :=
  (envelopes.foldl (fun (seen, out) env =>
    if env.id ∈ seen then (seen, out) else (env.id :: seen, out ++ [env])) (([] : List String), [])).2

/-- `stableSortByTime`, for anything that has a time. -/
def stableSortByTime {α : Type} (time : α → Decimal) (items : List α) : List α :=
  sortByIndexed (fun item => (time item).toRat) items

/-! ## The key of a request -/

mutual
/-- `stableStringify`: compact text with sorted keys. -/
def stableStringify : Json → List Char
  | .arr items => ['['] ++ List.intercalate [','] (stableItems items) ++ [']']
  | .obj fields =>
    let texts := (sortBy (fun field => codeUnits field.1) (stableFields fields)).map
      (fun field => Json.quote field.1 ++ [':'] ++ field.2)
    ['\x7b'] ++ List.intercalate [','] texts ++ ['\x7d']
  | value => value.stringify 0
def stableItems : List Json → List (List Char)
  | [] => []
  | item :: rest => stableStringify item :: stableItems rest
def stableFields : List (String × Json) → List (String × List Char)
  | [] => []
  | (key, value) :: rest => (key, stableStringify value) :: stableFields rest
end

/-- `canonicalArgsKey`; an absent value reads `undefined` in a template. -/
def canonicalArgsKey (name : String) (args : Option Json) : List Char :=
  name.toList ++ "::".toList ++ args.elim "undefined".toList stableStringify

/-! ## One scope -/

/-- An item of a scope that is still being reduced. -/
inductive ScopeItem where
  | event (base : RenderItemBase) (item : EventItem)
  | permPlaceholder (base : RenderItemBase) (name : String) (args : Option Json) (permission : Nat)
  | tool (base : RenderItemBase) (tool : ToolCall) (permission : Option Nat)
  | orphanToolEnd (base : RenderItemBase) (call : String) (ok : Bool) (output : Option Json)

/-- A tool is given a permission. -/
def ScopeItem.withPermission (permission : Nat) : ScopeItem → ScopeItem
  | .tool base started _ => .tool base started (some permission)
  | item => item

/-- A tool has ended. -/
def ScopeItem.ended (ok : Bool) (output : Option Json) : ScopeItem → ScopeItem
  | .tool base started permission =>
    .tool base { started with status := .done, ok := some ok, output := output } permission
  | item => item

/-- `PendingPlaceholder`: where the placeholder is and what it stands for. -/
structure PendingPlaceholder where
  position : Nat
  permission : Nat
  argsKey : List Char

/-- The locals of `reduceScope`. -/
structure Scope where
  items : List ScopeItem
  toolByCall : OrderedMap String Nat
  permissions : List PermissionInfo
  permInfoByReqId : OrderedMap String Nat
  pendingPermByCall : OrderedMap String Nat
  pendingPlaceholders : List PendingPlaceholder

namespace Scope

/-- A scope before its first envelope. -/
def empty : Scope := ⟨[], .empty, [], .empty, .empty, []⟩

/-- Add an item at the end. -/
def push (scope : Scope) (item : ScopeItem) : Scope := { scope with items := scope.items ++ [item] }

/-- A `perm-request`: a new cell, held by the tool it names, by the call it names until that
tool starts, or by a placeholder. -/
def requestPermission (scope : Scope) (base : RenderItemBase) (info : PermissionInfo)
    (call : Option String) (name : String) (args : Option Json) : Scope :=
  let cell := scope.permissions.length
  let scope := { scope with
    permissions := scope.permissions ++ [info]
    permInfoByReqId := scope.permInfoByReqId.set info.reqId cell }
  match call with
  | some call =>
    match scope.toolByCall.get? call with
    | some position =>
      { scope with items := scope.items.modify position (ScopeItem.withPermission cell) }
    | none => { scope with pendingPermByCall := scope.pendingPermByCall.set call cell }
  | none =>
    let pending := ⟨scope.items.length, cell, canonicalArgsKey name args⟩
    { scope.push (.permPlaceholder base name args cell) with
      pendingPlaceholders := scope.pendingPlaceholders ++ [pending] }

/-- A `perm-resolve`: the last request of that id is decided. -/
def resolvePermission (scope : Scope) (reqId : String) (decision : PermDecision) : Scope :=
  match scope.permInfoByReqId.get? reqId with
  | some cell =>
    { scope with permissions :=
        scope.permissions.modify cell (fun info => { info with decision := some decision }) }
  | none => scope

/-- Put a tool at the end. -/
def pushTool (scope : Scope) (base : RenderItemBase) (tool : ToolCall) (permission : Option Nat) :
    Scope :=
  { scope.push (.tool base tool permission) with
    toolByCall := scope.toolByCall.set tool.call scope.items.length }

/-- Put a tool in the place of a placeholder, or at the end when it is gone. -/
def replacePlaceholder (scope : Scope) (base : RenderItemBase) (tool : ToolCall)
    (pending : PendingPlaceholder) : Scope :=
  match scope.items[pending.position]? with
  | some (.permPlaceholder _ _ _ _) =>
    { scope with
      items := scope.items.set pending.position (.tool base tool (some pending.permission))
      toolByCall := scope.toolByCall.set tool.call pending.position }
  | _ => scope.pushTool base tool (some pending.permission)

/-- A `tool-start`: the tool takes the permission that waits for its call, else the first
placeholder with its name and arguments. -/
def startTool (scope : Scope) (base : RenderItemBase) (tool : ToolCall) : Scope :=
  match scope.pendingPermByCall.get? tool.call with
  | some cell =>
    { scope with pendingPermByCall := scope.pendingPermByCall.delete tool.call }.pushTool base tool
      (some cell)
  | none =>
    let argsKey := canonicalArgsKey tool.name tool.args
    match scope.pendingPlaceholders.find? (fun pending => pending.argsKey = argsKey) with
    | some pending =>
      { scope with pendingPlaceholders :=
          scope.pendingPlaceholders.eraseP (fun pending => pending.argsKey = argsKey)
      }.replacePlaceholder base tool pending
    | none => scope.pushTool base tool none

/-- A `tool-end`: the call's tool has ended, or the result is an orphan. -/
def endTool (scope : Scope) (base : RenderItemBase) (call : String) (ok : Bool)
    (output : Option Json) : Scope :=
  match scope.toolByCall.get? call with
  | some position => { scope with items := scope.items.modify position (ScopeItem.ended ok output) }
  | none => scope.push (.orphanToolEnd base call ok output)

end Scope

/-- `isRoutineServiceText`. -/
def isRoutineServiceText (text : String) : Bool := text = "session started"

/-- The item of an event that shows as one of its own. -/
def eventItem? : SessionEvent → Option EventItem
  | .text md thinking => some (.text md (thinking.getD false))
  | .service text => some (.service text (isRoutineServiceText text))
  | .file ref name size image => some (.file ref name size image)
  | .turnStart => some .turnStart
  | .turnEnd status => some (.turnEnd status)
  | .modeSwitch control source => some (.modeSwitch control source)
  | .permissionMode mode source => some (.permissionMode mode source)
  | .subStart => some .subStart
  | .subStop => some .subStop
  | .usage inputTokens outputTokens costUsd => some (.usage inputTokens outputTokens costUsd)
  | .plan steps => some (.plan steps)
  | .permRequest .. | .permResolve .. | .toolStart .. | .toolEnd .. => none

/-- The body of the loop of `reduceScope`. -/
def Scope.step (scope : Scope) (env : SessionEnvelope) : Scope :=
  match env.ev with
  | .permRequest reqId call name args modes answerable =>
    scope.requestPermission (baseOf env) ⟨reqId, modes, none, answerable⟩ call name args
  | .permResolve reqId decision => scope.resolvePermission reqId decision
  | .toolStart call name title args risk =>
    scope.startTool (baseOf env) ⟨call, name, title, args, risk, .running, none, none⟩
  | .toolEnd call ok output => scope.endTool (baseOf env) call ok output
  | ev => (eventItem? ev).elim scope (fun item => scope.push (.event (baseOf env) item))

/-- The item as it is shown, with its permission as it stands at the end. -/
def ScopeItem.shown (permissions : List PermissionInfo) : ScopeItem → RenderItem
  | .event base item => .event base item
  | .permPlaceholder base name args permission =>
    .permPlaceholder base name args (permissions.getD permission default)
  | .tool base started permission =>
    .tool base started (permission.map (fun cell => permissions.getD cell default)) none
  | .orphanToolEnd base call ok output => .orphanToolEnd base call ok output

/-- `reduceScope`. -/
def reduceScope (envs : List SessionEnvelope) : List RenderItem :=
  let scope := envs.foldl Scope.step Scope.empty
  scope.items.map (ScopeItem.shown scope.permissions)

/-! ## Linking the subagents -/

mutual
/-- Give the first tool of a call in the tree the items of its subagent, if there is one. -/
def attachToItem (call : String) (children : List RenderItem) : RenderItem → Option RenderItem
  | .tool base tool permission none =>
    if tool.call = call then some (.tool base tool permission (some children)) else none
  | .tool base tool permission (some items) =>
    if tool.call = call then some (.tool base tool permission (some children))
    else (attachToItems call children items).map (fun items => .tool base tool permission (some items))
  | .subagentGroup base subagentId items =>
    (attachToItems call children items).map (.subagentGroup base subagentId)
  | _ => none
def attachToItems (call : String) (children : List RenderItem) :
    List RenderItem → Option (List RenderItem)
  | [] => none
  | item :: rest =>
    match attachToItem call children item with
    | some item => some (item :: rest)
    | none => (attachToItems call children rest).map (item :: ·)
end

/-- The items of the root scope and the groups that stand alone. -/
structure Linked where
  rootItems : List RenderItem
  standalone : List RenderItem

/-- Link one subagent scope: to a tool in the root, else to one in a group that stands alone,
else as a group of its own at the time of its first envelope. -/
def Linked.link (linked : Linked) (subagentId : String) : List SessionEnvelope → Linked
  | [] => linked
  | first :: rest =>
    let childItems := reduceScope (first :: rest)
    match attachToItems subagentId childItems linked.rootItems with
    | some rootItems => { linked with rootItems := rootItems }
    | none =>
      match attachToItems subagentId childItems linked.standalone with
      | some standalone => { linked with standalone := standalone }
      | none =>
        { linked with standalone :=
            linked.standalone ++ [.subagentGroup (baseOf first) subagentId childItems] }

/-- `linkSubagentScopes`, the scopes in the order of their first envelopes. -/
def linkSubagentScopes (rootItems : List RenderItem)
    (envelopesByScope : OrderedMap String (List SessionEnvelope)) : List RenderItem :=
  let linked := envelopesByScope.entries.foldl
    (fun linked (subagentId, envs) => linked.link subagentId envs) (⟨rootItems, []⟩ : Linked)
  if linked.standalone.isEmpty then linked.rootItems
  else stableSortByTime (fun item => item.base.time) (linked.rootItems ++ linked.standalone)

/-- The envelopes of every subagent, the subagents in the order of their first envelopes. -/
def subagentScopes (envelopes : List SessionEnvelope) : OrderedMap String (List SessionEnvelope) :=
  envelopes.foldl (fun scopes env =>
    env.subagent.elim scopes (fun subagent =>
      scopes.set subagent ((scopes.get? subagent).getD [] ++ [env]))) .empty

/-- `reduceEnvelopes`, from the deduplicated and sorted envelopes on. -/
def reduceSorted (sorted : List SessionEnvelope) : List RenderItem :=
  linkSubagentScopes (reduceScope (sorted.filter (fun env => env.subagent.isNone)))
    (subagentScopes sorted)

/-- `reduceEnvelopes`. -/
def reduceEnvelopes (envelopes : List SessionEnvelope) : List RenderItem :=
  reduceSorted (stableSortByTime SessionEnvelope.time (dedupeById envelopes))

end Kvy.Web.Sync
