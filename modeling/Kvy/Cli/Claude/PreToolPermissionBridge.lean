import Kvy.Cli.Permissions.Ledger
import Kvy.General.JsObject
import Kvy.General.Timers

/-!
# Permission requests of the terminal program

Two hooks of the terminal program ask for a decision. On a web turn the hook waits for the
answer from the web, up to a timeout. On a local turn it is let through at once, and the request
stays open until the transcript shows what became of the tool.

A hook call is named by the id that `createId` draws for its request.
-/

namespace Kvy.Cli.Claude

open General Wire Permissions

/-! ## The answers to a question -/

mutual
/-- What a template makes of a value. Nothing where the conversion throws: an object's own
`toString` cannot be called. -/
def templateText : Json → Option String
  | .null => some "null"
  | .bool value => some (if value then "true" else "false")
  | .num number => some (String.ofList number.text)
  | .str string => some string
  | .arr items => (joinedTexts items).map (fun texts => String.intercalate "," texts)
  | .obj fields => if (fields.lookup "toString").isSome then none else some "[object Object]"
/-- The parts of a joined array. -/
def joinedTexts : List Json → Option (List String)
  | [] => some []
  | item :: items => do
    let text ← match item with
      | .null => some ""
      | value => templateText value
    return text :: (← joinedTexts items)
end

/-- Whether a value counts as true. -/
def truthy : Json → Bool
  | .null => false
  | .bool value => value
  | .num number => number.mantissa ≠ 0
  | .str string => string ≠ ""
  | .arr _ => true
  | .obj _ => true

/-- The text of the `question` of an entry. Reading it off `null` throws. -/
def questionText : Json → Option String
  | .null => none
  | .obj fields => (fields.lookup "question").elim (some "undefined") templateText
  | _ => some "undefined"

/-- The text of an answer, which may be found on the prototype. -/
def answerText (answers : List (String × Json)) (question : String) : Option String :=
  match answers.lookup question with
  | some .null => some "(no answer)"
  | some value => templateText value
  | none =>
    match inheritedProperties.lookup question with
    | some (some name) => some ("function " ++ name ++ "() \x7b [native code] \x7d")
    | some none => some "[object Object]"
    | none => some "(no answer)"

/-- The line of a question. -/
def questionLine (answers : List (String × Json)) (question : Json) : Option String := do
  let text ← questionText question
  return "- " ++ text ++ "\n  → " ++ (← answerText answers text)

/-- `composeAskAnswerReason`. Nothing where it throws: only an array has a `map`. -/
def composeAskAnswerReason (questions : Json) (answers : List (String × Json)) : Option String :=
  match questions with
  | .arr items => do
    let lines ← items.mapM (questionLine answers)
    return String.intercalate "\n" (["The user answered via the Kvy web UI:"] ++ lines ++
      ["Proceed using these answers. Do not call AskUserQuestion again for these questions."])
  | _ => none

/-- `ASK_FALLBACK_REASON`. -/
def askFallbackReason : String :=
  "The remote user did not answer the structured question form. Ask the same question(s) again in PLAIN TEXT in your reply (no AskUserQuestion tool), then end your turn and wait for the user's typed answer."

/-- `appendDenyGuard`. -/
def appendDenyGuard (message : String) : String :=
  message ++ " Do not attempt this action another way."

/-! ## The bridge -/

/-- `PreToolPermissionDecision`. -/
inductive PreToolPermissionDecision where
  | allow
  | deny
  | ask
deriving DecidableEq

/-- What a hook prints: `PreToolUseHookOutput`, `PermissionRequestHookOutput` or nothing. -/
inductive HookOutput where
  | preToolUse (decision : PreToolPermissionDecision) (reason : String)
  | permissionRequest (allowed : Bool) (message : String)
  | noDecision
deriving DecidableEq

/-- The payload of a hook. -/
structure HookInput where
  toolName : String
  toolInput : Option (List (String × Json))
  permissionMode : Option String

/-- `PendingPreToolRequest`. -/
structure PendingPreToolRequest where
  toolName : String
  input : List (String × Json)
  timer : Nat
  isQuestion : Bool
  questions : Json

/-- `PendingPermissionRequest`. -/
structure PendingPermissionRequest where
  toolName : String
  input : List (String × Json)
  timer : Nat

/-- An entry of `localOutcomePending`. -/
structure LocalOutcome where
  reqId : String
  toolName : String
  drivable : Bool
  questions : Option Json

/-- The timers of the bridge. -/
inductive BridgeTimer where
  | question (reqId : String)
  | permission (reqId : String)
  | modeEcho
deriving DecidableEq

/-- What the owner of the bridge wired. -/
structure BridgeDeps where
  drivesDialog : Bool
  drivesQuestion : Bool
  answerTimeoutMs : Nat
  initialPermissionMode : Option PermissionMode

/-- `PreToolPermissionBridge`. A mode watcher is named by the handle of its timer. -/
structure PreToolPermissionBridge where
  deps : BridgeDeps
  pending : OrderedMap String PendingPreToolRequest
  permRequestPending : OrderedMap String PendingPermissionRequest
  localOutcomePending : List LocalOutcome
  drivenLocalReqIds : List String
  ledger : PermissionLedger HookOutput
  lastPermissionMode : Option PermissionMode
  modeWatchers : List Nat
  timers : Timers BridgeTimer

namespace PreToolPermissionBridge

/-- A new bridge. -/
def create (deps : BridgeDeps) : PreToolPermissionBridge where
  deps := deps
  pending := .empty
  permRequestPending := .empty
  localOutcomePending := []
  drivenLocalReqIds := []
  ledger := .create
  lastPermissionMode := deps.initialPermissionMode
  modeWatchers := []
  timers := .idle

/-- Call the outside. -/
def call (bridge : PreToolPermissionBridge) (called : PermissionCall HookOutput) :
    PreToolPermissionBridge :=
  { bridge with ledger := bridge.ledger.call called }

/-- `finishRequest`. -/
def finishRequest (bridge : PreToolPermissionBridge) (reqId : String) (decision : PermDecision)
    (status : CompletedStatus) (now : Decimal) : PreToolPermissionBridge :=
  { bridge with ledger := bridge.ledger.finishRequest reqId decision status now }

/-! ### The mode of the terminal -/

/-- The mode of a name. -/
def permissionMode? : String → Option PermissionMode
  | "default" => some .default
  | "acceptEdits" => some .acceptEdits
  | "plan" => some .plan
  | "bypassPermissions" => some .bypassPermissions
  | _ => none

/-- A watcher is told a mode, once. -/
def tellWatcher (bridge : PreToolPermissionBridge) (mode : Option PermissionMode) (watcher : Nat) :
    PreToolPermissionBridge :=
  { bridge.call (.modeEcho watcher mode) with
    modeWatchers := bridge.modeWatchers.filter (fun held => held ≠ watcher)
    timers := bridge.timers.clear watcher }

/-- `cachePermissionMode`. -/
def cachePermissionMode (bridge : PreToolPermissionBridge) (raw : Option String) :
    PreToolPermissionBridge :=
  match raw.bind permissionMode? with
  | none => bridge
  | some mode =>
    let told :=
      if bridge.lastPermissionMode ≠ none ∧ bridge.lastPermissionMode ≠ some mode then
        bridge.call (.emitEnvelope (.permissionMode mode .terminal))
      else bridge
    told.modeWatchers.foldl (tellWatcher · (some mode) ·)
      { told with lastPermissionMode := some mode }

/-- `notePermissionMode`. -/
def notePermissionMode (bridge : PreToolPermissionBridge) (mode : String) : PreToolPermissionBridge :=
  bridge.cachePermissionMode (some mode)

/-- `waitForModeEcho`. -/
def waitForModeEcho (bridge : PreToolPermissionBridge) : PreToolPermissionBridge :=
  { bridge with
    modeWatchers := bridge.modeWatchers ++ [bridge.timers.next]
    timers := bridge.timers.set .modeEcho }

/-! ### Hook calls -/

/-- A hook call that is answered at once. -/
def passThrough (bridge : PreToolPermissionBridge) (reqId : String) (answer : HookOutput) :
    PreToolPermissionBridge :=
  bridge.call (.settle reqId answer)

/-- `handleAskUserQuestion`. -/
def handleAskUserQuestion (bridge : PreToolPermissionBridge) (reqId : String) (input : HookInput)
    (isWebTurnActive : Bool) (now : Decimal) : PreToolPermissionBridge :=
  let told := bridge.call (.attention .question)
  let toolInput := input.toolInput.getD []
  let questions :=
    match toolInput.lookup "questions" with
    | none => .arr []
    | some .null => .arr []
    | some value => value
  let opened :=
    { told with
      ledger := told.ledger.openRequest reqId ⟨input.toolName, toolInput, now⟩ []
        (isWebTurnActive || bridge.deps.drivesQuestion) }
  if isWebTurnActive then
    { opened with
      pending := opened.pending.set reqId
        ⟨input.toolName, toolInput, opened.timers.next, true, questions⟩
      timers := opened.timers.set (.question reqId) }
  else
    let entry : LocalOutcome := ⟨reqId, input.toolName, false, some questions⟩
    let waiting := { opened with localOutcomePending := opened.localOutcomePending ++ [entry] }
    (waiting.call .onPromptLikely).passThrough reqId
      (.preToolUse .ask "Locally-initiated turn. Answer the widget at the terminal.")

/-- `handlePreToolUse`. -/
def handlePreToolUse (bridge : PreToolPermissionBridge) (reqId : String) (input : HookInput)
    (isWebTurnActive : Bool) (now : Decimal) : PreToolPermissionBridge :=
  let cached := bridge.cachePermissionMode input.permissionMode
  if isAskUserQuestion input.toolName then
    cached.handleAskUserQuestion reqId input isWebTurnActive now
  else
    (if isWebTurnActive then cached else cached.call .onPromptLikely).passThrough reqId
      (.preToolUse .ask "Deferred to Claude Code's own permission engine.")

/-- `handlePermissionRequest`. -/
def handlePermissionRequest (bridge : PreToolPermissionBridge) (reqId : String) (input : HookInput)
    (isWebTurnActive : Bool) (now : Decimal) : PreToolPermissionBridge :=
  let cached := bridge.cachePermissionMode input.permissionMode
  if isAskUserQuestion input.toolName then cached.passThrough reqId .noDecision
  else
    let told := cached.call (.attention .perm)
    let toolInput := input.toolInput.getD []
    let opened :=
      { told with
        ledger := told.ledger.openRequest reqId ⟨input.toolName, toolInput, now⟩
          (availableModes input.toolName) (isWebTurnActive || cached.deps.drivesDialog) }
    if isWebTurnActive then
      { opened with
        permRequestPending := opened.permRequestPending.set reqId
          ⟨input.toolName, toolInput, opened.timers.next⟩
        timers := opened.timers.set (.permission reqId) }
    else
      let entry : LocalOutcome := ⟨reqId, input.toolName, true, none⟩
      let waiting := { opened with localOutcomePending := opened.localOutcomePending ++ [entry] }
      (waiting.call .onPromptLikely).passThrough reqId .noDecision

/-! ### Decisions -/

/-- The answers that an allowing decision carries. -/
def answersOf : PermDecision → Option (List (String × Json))
  | .allow _ (some (.obj updatedInput)) =>
    match updatedInput.lookup "answers" with
    | some (.obj answers) => some answers
    | _ => none
  | _ => none

/-- `mapDecision`. Nothing where it throws. -/
def mapDecision (pending : PendingPreToolRequest) (decision : PermDecision) : Option HookOutput :=
  if pending.isQuestion then
    match answersOf decision with
    | some answers => (composeAskAnswerReason pending.questions answers).map (.preToolUse .deny)
    | none =>
      match decision with
      | .deny message => some (.preToolUse .deny (message.getD askFallbackReason))
      | _ => some (.preToolUse .deny askFallbackReason)
  else
    match decision with
    | .allow .once _ => some (.preToolUse .allow "Allowed from the Kvy web UI (once).")
    | .allow .session _ => some (.preToolUse .allow "Allowed from the Kvy web UI (session).")
    | .deny message =>
      some (.preToolUse .deny (appendDenyGuard (message.getD "Denied from the Kvy web UI.")))
    | .mode mode => some (.preToolUse .allow ("Switched permission mode to \"" ++ mode.text ++
        "\" and allowed this call."))

/-- What the `settle` of a pending `PermissionRequest` prints for a decision. -/
def permissionOutput : PermDecision → HookOutput
  | .deny message =>
    .permissionRequest false (appendDenyGuard (message.getD "Denied from the Kvy web UI."))
  | .mode mode => .permissionRequest true ("Switched permission mode to \"" ++
      mode.text ++ "\" and allowed from the Kvy web UI.")
  | .allow _ _ => .permissionRequest true "Allowed from the Kvy web UI."

/-- A decision that switches the mode is told. -/
def modeChange (bridge : PreToolPermissionBridge) : PermDecision → PreToolPermissionBridge
  | .mode mode => bridge.call (.onModeChange mode)
  | _ => bridge

/-- The end of a hook that waited: its resolution on the timeline and its output. -/
def conclude (bridge : PreToolPermissionBridge) (reqId : String) (decision : PermDecision)
    (status : CompletedStatus) (now : Decimal) (answer : HookOutput) : PreToolPermissionBridge :=
  (bridge.finishRequest reqId decision status now).call (.settle reqId answer)

/-- A question that waits no more. -/
def releaseQuestion (bridge : PreToolPermissionBridge) (reqId : String) : PreToolPermissionBridge :=
  { bridge with pending := bridge.pending.delete reqId }

/-- A permission that waits no more. -/
def releasePermission (bridge : PreToolPermissionBridge) (reqId : String) : PreToolPermissionBridge :=
  { bridge with permRequestPending := bridge.permRequestPending.delete reqId }

/-- `timer.clear`. -/
def clearTimer (bridge : PreToolPermissionBridge) (timer : Nat) : PreToolPermissionBridge :=
  { bridge with timers := bridge.timers.clear timer }

/-- Whether an answer drives the dialog of a local request. `drove` is what the driver that the
owner wired returns; nothing where it throws. -/
def drive (bridge : PreToolPermissionBridge) (entry : LocalOutcome) (drove : Option Bool) :
    Option Bool :=
  if entry.questions.any truthy then if bridge.deps.drivesQuestion then drove else some false
  else if entry.drivable && bridge.deps.drivesDialog then drove else some false

/-- `resolve`. The result is nothing where the call throws. -/
def resolve (bridge : PreToolPermissionBridge) (reqId : String) (decision : PermDecision)
    (drove : Option Bool) (now : Decimal) : Option PermAnswerResult × PreToolPermissionBridge :=
  match bridge.localOutcomePending.find? (fun entry => entry.reqId = reqId) with
  | some entry =>
    if reqId ∈ bridge.drivenLocalReqIds then (some (.refused .alreadyAnswered none), bridge)
    else
      match bridge.drive entry drove with
      | none => (none, bridge)
      | some false => (some (.refused .localTurn none), bridge)
      | some true =>
        (some .ok, { bridge with drivenLocalReqIds := bridge.drivenLocalReqIds ++ [reqId] })
  | none =>
    match bridge.pending.get? reqId with
    | some pending =>
      let released := (bridge.releaseQuestion reqId).clearTimer pending.timer
      let told := if pending.isQuestion then released else released.modeChange decision
      match mapDecision pending decision with
      | none => (none, told)
      | some answer =>
        let denied := match answer with
          | .preToolUse .deny _ => true
          | _ => false
        (some .ok, told.conclude reqId decision (if denied then .denied else .approved) now answer)
    | none =>
      match bridge.permRequestPending.get? reqId with
      | some pending =>
        let released := (bridge.releasePermission reqId).clearTimer pending.timer
        let status : CompletedStatus := if allows decision then .approved else .denied
        (some .ok, (released.modeChange decision).conclude reqId decision status now
          (permissionOutput decision))
      | none => (some (bridge.ledger.alreadyAnswered reqId), bridge)

/-- The decision of a local request whose outcome is known. -/
def localDecision (approved : Bool) : PermDecision :=
  if approved then .allow .once none else .deny (some "Resolved at the terminal.")

/-- `resolveLocalOutcome`. -/
def resolveLocalOutcome (bridge : PreToolPermissionBridge) (toolName : String) (approved : Bool)
    (now : Decimal) : PreToolPermissionBridge :=
  match bridge.localOutcomePending.find? (fun entry => entry.toolName = toolName) with
  | none => bridge
  | some entry =>
    let spliced :=
      { bridge with
        localOutcomePending := bridge.localOutcomePending.eraseP (fun held => held.toolName = toolName)
        drivenLocalReqIds := bridge.drivenLocalReqIds.filter (fun held => held ≠ entry.reqId) }
    spliced.finishRequest entry.reqId (localDecision approved)
      (if approved then .approved else .denied) now

/-! ### Timers and reset -/

/-- The decision of a permission that was not answered in time. -/
def timeoutDecision (bridge : PreToolPermissionBridge) : PermDecision :=
  .deny (some ("No response from the web within " ++
    toString ((bridge.deps.answerTimeoutMs + 500) / 1000) ++ "s. Denied."))

/-- What a timer of the bridge runs. -/
def runTimer (bridge : PreToolPermissionBridge) (timer : Timer BridgeTimer) (now : Decimal) :
    PreToolPermissionBridge :=
  match timer.callback with
  | .question reqId =>
    match bridge.pending.get? reqId with
    | none => bridge
    | some _ =>
      (bridge.releaseQuestion reqId).conclude reqId (.deny (some askFallbackReason)) .denied now
        (.preToolUse .deny askFallbackReason)
  | .permission reqId =>
    match bridge.permRequestPending.get? reqId with
    | none => bridge
    | some _ =>
      (bridge.releasePermission reqId).conclude reqId bridge.timeoutDecision .denied now
        (permissionOutput bridge.timeoutDecision)
  | .modeEcho => bridge.tellWatcher none timer.handle

/-- `reset`. Each request is completed at its own time. -/
def reset (bridge : PreToolPermissionBridge) (reason : Option String) (clock : String → Decimal) :
    PreToolPermissionBridge :=
  let reason := reason.getD "Session ended before the permission request was answered."
  let finalReason := appendDenyGuard reason
  let questions := bridge.pending.entries.foldl (fun closing entry =>
    (closing.clearTimer entry.2.timer).conclude entry.1 (.deny (some finalReason)) .canceled
      (clock entry.1) (.preToolUse .deny finalReason)) bridge
  let permissions := bridge.permRequestPending.entries.foldl (fun closing entry =>
    (closing.clearTimer entry.2.timer).conclude entry.1 (.deny (some reason)) .canceled
      (clock entry.1) (permissionOutput (.deny (some reason))))
    { questions with pending := .empty }
  let locals := bridge.localOutcomePending.foldl (fun closing entry =>
    closing.finishRequest entry.reqId (.deny (some finalReason)) .canceled (clock entry.reqId))
    { permissions with permRequestPending := .empty }
  { locals with localOutcomePending := [], drivenLocalReqIds := [] }

/-! ### Steps -/

/-- What can happen to a bridge. -/
inductive Event where
  | preToolUse (reqId : String) (input : HookInput) (isWebTurnActive : Bool) (now : Decimal)
  | permissionRequest (reqId : String) (input : HookInput) (isWebTurnActive : Bool) (now : Decimal)
  | resolve (reqId : String) (decision : PermDecision) (drove : Option Bool) (now : Decimal)
  | resolveLocalOutcome (toolName : String) (approved : Bool) (now : Decimal)
  | reset (reason : Option String) (clock : String → Decimal)
  | notePermissionMode (mode : String)
  | waitForModeEcho
  | fire (timer : Timer BridgeTimer) (now : Decimal)

/-- A call, or a pending timer that fires. -/
def step (bridge : PreToolPermissionBridge) : Event → Option PreToolPermissionBridge
  | .preToolUse reqId input isWebTurnActive now =>
    some (bridge.handlePreToolUse reqId input isWebTurnActive now)
  | .permissionRequest reqId input isWebTurnActive now =>
    some (bridge.handlePermissionRequest reqId input isWebTurnActive now)
  | .resolve reqId decision drove now => some (bridge.resolve reqId decision drove now).2
  | .resolveLocalOutcome toolName approved now =>
    some (bridge.resolveLocalOutcome toolName approved now)
  | .reset reason clock => some (bridge.reset reason clock)
  | .notePermissionMode mode => some (bridge.notePermissionMode mode)
  | .waitForModeEcho => some bridge.waitForModeEcho
  | .fire timer now =>
    if timer ∈ bridge.timers.pending then
      some ((bridge.clearTimer timer.handle).runTimer timer now)
    else none

end PreToolPermissionBridge

end Kvy.Cli.Claude
