import Kvy.Cli.Claude.PreToolPermissionBridge

/-!
# The life of a permission request

The bridge seen from one hook call: what waits for it, what is recorded of it, and how often an
answer to it was accepted. A call is let through, or its request waits in one of three places
until it is done. A question whose answers cannot be put into words is stuck.
-/

namespace Kvy.Cli.Claude

open General Wire Permissions PreToolPermissionBridge

/-- What the bridge holds and has told about one hook call. -/
structure BridgeView where
  question : Option PendingPreToolRequest
  permission : Option PendingPermissionRequest
  entries : List LocalOutcome
  driven : Bool
  card : Card HookOutput
  oks : Nat

/-- The view of a hook call, with the answers accepted so far. -/
def PreToolPermissionBridge.view (bridge : PreToolPermissionBridge) (oks : List String)
    (reqId : String) : BridgeView where
  question := bridge.pending.get? reqId
  permission := bridge.permRequestPending.get? reqId
  entries := bridge.localOutcomePending.filter (fun entry => entry.reqId = reqId)
  driven := decide (reqId ∈ bridge.drivenLocalReqIds)
  card := bridge.ledger.card reqId
  oks := oks.count reqId

/-- Where a hook call stands. -/
inductive Stage where
  | blank
  | passed
  | question
  | permission
  | atTerminal (driven : Bool)
  | done (decision : PermDecision)
  | stuck

/-- What a stage looks like. -/
inductive Shows : Stage → BridgeView → Prop
  | blank : Shows .blank ⟨none, none, [], false, .blank, 0⟩
  | passed (answer : HookOutput) : Shows .passed ⟨none, none, [], false, ⟨none, 0, [], [answer]⟩, 0⟩
  | question (pending : PendingPreToolRequest) (request : AgentStateRequest)
      (asks : pending.isQuestion = true) :
      Shows .question ⟨some pending, none, [], false, ⟨some request, 1, [], []⟩, 0⟩
  | permission (pending : PendingPermissionRequest) (request : AgentStateRequest) :
      Shows .permission ⟨none, some pending, [], false, ⟨some request, 1, [], []⟩, 0⟩
  | atTerminal (driven : Bool) (entry : LocalOutcome) (request : AgentStateRequest)
      (answer : HookOutput) :
      Shows (.atTerminal driven)
        ⟨none, none, [entry], driven, ⟨some request, 1, [], [answer]⟩, if driven then 1 else 0⟩
  | done (decision : PermDecision) (answer : HookOutput) (oks : Nat) (once : oks ≤ 1) :
      Shows (.done decision) ⟨none, none, [], false, ⟨none, 1, [decision], [answer]⟩, oks⟩
  | stuck (request : AgentStateRequest) :
      Shows .stuck ⟨none, none, [], false, ⟨some request, 1, [], []⟩, 0⟩

/-- A hook call, and whether it opens a request. -/
structure HookCall where
  reqId : String
  opens : Bool
deriving DecidableEq

/-- The hook call an event makes. -/
def PreToolPermissionBridge.Event.call? : Event → Option HookCall
  | .preToolUse reqId input _ _ => some ⟨reqId, isAskUserQuestion input.toolName⟩
  | .permissionRequest reqId input _ _ => some ⟨reqId, !isAskUserQuestion input.toolName⟩
  | _ => none

/-- Where a hook call stands after it is made. -/
def PreToolPermissionBridge.Event.opened : Event → Stage
  | .preToolUse _ input isWebTurnActive _ =>
    if isAskUserQuestion input.toolName then
      if isWebTurnActive then .question else .atTerminal false
    else .passed
  | .permissionRequest _ input isWebTurnActive _ =>
    if isAskUserQuestion input.toolName then .passed
    else if isWebTurnActive then .permission else .atTerminal false
  | _ => .blank

/-- The event answers a question with answers that cannot be put into words. -/
def Fails (bridge : PreToolPermissionBridge) (event : Event) (reqId : String) : Prop :=
  ∃ decision drove now pending, event = .resolve reqId decision drove now ∧
    bridge.pending.get? reqId = some pending ∧ mapDecision pending decision = none

/-- The event completes a local request: with the outcome of the tool that it is the oldest
request of, or as a reset does. -/
inductive Concludes (bridge : PreToolPermissionBridge) (event : Event) (reqId : String) :
    PermDecision → Prop
  | outcome (toolName : String) (approved : Bool) (now : Decimal)
      (happens : event = .resolveLocalOutcome toolName approved now) (entry : LocalOutcome)
      (oldest : bridge.localOutcomePending.find? (fun held => held.toolName = toolName) = some entry)
      (named : entry.reqId = reqId) : Concludes bridge event reqId (localDecision approved)
  | reset (reason : Option String) (clock : String → Decimal) (happens : event = .reset reason clock)
      (message : Option String) : Concludes bridge event reqId (.deny message)

/-- The event leaves a hook call where it stands. -/
def Undisturbed (bridge : PreToolPermissionBridge) (event : Event) (reqId : String) : Stage → Prop
  | .question => ¬ Fails bridge event reqId
  | .atTerminal _ => ∀ decision, ¬ Concludes bridge event reqId decision
  | _ => True

/-- The event may end a hook call with a decision. -/
def Finishes (bridge : PreToolPermissionBridge) (event : Event) (reqId : String)
    (decision : PermDecision) : Stage → Prop
  | .question => ¬ Fails bridge event reqId
  | .permission => True
  | .atTerminal _ => Concludes bridge event reqId decision
  | _ => False

/-- How a hook call moves on. -/
inductive StageStep (bridge : PreToolPermissionBridge) (event : Event) (reqId : String) :
    Stage → Stage → Prop
  | stay (stage : Stage) (old : ∀ call ∈ event.call?, call.reqId ≠ reqId)
      (undisturbed : Undisturbed bridge event reqId stage) : StageStep bridge event reqId stage stage
  | start (opens : Bool) (made : event.call? = some ⟨reqId, opens⟩) :
      StageStep bridge event reqId .blank event.opened
  | drive (old : ∀ call ∈ event.call?, call.reqId ≠ reqId)
      (undecided : ∀ decision, ¬ Concludes bridge event reqId decision) :
      StageStep bridge event reqId (.atTerminal false) (.atTerminal true)
  | finish (stage : Stage) (decision : PermDecision) (old : ∀ call ∈ event.call?, call.reqId ≠ reqId)
      (finishes : Finishes bridge event reqId decision stage) :
      StageStep bridge event reqId stage (.done decision)
  | fail (old : ∀ call ∈ event.call?, call.reqId ≠ reqId) (fails : Fails bridge event reqId) :
      StageStep bridge event reqId .question .stuck

/-! ## What the parts of a step do to a view -/

namespace PreToolPermissionBridge

variable (bridge : PreToolPermissionBridge) (oks : List String) (reqId : String)

/-- A call that is about no request. -/
theorem view_call (called : PermissionCall HookOutput) (asks : called.asks reqId = false)
    (decides : called.decision? reqId = none) (answers : called.answer? reqId = none) :
    (bridge.call called).view oks reqId = bridge.view oks reqId := by
  simp only [view, call, PermissionLedger.card_call bridge.ledger reqId asks decides answers]
  rfl

/-- Timers and the mode are no part of a view. -/
theorem view_tellWatcher (mode : Option PermissionMode) (watcher : Nat) :
    (bridge.tellWatcher mode watcher).view oks reqId = bridge.view oks reqId :=
  view_call bridge oks reqId _ rfl rfl rfl

theorem view_tellWatchers (mode : Option PermissionMode) (watchers : List Nat) :
    (watchers.foldl (tellWatcher · mode ·) bridge).view oks reqId = bridge.view oks reqId := by
  induction watchers generalizing bridge with
  | nil => rfl
  | cons watcher rest inductionHypothesis =>
    rw [List.foldl_cons, inductionHypothesis, view_tellWatcher]

theorem view_cachePermissionMode (raw : Option String) :
    (bridge.cachePermissionMode raw).view oks reqId = bridge.view oks reqId := by
  unfold cachePermissionMode
  cases raw.bind permissionMode? with
  | none => rfl
  | some mode =>
    simp only
    rw [view_tellWatchers]
    split
    · exact view_call bridge oks reqId _ rfl rfl rfl
    · rfl

theorem view_passThrough (passed : String) (answer : HookOutput) :
    (bridge.passThrough passed answer).view oks reqId =
      if reqId = passed then
        { bridge.view oks reqId with card := (bridge.view oks reqId).card.settle answer }
      else bridge.view oks reqId := by
  by_cases same : reqId = passed
  · simp only [passThrough, call, view, PermissionLedger.card_settle, if_pos same]
    rfl
  · simp only [passThrough, call, view, PermissionLedger.card_settle, if_neg same]
    rfl

theorem view_finishRequest (finished : String) (decision : PermDecision) (status : CompletedStatus)
    (now : Decimal) :
    (bridge.finishRequest finished decision status now).view oks reqId =
      if reqId = finished then
        { bridge.view oks reqId with card := (bridge.view oks reqId).card.decide decision }
      else bridge.view oks reqId := by
  by_cases same : reqId = finished
  · simp only [finishRequest, view, PermissionLedger.card_finishRequest, if_pos same]
    rfl
  · simp only [finishRequest, view, PermissionLedger.card_finishRequest, if_neg same]
    rfl

theorem view_conclude (finished : String) (decision : PermDecision) (status : CompletedStatus)
    (now : Decimal) (answer : HookOutput) :
    (bridge.conclude finished decision status now answer).view oks reqId =
      if reqId = finished then
        { bridge.view oks reqId with
          card := ((bridge.view oks reqId).card.decide decision).settle answer }
      else bridge.view oks reqId := by
  have settled := view_passThrough (bridge.finishRequest finished decision status now) oks reqId
    finished answer
  rw [view_finishRequest] at settled
  by_cases same : reqId = finished
  · simp only [if_pos same] at settled ⊢
    exact settled
  · simp only [if_neg same] at settled ⊢
    exact settled

theorem view_modeChange (decision : PermDecision) :
    (bridge.modeChange decision).view oks reqId = bridge.view oks reqId := by
  cases decision with
  | mode mode => exact view_call bridge oks reqId _ rfl rfl rfl
  | allow scope updatedInput => rfl
  | deny message => rfl

theorem view_releaseQuestion (released : String) :
    (bridge.releaseQuestion released).view oks reqId =
      if reqId = released then { bridge.view oks reqId with question := none }
      else bridge.view oks reqId := by
  by_cases same : reqId = released
  · simp only [releaseQuestion, view, OrderedMap.get_delete, if_pos same]
    rfl
  · simp only [releaseQuestion, view, OrderedMap.get_delete, if_neg same]
    rfl

theorem view_releasePermission (released : String) :
    (bridge.releasePermission released).view oks reqId =
      if reqId = released then { bridge.view oks reqId with permission := none }
      else bridge.view oks reqId := by
  by_cases same : reqId = released
  · simp only [releasePermission, view, OrderedMap.get_delete, if_pos same]
    rfl
  · simp only [releasePermission, view, OrderedMap.get_delete, if_neg same]
    rfl

theorem view_clearTimer (timer : Nat) :
    (bridge.clearTimer timer).view oks reqId = bridge.view oks reqId := rfl

/-- A request that is put onto the timeline. -/
theorem view_openRequest (opened : String) (request : AgentStateRequest)
    (modes : List PermissionMode) (answerable : Bool) :
    { bridge with ledger := bridge.ledger.openRequest opened request modes answerable }.view oks reqId =
      if reqId = opened then { bridge.view oks reqId with card := (bridge.view oks reqId).card.ask request }
      else bridge.view oks reqId := by
  by_cases same : reqId = opened
  · simp only [view, PermissionLedger.card_openRequest, if_pos same]
  · simp only [view, PermissionLedger.card_openRequest, if_neg same]

/-- A question that starts to wait. -/
theorem view_waitQuestion (waiting : String) (pending : PendingPreToolRequest)
    (timers : Timers BridgeTimer) :
    { bridge with pending := bridge.pending.set waiting pending, timers := timers }.view oks reqId =
      if reqId = waiting then { bridge.view oks reqId with question := some pending }
      else bridge.view oks reqId := by
  by_cases same : reqId = waiting
  · simp only [view, OrderedMap.get_set, if_pos same]
  · simp only [view, OrderedMap.get_set, if_neg same]

/-- A permission that starts to wait. -/
theorem view_waitPermission (waiting : String) (pending : PendingPermissionRequest)
    (timers : Timers BridgeTimer) :
    { bridge with
      permRequestPending := bridge.permRequestPending.set waiting pending
      timers := timers }.view oks reqId =
      if reqId = waiting then { bridge.view oks reqId with permission := some pending }
      else bridge.view oks reqId := by
  by_cases same : reqId = waiting
  · simp only [view, OrderedMap.get_set, if_pos same]
  · simp only [view, OrderedMap.get_set, if_neg same]

/-- A request that waits at the terminal. -/
theorem view_waitLocal (entry : LocalOutcome) :
    { bridge with localOutcomePending := bridge.localOutcomePending ++ [entry] }.view oks reqId =
      if reqId = entry.reqId then
        { bridge.view oks reqId with entries := (bridge.view oks reqId).entries ++ [entry] }
      else bridge.view oks reqId := by
  by_cases same : reqId = entry.reqId
  · simp [view, same]
  · simp [view, same, Ne.symm same]

variable {bridge oks reqId}

/-- A local request: it is recorded, waits at the terminal, and the hook is let through. -/
theorem shows_local (unused : Shows .blank (bridge.view oks reqId)) (request : AgentStateRequest)
    (modes : List PermissionMode) (answerable : Bool) (entry : LocalOutcome)
    (named : entry.reqId = reqId) (answer : HookOutput) :
    Shows (.atTerminal false)
      ((({ bridge with
          ledger := bridge.ledger.openRequest reqId request modes answerable
          localOutcomePending := bridge.localOutcomePending ++ [entry] }.call
        .onPromptLikely).passThrough reqId answer).view oks reqId) := by
  have opened := view_openRequest bridge oks reqId reqId request modes answerable
  have waits := view_waitLocal
    { bridge with ledger := bridge.ledger.openRequest reqId request modes answerable } oks reqId entry
  rw [view_passThrough, if_pos rfl, view_call _ _ _ _ rfl rfl rfl, waits, if_pos named.symm, opened,
    if_pos rfl]
  generalize bridge.view oks reqId = view at unused
  cases unused
  exact .atTerminal false entry request answer

/-- Another request does not change a view. -/
theorem view_local_other (made : String) (other : reqId ≠ made) (request : AgentStateRequest)
    (modes : List PermissionMode) (answerable : Bool) (entry : LocalOutcome)
    (named : entry.reqId = made) (answer : HookOutput) :
    ((({ bridge with
        ledger := bridge.ledger.openRequest made request modes answerable
        localOutcomePending := bridge.localOutcomePending ++ [entry] }.call
      .onPromptLikely).passThrough made answer).view oks reqId) = bridge.view oks reqId := by
  have opened := view_openRequest bridge oks reqId made request modes answerable
  have waits := view_waitLocal
    { bridge with ledger := bridge.ledger.openRequest made request modes answerable } oks reqId entry
  rw [view_passThrough, if_neg other, view_call _ _ _ _ rfl rfl rfl, waits,
    if_neg (named ▸ other), opened, if_neg other]

theorem view_question_other (made : String) (other : reqId ≠ made) (request : AgentStateRequest)
    (modes : List PermissionMode) (answerable : Bool) (pending : PendingPreToolRequest)
    (timers : Timers BridgeTimer) :
    { bridge with
      ledger := bridge.ledger.openRequest made request modes answerable
      pending := bridge.pending.set made pending
      timers := timers }.view oks reqId = bridge.view oks reqId := by
  have opened := view_openRequest bridge oks reqId made request modes answerable
  have waits := view_waitQuestion
    { bridge with ledger := bridge.ledger.openRequest made request modes answerable } oks reqId made
    pending timers
  rw [waits, if_neg other, opened, if_neg other]

theorem view_permission_other (made : String) (other : reqId ≠ made) (request : AgentStateRequest)
    (modes : List PermissionMode) (answerable : Bool) (pending : PendingPermissionRequest)
    (timers : Timers BridgeTimer) :
    { bridge with
      ledger := bridge.ledger.openRequest made request modes answerable
      permRequestPending := bridge.permRequestPending.set made pending
      timers := timers }.view oks reqId = bridge.view oks reqId := by
  have opened := view_openRequest bridge oks reqId made request modes answerable
  have waits := view_waitPermission
    { bridge with ledger := bridge.ledger.openRequest made request modes answerable } oks reqId made
    pending timers
  rw [waits, if_neg other, opened, if_neg other]

/-- A question on a web turn waits for its answer. -/
theorem shows_question (unused : Shows .blank (bridge.view oks reqId)) (request : AgentStateRequest)
    (modes : List PermissionMode) (answerable : Bool) (pending : PendingPreToolRequest)
    (asks : pending.isQuestion = true) (timers : Timers BridgeTimer) :
    Shows .question ({ bridge with
      ledger := bridge.ledger.openRequest reqId request modes answerable
      pending := bridge.pending.set reqId pending
      timers := timers }.view oks reqId) := by
  have opened := view_openRequest bridge oks reqId reqId request modes answerable
  have waits := view_waitQuestion
    { bridge with ledger := bridge.ledger.openRequest reqId request modes answerable } oks reqId reqId
    pending timers
  rw [waits, if_pos rfl, opened, if_pos rfl]
  generalize bridge.view oks reqId = view at unused
  cases unused
  exact .question pending request asks

/-- A permission on a web turn waits for its answer. -/
theorem shows_permission (unused : Shows .blank (bridge.view oks reqId)) (request : AgentStateRequest)
    (modes : List PermissionMode) (answerable : Bool) (pending : PendingPermissionRequest)
    (timers : Timers BridgeTimer) :
    Shows .permission ({ bridge with
      ledger := bridge.ledger.openRequest reqId request modes answerable
      permRequestPending := bridge.permRequestPending.set reqId pending
      timers := timers }.view oks reqId) := by
  have opened := view_openRequest bridge oks reqId reqId request modes answerable
  have waits := view_waitPermission
    { bridge with ledger := bridge.ledger.openRequest reqId request modes answerable } oks reqId reqId
    pending timers
  rw [waits, if_pos rfl, opened, if_pos rfl]
  generalize bridge.view oks reqId = view at unused
  cases unused
  exact .permission pending request

/-- A hook call that is let through without a request. -/
theorem shows_passThrough (unused : Shows .blank (bridge.view oks reqId)) (answer : HookOutput) :
    Shows .passed ((bridge.passThrough reqId answer).view oks reqId) := by
  rw [view_passThrough, if_pos rfl]
  generalize bridge.view oks reqId = view at unused
  cases unused
  exact .passed answer

/-- An unused name is told apart from the calls made. -/
theorem shows_call (unused : Shows .blank (bridge.view oks reqId))
    (called : PermissionCall HookOutput) (asks : called.asks reqId = false)
    (decides : called.decision? reqId = none) (answers : called.answer? reqId = none) :
    Shows .blank ((bridge.call called).view oks reqId) := by
  rwa [view_call bridge oks reqId called asks decides answers]

/-- A `PreToolUse` call opens a request for a question and is let through otherwise. -/
theorem shows_preToolUse (unused : Shows .blank (bridge.view oks reqId)) (input : HookInput)
    (isWebTurnActive : Bool) (now : Decimal) :
    Shows (Event.preToolUse reqId input isWebTurnActive now).opened
      ((bridge.handlePreToolUse reqId input isWebTurnActive now).view oks reqId) := by
  have cached : Shows .blank ((bridge.cachePermissionMode input.permissionMode).view oks reqId) := by
    rwa [view_cachePermissionMode]
  unfold handlePreToolUse Event.opened
  by_cases question : isAskUserQuestion input.toolName = true
  · simp only [if_pos question]
    have told := shows_call cached (.attention .question) rfl rfl rfl
    unfold handleAskUserQuestion
    cases isWebTurnActive with
    | true => exact shows_question told _ _ _ _ rfl _
    | false => exact shows_local told _ _ _ _ rfl _
  · simp only [if_neg question]
    apply shows_passThrough
    split
    · exact cached
    · exact shows_call cached _ rfl rfl rfl

/-- A `PermissionRequest` call is let through for a question and opens a request otherwise. -/
theorem shows_permissionRequest (unused : Shows .blank (bridge.view oks reqId)) (input : HookInput)
    (isWebTurnActive : Bool) (now : Decimal) :
    Shows (Event.permissionRequest reqId input isWebTurnActive now).opened
      ((bridge.handlePermissionRequest reqId input isWebTurnActive now).view oks reqId) := by
  have cached : Shows .blank ((bridge.cachePermissionMode input.permissionMode).view oks reqId) := by
    rwa [view_cachePermissionMode]
  unfold handlePermissionRequest Event.opened
  by_cases question : isAskUserQuestion input.toolName = true
  · simp only [if_pos question]
    exact shows_passThrough cached _
  · simp only [if_neg question]
    have told := shows_call cached (.attention .perm) rfl rfl rfl
    cases isWebTurnActive with
    | true => exact shows_permission told _ _ _ _ _
    | false => exact shows_local told _ _ _ _ rfl _

theorem view_handleAskUserQuestion_other (made : String) (other : reqId ≠ made) (input : HookInput)
    (isWebTurnActive : Bool) (now : Decimal) :
    (bridge.handleAskUserQuestion made input isWebTurnActive now).view oks reqId =
      (bridge.call (.attention .question)).view oks reqId := by
  cases isWebTurnActive with
  | true => exact @view_question_other (bridge.call (.attention .question)) oks reqId made other _ _ _ _ _
  | false =>
    exact @view_local_other (bridge.call (.attention .question)) oks reqId made other _ _ _
      ⟨made, _, _, _⟩ rfl _

/-- Another hook call does not change a view. -/
theorem view_preToolUse_other (made : String) (other : reqId ≠ made) (input : HookInput)
    (isWebTurnActive : Bool) (now : Decimal) :
    (bridge.handlePreToolUse made input isWebTurnActive now).view oks reqId =
      bridge.view oks reqId := by
  rw [← view_cachePermissionMode bridge oks reqId input.permissionMode]
  unfold handlePreToolUse
  by_cases question : isAskUserQuestion input.toolName = true
  · simp only [if_pos question]
    rw [← view_call (bridge.cachePermissionMode input.permissionMode) oks reqId
      (.attention .question) rfl rfl rfl]
    exact view_handleAskUserQuestion_other made other input isWebTurnActive now
  · simp only [if_neg question]
    rw [view_passThrough, if_neg other]
    split
    · rfl
    · exact view_call _ _ _ _ rfl rfl rfl

theorem view_permissionRequest_other (made : String) (other : reqId ≠ made) (input : HookInput)
    (isWebTurnActive : Bool) (now : Decimal) :
    (bridge.handlePermissionRequest made input isWebTurnActive now).view oks reqId =
      bridge.view oks reqId := by
  rw [← view_cachePermissionMode bridge oks reqId input.permissionMode]
  unfold handlePermissionRequest
  by_cases question : isAskUserQuestion input.toolName = true
  · simp only [if_pos question]
    rw [view_passThrough, if_neg other]
  · simp only [if_neg question]
    rw [← view_call (bridge.cachePermissionMode input.permissionMode) oks reqId
      (.attention .perm) rfl rfl rfl]
    cases isWebTurnActive with
    | true =>
      exact @view_permission_other
        ((bridge.cachePermissionMode input.permissionMode).call (.attention .perm)) oks reqId made other
        _ _ _ _ _
    | false =>
      exact @view_local_other
        ((bridge.cachePermissionMode input.permissionMode).call (.attention .perm)) oks reqId made other
        _ _ _ ⟨made, _, _, _⟩ rfl _

end PreToolPermissionBridge

end Kvy.Cli.Claude
