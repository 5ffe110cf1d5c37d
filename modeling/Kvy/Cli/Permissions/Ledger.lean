import Kvy.Wire.Session

/-!
# Permission requests and their decisions

Both permission handlers of the client keep the requests that wait for a decision and those
that have one, publish the two together, and put a request and its resolution onto the session
timeline. What they tell the outside is recorded in order; the card of a request is the part of
the record that is about it.
-/

namespace Kvy.Cli.Permissions

open General Wire

/-- `AgentStateRequest`. -/
structure AgentStateRequest where
  tool : String
  arguments : List (String × Json)
  createdAt : Decimal

/-- How a request was completed. -/
inductive CompletedStatus where
  | approved
  | denied
  | canceled
deriving DecidableEq

/-- `AgentStateCompletedRequest`. -/
structure AgentStateCompletedRequest extends AgentStateRequest where
  completedAt : Decimal
  status : CompletedStatus
  decision : PermDecision

/-- `AgentStateSnapshot`. -/
structure AgentStateSnapshot where
  requests : OrderedMap String AgentStateRequest
  completedRequests : OrderedMap String AgentStateCompletedRequest

/-- The reasons of a refused answer. -/
inductive RefusedReason where
  | alreadyAnswered
  | localTurn
deriving DecidableEq

/-- `PermAnswerResult`. -/
inductive PermAnswerResult where
  | ok
  | refused (reason : RefusedReason) (decision : Option PermDecision)

/-- `SessionAttentionKind`. -/
inductive SessionAttentionKind where
  | perm
  | question
  | done
deriving DecidableEq

/-- `isAskUserQuestion`. -/
def isAskUserQuestion (name : String) : Bool := name = "AskUserQuestion" || name = "ask_user_question"

/-- `isExitPlanTool`. -/
def isExitPlanTool (name : String) : Bool := name = "ExitPlanMode" || name = "exit_plan_mode"

/-- `ALL_MODES`. -/
def allModes : List PermissionMode := [.default, .acceptEdits, .plan, .bypassPermissions]

/-- `EXIT_PLAN_MODES`. -/
def exitPlanModes : List PermissionMode := [.default, .acceptEdits, .bypassPermissions]

/-- `availableModes`. -/
def availableModes (toolName : String) : List PermissionMode :=
  if isExitPlanTool toolName then exitPlanModes else allModes

/-- A decision under which the tool may run. Switching the mode is one. -/
def allows : PermDecision → Bool
  | .allow _ _ => true
  | .deny _ => false
  | .mode _ => true

universe u

/-- What a handler tells the outside. A request is settled by the answer to whoever asked, and a
wait for a mode by the mode. The emitted envelope gets its id and time where it is made. -/
inductive PermissionCall (ω : Type u) where
  | emitEnvelope (ev : SessionEvent)
  | onAgentStateChange (snapshot : AgentStateSnapshot)
  | onModeChange (mode : PermissionMode)
  | attention (kind : SessionAttentionKind)
  | onPromptLikely
  | modeEcho (watcher : Nat) (mode : Option PermissionMode)
  | settle (reqId : String) (answer : ω)

/-- The requests of a handler and what it has told. -/
structure PermissionLedger (ω : Type u) where
  requests : OrderedMap String AgentStateRequest
  completedRequests : OrderedMap String AgentStateCompletedRequest
  calls : List (PermissionCall ω)

namespace PermissionLedger

variable {ω : Type u}

/-- Nothing asked and nothing told. -/
def create : PermissionLedger ω := ⟨.empty, .empty, []⟩

/-- Call the outside. -/
def call (ledger : PermissionLedger ω) (called : PermissionCall ω) : PermissionLedger ω :=
  { ledger with calls := ledger.calls ++ [called] }

/-- `publishAgentState`. -/
def publishAgentState (ledger : PermissionLedger ω) : PermissionLedger ω :=
  ledger.call (.onAgentStateChange ⟨ledger.requests, ledger.completedRequests⟩)

/-- A new request: recorded, published and put onto the timeline. -/
def openRequest (ledger : PermissionLedger ω) (reqId : String) (request : AgentStateRequest)
    (modes : List PermissionMode) (answerable : Bool) : PermissionLedger ω :=
  ({ ledger with requests := ledger.requests.set reqId request }.publishAgentState).call
    (.emitEnvelope (.permRequest reqId none request.tool (some (.obj request.arguments)) modes
      (some answerable)))

/-- `finishRequest`. -/
def finishRequest (ledger : PermissionLedger ω) (reqId : String) (decision : PermDecision)
    (status : CompletedStatus) (now : Decimal) : PermissionLedger ω :=
  let moved :=
    match ledger.requests.get? reqId with
    | none => ledger
    | some request =>
      { ledger with
        requests := ledger.requests.delete reqId
        completedRequests := ledger.completedRequests.set reqId
          { toAgentStateRequest := request, completedAt := now, status, decision } }.publishAgentState
  moved.call (.emitEnvelope (.permResolve reqId decision))

/-- What a losing answer is told. -/
def alreadyAnswered (ledger : PermissionLedger ω) (reqId : String) : PermAnswerResult :=
  .refused .alreadyAnswered ((ledger.completedRequests.get? reqId).map
    AgentStateCompletedRequest.decision)

/-! ## What has been told -/

/-- The requests of the last published snapshot. -/
def published (ledger : PermissionLedger ω) : OrderedMap String AgentStateRequest :=
  ledger.calls.foldl (fun last called =>
    match called with
    | .onAgentStateChange snapshot => snapshot.requests
    | _ => last) .empty

end PermissionLedger

/-- Whether a call puts a request onto the timeline. -/
def PermissionCall.asks {ω : Type u} (reqId : String) : PermissionCall ω → Bool
  | .emitEnvelope (.permRequest asked _ _ _ _ _) => asked = reqId
  | _ => false

/-- The decision about a request that a call puts onto the timeline. -/
def PermissionCall.decision? {ω : Type u} (reqId : String) : PermissionCall ω → Option PermDecision
  | .emitEnvelope (.permResolve resolved decision) => if resolved = reqId then some decision else none
  | _ => none

/-- The answer with which a call settles a request. -/
def PermissionCall.answer? {ω : Type u} (reqId : String) : PermissionCall ω → Option ω
  | .settle settled answer => if settled = reqId then some answer else none
  | _ => none

/-- What the record holds about one request. -/
structure Card (ω : Type u) where
  request : Option AgentStateRequest
  asked : Nat
  decisions : List PermDecision
  answers : List ω

/-- The card of a request that was never made. -/
def Card.blank {ω : Type u} : Card ω := ⟨none, 0, [], []⟩

/-- The card after its request is decided. -/
def Card.decide {ω : Type u} (card : Card ω) (decision : PermDecision) : Card ω :=
  { card with request := none, decisions := card.decisions ++ [decision] }

/-- The card after its request is settled. -/
def Card.settle {ω : Type u} (card : Card ω) (answer : ω) : Card ω :=
  { card with answers := card.answers ++ [answer] }

/-- The card after its request is put onto the timeline. -/
def Card.ask {ω : Type u} (card : Card ω) (request : AgentStateRequest) : Card ω :=
  { card with request := some request, asked := card.asked + 1 }

namespace PermissionLedger

variable {ω : Type u}

/-- The card of a request. -/
def card (ledger : PermissionLedger ω) (reqId : String) : Card ω where
  request := ledger.requests.get? reqId
  asked := ledger.calls.countP (PermissionCall.asks reqId)
  decisions := ledger.calls.filterMap (PermissionCall.decision? reqId)
  answers := ledger.calls.filterMap (PermissionCall.answer? reqId)

/-- The last snapshot shows the requests. -/
def Published (ledger : PermissionLedger ω) : Prop := ledger.published = ledger.requests

theorem published_create : Published (create : PermissionLedger ω) := rfl

/-- A call that is about no request. -/
theorem card_call (ledger : PermissionLedger ω) {called : PermissionCall ω} (reqId : String)
    (asks : called.asks reqId = false) (decides : called.decision? reqId = none)
    (answers : called.answer? reqId = none) : (ledger.call called).card reqId = ledger.card reqId := by
  simp [call, card, asks, decides, answers]

theorem published_call (ledger : PermissionLedger ω) {called : PermissionCall ω}
    (holds : ledger.Published) (silent : ∀ snapshot, called ≠ .onAgentStateChange snapshot) :
    (ledger.call called).Published := by
  unfold Published published call at *
  rw [List.foldl_append, holds]
  cases called with
  | onAgentStateChange snapshot => exact absurd rfl (silent snapshot)
  | emitEnvelope ev => rfl
  | onModeChange mode => rfl
  | attention kind => rfl
  | onPromptLikely => rfl
  | modeEcho watcher mode => rfl
  | settle reqId answer => rfl

theorem published_publish (ledger : PermissionLedger ω) : ledger.publishAgentState.Published := by
  unfold Published published publishAgentState call
  rw [List.foldl_append]
  rfl

theorem card_openRequest (ledger : PermissionLedger ω) (opened : String)
    (request : AgentStateRequest) (modes : List PermissionMode) (answerable : Bool) (reqId : String) :
    (ledger.openRequest opened request modes answerable).card reqId =
      if reqId = opened then (ledger.card reqId).ask request else ledger.card reqId := by
  by_cases same : reqId = opened
  · subst same
    simp [openRequest, publishAgentState, call, card, Card.ask, PermissionCall.asks, PermissionCall.decision?,
      PermissionCall.answer?]
  · have other : opened ≠ reqId := Ne.symm same
    simp [openRequest, publishAgentState, call, card, PermissionCall.asks, PermissionCall.decision?,
      PermissionCall.answer?, same, other]

theorem published_openRequest (ledger : PermissionLedger ω) (opened : String)
    (request : AgentStateRequest) (modes : List PermissionMode) (answerable : Bool) :
    (ledger.openRequest opened request modes answerable).Published :=
  published_call _ (published_publish _) (by simp)

theorem card_finishRequest (ledger : PermissionLedger ω) (finished : String)
    (decision : PermDecision) (status : CompletedStatus) (now : Decimal) (reqId : String) :
    (ledger.finishRequest finished decision status now).card reqId =
      if reqId = finished then (ledger.card reqId).decide decision else ledger.card reqId := by
  unfold finishRequest
  by_cases same : reqId = finished
  · subst same
    cases held : ledger.requests.get? reqId with
    | none => simp [call, card, Card.decide, PermissionCall.asks, PermissionCall.decision?,
        PermissionCall.answer?, held]
    | some request => simp [publishAgentState, call, card, Card.decide, PermissionCall.asks,
        PermissionCall.decision?, PermissionCall.answer?, List.filterMap_cons]
  · have other : finished ≠ reqId := Ne.symm same
    cases held : ledger.requests.get? finished with
    | none => simp [call, card, PermissionCall.asks, PermissionCall.decision?,
        PermissionCall.answer?, same, other]
    | some request => simp [publishAgentState, call, card, PermissionCall.asks,
        PermissionCall.decision?, PermissionCall.answer?, same, other]

theorem published_finishRequest (ledger : PermissionLedger ω) (finished : String)
    (decision : PermDecision) (status : CompletedStatus) (now : Decimal)
    (holds : ledger.Published) : (ledger.finishRequest finished decision status now).Published := by
  unfold finishRequest
  apply published_call
  · cases ledger.requests.get? finished with
    | none => exact holds
    | some request => exact published_publish _
  · simp

theorem card_settle (ledger : PermissionLedger ω) (settled : String) (answer : ω) (reqId : String) :
    (ledger.call (.settle settled answer)).card reqId =
      if reqId = settled then (ledger.card reqId).settle answer else ledger.card reqId := by
  by_cases same : reqId = settled
  · subst same
    simp [call, card, Card.settle, PermissionCall.asks, PermissionCall.decision?,
      PermissionCall.answer?]
  · have other : settled ≠ reqId := Ne.symm same
    simp [call, card, PermissionCall.asks, PermissionCall.decision?, PermissionCall.answer?, same,
      other]

theorem published_settle (ledger : PermissionLedger ω) (settled : String) (answer : ω)
    (holds : ledger.Published) : (ledger.call (.settle settled answer)).Published :=
  published_call ledger holds (by simp)

end PermissionLedger

end Kvy.Cli.Permissions
