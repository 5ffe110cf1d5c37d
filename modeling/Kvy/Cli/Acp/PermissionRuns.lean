import Kvy.Cli.Acp.PermissionHandler
import Kvy.General.Runs

/-!
# Runs of the ACP permission handler

Each request is followed on its own: what is pending for it and its card. A request waits, was
refused because it was aborted before it was made, or is concluded by one decision and one
answer. The two agree exactly when an allowing decision finds an allow option and a denying one
selects no id of an allow option.
-/

namespace Kvy.Cli.Acp

open General General.Runs Wire Permissions AcpPermissionHandler

/-- A request as it was made. -/
structure Requested where
  reqId : String
  options : List PermissionOption

/-- The request an event makes. -/
def AcpPermissionHandler.Event.requested? : Event → Option Requested
  | .request reqId _ options _ _ => some ⟨reqId, options⟩
  | _ => none

/-- What the handler holds and has told about one request. -/
abbrev View := Option PendingAcpRequest × Card PermissionOutcome

/-- The view of a request. -/
def AcpPermissionHandler.view (handler : AcpPermissionHandler) (reqId : String) : View :=
  (handler.pending.get? reqId, handler.ledger.card reqId)

/-- The view after a request is concluded. -/
def concluded (view : View) (decision : PermDecision) (outcome : PermissionOutcome) : View :=
  (none, (view.2.decide decision).settle outcome)

/-- What a step does to the view of a request. -/
inductive Moves (event : Event) (reqId : String) (view next : View) : Prop
  | stay (old : ∀ request ∈ event.requested?, request.reqId ≠ reqId)
      (idle : ∀ decision now, event = .resolve reqId decision now → view.1 = none)
      (same : next = view)
  | refuse (toolCall : Json) (options : List PermissionOption) (now : Decimal)
      (made : event = .request reqId toolCall options true now)
      (same : next = (view.1, view.2.settle .cancelled))
  | ask (toolCall : Json) (options : List PermissionOption) (now : Decimal)
      (made : event = .request reqId toolCall options false now) (pending : PendingAcpRequest)
      (request : AgentStateRequest) (offers : pending.options = options)
      (same : next = (some pending, view.2.ask request))
  | answer (pending : PendingAcpRequest) (held : view.1 = some pending) (decision : PermDecision)
      (now : Decimal) (resolved : event = .resolve reqId decision now)
      (same : next = concluded view decision (mapDecision pending.options decision))
  | giveUp (pending : PendingAcpRequest) (held : view.1 = some pending) (message : Option String)
      (unanswered : ∀ decision now, event ≠ .resolve reqId decision now)
      (same : next = concluded view (.deny message) .cancelled)

namespace AcpPermissionHandler

variable (handler : AcpPermissionHandler)

theorem view_reportAttention (kind : SessionAttentionKind) (reqId : String) :
    (handler.reportAttention kind).view reqId = handler.view reqId := by
  unfold reportAttention
  split
  · exact congrArg (Prod.mk _) (PermissionLedger.card_call handler.ledger reqId rfl rfl rfl)
  · rfl

/-- Concluding a request changes the card of that request alone. -/
theorem card_conclude (finished : String) (decision : PermDecision) (status : CompletedStatus)
    (now : Decimal) (outcome : PermissionOutcome) (reqId : String) :
    (handler.conclude finished decision status now outcome).ledger.card reqId =
      if reqId = finished then ((handler.ledger.card reqId).decide decision).settle outcome
      else handler.ledger.card reqId := by
  rw [conclude, PermissionLedger.card_settle]
  by_cases same : reqId = finished
  · simp only [if_pos same, PermissionLedger.card_finishRequest]
  · simp only [if_neg same, PermissionLedger.card_finishRequest]

theorem published_conclude (finished : String) (decision : PermDecision) (status : CompletedStatus)
    (now : Decimal) (outcome : PermissionOutcome) (holds : handler.ledger.Published) :
    (handler.conclude finished decision status now outcome).ledger.Published :=
  PermissionLedger.published_settle _ _ _
    (PermissionLedger.published_finishRequest _ _ _ _ _ holds)

/-- A pending request that is removed and concluded. -/
theorem view_conclude (finished : String) (decision : PermDecision) (status : CompletedStatus)
    (now : Decimal) (outcome : PermissionOutcome) (reqId : String) :
    ((handler.remove finished).conclude finished decision status now outcome).view reqId =
      if reqId = finished then concluded (handler.view reqId) decision outcome
      else handler.view reqId := by
  have card := card_conclude (handler.remove finished) finished decision status now outcome reqId
  have pending : ((handler.remove finished).conclude finished decision status now outcome).pending =
      handler.pending.delete finished := rfl
  rw [view, card, pending, OrderedMap.get_delete]
  by_cases same : reqId = finished
  · simp only [if_pos same]
    rfl
  · simp only [if_neg same]
    rfl

/-- The cards after a list of requests is given up. -/
theorem card_reset (decision : PermDecision) (clock : String → Decimal)
    (entries : List (String × PendingAcpRequest)) (distinct : (entries.map Prod.fst).Nodup)
    (reqId : String) :
    ((entries.foldl (fun closing entry =>
      closing.conclude entry.1 decision .canceled (clock entry.1) .cancelled)
      handler).ledger.card reqId) =
      if reqId ∈ entries.map Prod.fst then
        ((handler.ledger.card reqId).decide decision).settle .cancelled
      else handler.ledger.card reqId := by
  induction entries generalizing handler with
  | nil => rfl
  | cons entry rest inductionHypothesis =>
    obtain ⟨absent, others⟩ := List.nodup_cons.mp distinct
    rw [List.foldl_cons, inductionHypothesis _ others, card_conclude]
    by_cases first : reqId = entry.1
    · subst first
      simp only [absent, List.map_cons, List.mem_cons, true_or, ↓reduceIte]
    · simp only [List.map_cons, List.mem_cons, first, false_or, ↓reduceIte]

theorem published_reset (decision : PermDecision) (clock : String → Decimal)
    (entries : List (String × PendingAcpRequest)) (holds : handler.ledger.Published) :
    (entries.foldl (fun closing entry =>
      closing.conclude entry.1 decision .canceled (clock entry.1) .cancelled)
      handler).ledger.Published := by
  induction entries generalizing handler with
  | nil => exact holds
  | cons entry rest inductionHypothesis =>
    exact inductionHypothesis _ (published_conclude handler _ _ _ _ _ holds)

theorem view_modeChange (decision : PermDecision) (reqId : String) :
    (handler.modeChange decision).view reqId = handler.view reqId := by
  cases decision with
  | mode mode => exact congrArg (Prod.mk _) (PermissionLedger.card_call handler.ledger reqId rfl rfl rfl)
  | allow scope updatedInput => rfl
  | deny message => rfl

theorem view_abort (aborted : String) (now : Decimal) (reqId : String) :
    Moves (.abort aborted now) reqId (handler.view reqId) ((handler.abort aborted now).view reqId) := by
  unfold abort
  by_cases listening : aborted ∈ handler.listeners
  · rw [if_pos listening]
    cases held : handler.pending.get? aborted with
    | none =>
      simp only [held]
      exact .stay (by simp [Event.requested?]) (by simp) rfl
    | some pending =>
      simp only [held]
      have after := view_conclude { handler with
        listeners := handler.listeners.filter (fun listener => listener ≠ aborted) }
        aborted abortDecision .canceled now .cancelled reqId
      by_cases same : reqId = aborted
      · subst same
        rw [if_pos rfl] at after
        exact .giveUp pending held _ (by simp) after
      · rw [if_neg same] at after
        exact .stay (by simp [Event.requested?]) (by simp) after
  · rw [if_neg listening]
    exact .stay (by simp [Event.requested?]) (by simp) rfl

theorem view_resolve
    (resolved : String) (decision : PermDecision) (now : Decimal) (reqId : String) :
    Moves (.resolve resolved decision now) reqId (handler.view reqId)
      ((handler.resolve resolved decision now).2.view reqId) := by
  unfold resolve
  cases held : handler.pending.get? resolved with
  | none =>
    apply Moves.stay (by simp [Event.requested?]) _ rfl
    intro other later same
    cases same
    exact held
  | some pending =>
    simp only
    have swapped : (handler.remove resolved).modeChange decision =
        (handler.modeChange decision).remove resolved := by
      cases decision <;> rfl
    rw [swapped, view_conclude]
    by_cases same : reqId = resolved
    · subst same
      rw [if_pos rfl, view_modeChange]
      exact .answer pending held decision now rfl rfl
    · rw [if_neg same, view_modeChange]
      apply Moves.stay (by simp [Event.requested?]) _ rfl
      intro other later isSame
      cases isSame
      exact absurd rfl same

theorem view_reset (reason : Option String) (clock : String → Decimal) (reqId : String) :
    Moves (.reset reason clock) reqId (handler.view reqId)
      ((handler.reset reason clock).view reqId) := by
  have card := card_reset handler (.deny (some (reason.getD "Session switched to local mode"))) clock
    handler.pending.entries handler.pending.distinct reqId
  by_cases held : reqId ∈ handler.pending.entries.map Prod.fst
  · obtain ⟨pending, found⟩ := (handler.pending.mem_keys reqId).mp held
    rw [if_pos held] at card
    exact .giveUp pending found _ (by simp) (congrArg (Prod.mk none) card)
  · have absent : handler.pending.get? reqId = none := by
      by_contra present
      obtain ⟨pending, found⟩ := Option.ne_none_iff_exists'.mp present
      exact held ((handler.pending.mem_keys reqId).mpr ⟨pending, found⟩)
    rw [if_neg held] at card
    apply Moves.stay (by simp [Event.requested?]) (by simp)
    have before : handler.view reqId = (none, handler.ledger.card reqId) := by rw [view, absent]
    rw [before]
    exact congrArg (Prod.mk none) card

theorem view_handleRequest (made : String) (toolCall : Json) (options : List PermissionOption)
    (aborted : Bool) (now : Decimal) (reqId : String) :
    Moves (.request made toolCall options aborted now) reqId (handler.view reqId)
      ((handler.handleRequest made toolCall options aborted now).view reqId) := by
  have told := view_reportAttention handler
    (if isAskUserQuestion (pickAcpToolName toolCall) then .question else .perm) reqId
  rw [← told]
  unfold handleRequest
  cases aborted with
  | true =>
    simp only [if_true]
    by_cases same : reqId = made
    · subst same
      apply Moves.refuse toolCall options now rfl
      rw [view, PermissionLedger.card_settle, if_pos rfl]
      rfl
    · apply Moves.stay (by simp [Event.requested?, Ne.symm same]) (by simp)
      rw [view, PermissionLedger.card_settle, if_neg same]
      rfl
  | false =>
    simp only [Bool.false_eq_true, if_false]
    by_cases same : reqId = made
    · subst same
      apply Moves.ask toolCall options now rfl ⟨_, _, options⟩ _ rfl
      rw [view, PermissionLedger.card_openRequest, if_pos rfl, OrderedMap.get_set, if_pos rfl]
      rfl
    · apply Moves.stay (by simp [Event.requested?, Ne.symm same]) (by simp)
      rw [view, PermissionLedger.card_openRequest, if_neg same, OrderedMap.get_set, if_neg same]
      rfl

/-- Every step is a move of the view of each request. -/
theorem step_moves (event : Event) (reqId : String) :
    Moves event reqId (handler.view reqId) ((handler.step event).view reqId) := by
  cases event with
  | request made toolCall options aborted now =>
    exact view_handleRequest handler made toolCall options aborted now reqId
  | resolve resolved decision now => exact view_resolve handler resolved decision now reqId
  | abort aborted now => exact view_abort handler aborted now reqId
  | reset reason clock => exact view_reset handler reason clock reqId
  | reportTurnEnd =>
    exact .stay (by simp [Event.requested?]) (by simp) (view_reportAttention handler .done reqId)

theorem published_reportAttention (kind : SessionAttentionKind) (holds : handler.ledger.Published) :
    (handler.reportAttention kind).ledger.Published := by
  unfold reportAttention
  split
  · exact PermissionLedger.published_call _ holds (by simp)
  · exact holds

theorem published_modeChange (decision : PermDecision) (holds : handler.ledger.Published) :
    (handler.modeChange decision).ledger.Published := by
  cases decision with
  | mode mode => exact PermissionLedger.published_call _ holds (by simp)
  | allow scope updatedInput => exact holds
  | deny message => exact holds

/-- The last snapshot shows the requests after every step. -/
theorem step_published (event : Event) (holds : handler.ledger.Published) :
    (handler.step event).ledger.Published := by
  cases event with
  | request made toolCall options aborted now =>
    have told := published_reportAttention handler
      (if isAskUserQuestion (pickAcpToolName toolCall) then .question else .perm) holds
    cases aborted with
    | true => exact PermissionLedger.published_settle _ _ _ told
    | false => exact PermissionLedger.published_openRequest _ _ _ _ _
  | resolve resolved decision now =>
    change (handler.resolve resolved decision now).2.ledger.Published
    unfold resolve
    cases handler.pending.get? resolved with
    | none => exact holds
    | some pending =>
      exact published_conclude _ _ _ _ _ _ (published_modeChange (handler.remove resolved) decision holds)
  | abort aborted now =>
    change (handler.abort aborted now).ledger.Published
    unfold abort
    split
    · simp only
      split
      · exact holds
      · exact published_conclude _ _ _ _ _ _ holds
    · exact holds
  | reset reason clock =>
    exact published_reset handler _ clock handler.pending.entries holds
  | reportTurnEnd => exact published_reportAttention handler .done holds

end AcpPermissionHandler

/-! ## Runs -/

/-- A handler and the requests made to it. -/
structure Observed where
  handler : AcpPermissionHandler
  requested : List Requested

/-- Before anything happens. -/
def Observed.start (attention : Bool) : Observed := ⟨.create attention, []⟩

/-- A step beside the requests made. Every request gets a new id. -/
def observe (observed : Observed) (event : Event) : Option Observed :=
  if ∀ request ∈ event.requested?, request.reqId ∉ observed.requested.map Requested.reqId then
    some ⟨observed.handler.step event, observed.requested ++ event.requested?.toList⟩
  else none

/-- The outcome selects the id of an allow option. -/
def SelectsAllow (options : List PermissionOption) (outcome : PermissionOutcome) : Prop :=
  ∃ option ∈ options, (option.kind = .allowOnce ∨ option.kind = .allowAlways) ∧
    outcome = .selected option.optionId

/-- The life of a request: refused at once, waiting, or concluded by one decision and one answer. -/
inductive Stage (options : List PermissionOption) : View → Prop
  | refused : Stage options (none, ⟨none, 0, [], [.cancelled]⟩)
  | waiting (pending : PendingAcpRequest) (request : AgentStateRequest)
      (offers : pending.options = options) : Stage options (some pending, ⟨some request, 1, [], []⟩)
  | done (decision : PermDecision) (outcome : PermissionOutcome) :
      Stage options (none, ⟨none, 1, [decision], [outcome]⟩)

/-- What is kept of the requests, whatever happens. -/
structure Sound (observed : Observed) : Prop where
  published : observed.handler.ledger.Published
  blank : ∀ reqId ∉ observed.requested.map Requested.reqId,
    observed.handler.view reqId = (none, .blank)
  stage : ∀ request ∈ observed.requested, Stage request.options (observed.handler.view request.reqId)

theorem sound_start (attention : Bool) : Sound (.start attention) where
  published := PermissionLedger.published_create
  blank := by
    intro reqId _
    rfl
  stage := by simp [Observed.start]

variable {event : Event} {options : List PermissionOption} {reqId : String}

/-- A request that was made before keeps to its stages. -/
theorem Stage.step
    {view next : View} (stage : Stage options view) (moves : Moves event reqId view next)
    (old : ∀ request ∈ event.requested?, request.reqId ≠ reqId) : Stage options next := by
  cases moves with
  | stay _ idle same => exact same ▸ stage
  | refuse toolCall offered now made same =>
    exact absurd rfl (old ⟨reqId, offered⟩ (by rw [made]; rfl))
  | ask toolCall offered now made pending request offers same =>
    exact absurd rfl (old ⟨reqId, offered⟩ (by rw [made]; rfl))
  | answer pending held decision now resolved same =>
    cases stage with
    | refused => contradiction
    | waiting waiting request offers =>
      rw [same]
      exact .done decision _
    | done _ _ => contradiction
  | giveUp pending held message unanswered same =>
    cases stage with
    | refused => contradiction
    | waiting waiting request offers =>
      rw [same]
      exact .done _ _
    | done _ _ => contradiction

/-- A request that is made starts its life. -/
theorem stage_new {next : View} (moves : Moves event reqId (none, .blank) next)
    (made : event.requested? = some ⟨reqId, options⟩) : Stage options next := by
  cases moves with
  | stay old idle same => exact absurd rfl (old _ made)
  | refuse toolCall offered now isMade same =>
    rw [isMade] at made
    cases made
    rw [same]
    exact .refused
  | ask toolCall offered now isMade pending recorded offers same =>
    rw [isMade] at made
    cases made
    rw [same]
    exact .waiting pending recorded offers
  | answer pending held decision now resolved same => contradiction
  | giveUp pending held message unanswered same => contradiction

variable {next observed : Observed}

/-- A recorded step, taken apart. -/
theorem observe_cases (taken : observe observed event = some next) :
    (∀ request ∈ event.requested?, request.reqId ∉ observed.requested.map Requested.reqId) ∧
      next = ⟨observed.handler.step event, observed.requested ++ event.requested?.toList⟩ := by
  unfold observe at taken
  split at taken
  · rename_i fresh
    exact ⟨fresh, (Option.some.inj taken).symm⟩
  · contradiction

/-- A step that does not touch a request that was never made. -/
theorem blank_step {next : View} (moves : Moves event reqId (none, .blank) next)
    (unmade : ∀ request ∈ event.requested?, request.reqId ≠ reqId) : next = (none, .blank) := by
  cases moves with
  | stay old idle same => exact same
  | refuse toolCall options now made same => exact absurd rfl (unmade ⟨reqId, options⟩ (by rw [made]; rfl))
  | ask toolCall options now made pending request offers same =>
    exact absurd rfl (unmade ⟨reqId, options⟩ (by rw [made]; rfl))
  | answer pending held decision now resolved same => contradiction
  | giveUp pending held message unanswered same => contradiction

/-- Every step keeps the requests to their stages. -/
theorem Sound.step (sound : Sound observed)
    (taken : observe observed event = some next) : Sound next := by
  obtain ⟨fresh, rfl⟩ := observe_cases taken
  refine ⟨step_published _ event sound.published, ?_, ?_⟩
  · intro reqId absent
    rw [List.map_append, List.mem_append, not_or] at absent
    have moves := step_moves observed.handler event reqId
    rw [sound.blank reqId absent.1] at moves
    apply blank_step moves
    intro request made same
    apply absent.2
    rw [← same]
    exact List.mem_map_of_mem (Option.mem_toList.mpr made)
  · intro request member
    have moves := step_moves observed.handler event request.reqId
    rcases List.mem_append.mp member with before | added
    · apply (sound.stage request before).step moves
      intro other made same
      apply fresh other made
      rw [same]
      exact List.mem_map_of_mem before
    · have made := Option.mem_toList.mp added
      rw [sound.blank request.reqId (fresh request made)] at moves
      exact stage_new moves made

/-- What is said of the requests: each is settled once, its card and the answer to the agent
agree, and the published requests are the pending ones. -/
structure Consistent (observed : Observed) : Prop where
  settled : ∀ request ∈ observed.requested,
    (observed.handler.ledger.card request.reqId).answers.length +
      (if observed.handler.pending.has request.reqId then 1 else 0) = 1
  agrees : ∀ request ∈ observed.requested,
    ∀ decision ∈ (observed.handler.ledger.card request.reqId).decisions,
    ∀ answer ∈ (observed.handler.ledger.card request.reqId).answers,
      allows decision = true ↔ SelectsAllow request.options answer
  keys : ∀ reqId, observed.handler.pending.has reqId =
    observed.handler.ledger.published.has reqId

/-- The decision and the answer of every concluded request agree. -/
def Agreed (observed : Observed) : Prop :=
  ∀ request ∈ observed.requested, ∀ decision outcome,
    observed.handler.view request.reqId = (none, ⟨none, 1, [decision], [outcome]⟩) →
      (allows decision = true ↔ SelectsAllow request.options outcome)

/-- Agreement is all there is to show. -/
theorem Sound.consistent (sound : Sound observed) :
    Consistent observed ↔ Agreed observed := by
  constructor
  · intro consistent request member decision outcome view
    have card : observed.handler.ledger.card request.reqId = ⟨none, 1, [decision], [outcome]⟩ :=
      congrArg Prod.snd view
    apply consistent.agrees request member decision _ outcome
    · rw [card]
      exact List.mem_singleton_self outcome
    · rw [card]
      exact List.mem_singleton_self decision
  · intro agreed
    refine ⟨?_, ?_, ?_⟩
    · intro request member
      have stage := sound.stage request member
      rw [OrderedMap.has]
      cases held : observed.handler.view request.reqId with
      | mk pending card =>
        obtain ⟨isPending, isCard⟩ := Prod.mk.inj held
        rw [isPending, isCard]
        rw [held] at stage
        cases stage <;> rfl
    · intro request member decision decided answer answered
      have stage := sound.stage request member
      cases held : observed.handler.view request.reqId with
      | mk pending card =>
        have isCard := congrArg Prod.snd held
        rw [held] at stage
        rw [show observed.handler.ledger.card request.reqId = card from isCard] at decided answered
        cases stage with
        | refused => contradiction
        | waiting waiting recorded offers => contradiction
        | done final outcome =>
          obtain rfl := List.mem_singleton.mp decided
          obtain rfl := List.mem_singleton.mp answered
          exact agreed request member decision answer held
    · intro reqId
      rw [show observed.handler.ledger.published = observed.handler.ledger.requests from
        sound.published, OrderedMap.has, OrderedMap.has]
      by_cases made : reqId ∈ observed.requested.map Requested.reqId
      · obtain ⟨request, member, rfl⟩ := List.mem_map.mp made
        have stage := sound.stage request member
        cases held : observed.handler.view request.reqId with
        | mk pending card =>
          obtain ⟨isPending, isCard⟩ := Prod.mk.inj held
          have request := congrArg Card.request isCard
          rw [isPending, show observed.handler.ledger.requests.get? _ = card.request from request]
          rw [held] at stage
          cases stage <;> rfl
      · obtain ⟨isPending, isCard⟩ := Prod.mk.inj (sound.blank reqId made)
        have request := congrArg Card.request isCard
        rw [isPending, show observed.handler.ledger.requests.get? reqId = none from request]
        rfl

/-! ## Options and outcomes -/

/-- An option under which the tool may run. -/
def PermissionOption.isAllow (option : PermissionOption) : Prop :=
  option.kind = .allowOnce ∨ option.kind = .allowAlways

/-- A found option is offered and has one of the kinds. -/
theorem findOption_some {kinds : List PermissionOptionKind}
    {option : PermissionOption} (found : findOption options kinds = some option) :
    option ∈ options ∧ option.kind ∈ kinds := by
  obtain ⟨kind, member, isFound⟩ := List.exists_of_findSome?_eq_some found
  have isKind : option.kind = kind := by simpa using List.find?_some isFound
  exact ⟨List.mem_of_find?_eq_some isFound, isKind ▸ member⟩

/-- No option is found only when none of the kinds is offered. -/
theorem findOption_none {kinds : List PermissionOptionKind}
    (missing : findOption options kinds = none) : ∀ option ∈ options, option.kind ∉ kinds := by
  intro option member isKind
  have unfound := List.findSome?_eq_none_iff.mp missing option.kind isKind
  have differs := List.find?_eq_none.mp unfound option member
  simp at differs

/-- Looking for allow options selects one exactly when one is offered. -/
theorem selectsAllow_iff {kinds : List PermissionOptionKind}
    (allowKinds : ∀ kind, kind ∈ kinds ↔ kind = .allowOnce ∨ kind = .allowAlways) :
    SelectsAllow options (outcomeOf (findOption options kinds)) ↔
      ∃ option ∈ options, option.isAllow := by
  constructor
  · rintro ⟨option, member, isAllow, _⟩
    exact ⟨option, member, isAllow⟩
  · rintro ⟨option, member, isAllow⟩
    cases found : findOption options kinds with
    | none => exact absurd ((allowKinds option.kind).mpr isAllow) (findOption_none found option member)
    | some chosen =>
      obtain ⟨offered, isKind⟩ := findOption_some found
      exact ⟨chosen, offered, (allowKinds chosen.kind).mp isKind, rfl⟩

/-- What a decision finds among the options: an allowing one an allow option, and a denying one
no reject option that shares its id with an allow option. -/
def Offers (options : List PermissionOption) (decision : PermDecision) : Prop :=
  if allows decision then ∃ option ∈ options, option.isAllow
  else ∀ rejected, findOption options [.rejectOnce, .rejectAlways] = some rejected →
    ∀ option ∈ options, option.isAllow → option.optionId ≠ rejected.optionId

/-- The decision and the outcome agree exactly when the options offer what the decision needs. -/
theorem mapDecision_agrees (options : List PermissionOption) (decision : PermDecision) :
    (allows decision = true ↔ SelectsAllow options (mapDecision options decision)) ↔
      Offers options decision := by
  have onceFirst (kind : PermissionOptionKind) :
      kind ∈ [PermissionOptionKind.allowOnce, .allowAlways] ↔
        kind = .allowOnce ∨ kind = .allowAlways := by simp
  have alwaysFirst (kind : PermissionOptionKind) :
      kind ∈ [PermissionOptionKind.allowAlways, .allowOnce] ↔
        kind = .allowOnce ∨ kind = .allowAlways := by simp [or_comm]
  cases decision with
  | allow scope updatedInput =>
    cases scope with
    | once => simp only [mapDecision, selectsAllow_iff onceFirst, allows, Offers, if_true, true_iff]
    | session => simp only [mapDecision, selectsAllow_iff alwaysFirst, allows, Offers, if_true, true_iff]
  | mode mode => simp only [mapDecision, selectsAllow_iff onceFirst, allows, Offers, if_true, true_iff]
  | deny message =>
    simp only [mapDecision, allows, Offers, Bool.false_eq_true, if_false, false_iff]
    constructor
    · intro rejects rejected found option member isAllow same
      apply rejects
      rw [found]
      exact ⟨option, member, isAllow, congrArg PermissionOutcome.selected same.symm⟩
    · rintro apart ⟨option, member, isAllow, selected⟩
      cases found : findOption options [.rejectOnce, .rejectAlways] with
      | none =>
        rw [found] at selected
        contradiction
      | some rejected =>
        rw [found] at selected
        exact apart rejected found option member isAllow (PermissionOutcome.selected.inj selected).symm

/-- Every decision about a pending request finds what it needs among the options. -/
def Resolvable (observed : Observed) (event : Event) : Prop :=
  ∀ reqId decision now pending, event = .resolve reqId decision now →
    observed.handler.pending.get? reqId = some pending → Offers pending.options decision

/-- A pending request was made and waits. -/
theorem Sound.waits (sound : Sound observed)
    {pending : PendingAcpRequest} (held : observed.handler.pending.get? reqId = some pending) :
    ∃ request ∈ observed.requested, request.reqId = reqId ∧ pending.options = request.options ∧
      ∃ recorded, observed.handler.view reqId = (some pending, ⟨some recorded, 1, [], []⟩) := by
  have made : reqId ∈ observed.requested.map Requested.reqId := by
    by_contra absent
    have blank := congrArg Prod.fst (sound.blank reqId absent)
    exact absurd (held.symm.trans blank) (by simp)
  obtain ⟨request, member, rfl⟩ := List.mem_map.mp made
  have stage := sound.stage request member
  cases view : observed.handler.view request.reqId with
  | mk isPending card =>
    have pendingIs := congrArg Prod.fst view
    rw [view] at stage
    obtain rfl : some pending = isPending := held.symm.trans pendingIs
    cases stage with
    | waiting _ recorded offers => exact ⟨request, member, rfl, offers, recorded, rfl⟩

/-- A decision after which the card and the answer agree found what it needs. -/
theorem offers_of_agreed (sound : Sound observed)
    (taken : observe observed event = some next) (agreed : Agreed next) :
    Resolvable observed event := by
  obtain ⟨_, rfl⟩ := observe_cases taken
  intro reqId decision now pending isResolve held
  obtain ⟨request, member, rfl, offers, recorded, view⟩ := sound.waits held
  have moves := step_moves observed.handler event request.reqId
  rw [view] at moves
  cases moves with
  | stay old idle same => exact absurd (idle decision now isResolve) (by simp)
  | refuse toolCall options other isRequest same => simp [isResolve] at isRequest
  | ask toolCall options other isRequest waiting asked offered same => simp [isResolve] at isRequest
  | giveUp waiting isHeld message unanswered same => exact absurd isResolve (unanswered decision now)
  | answer waiting isHeld answered other isAnswer same =>
    rw [isResolve] at isAnswer
    cases isAnswer
    cases isHeld
    apply (mapDecision_agrees pending.options decision).mp
    rw [offers]
    rw [offers] at same
    exact agreed request (List.mem_append_left _ member) decision _ same

/-- Where every decision finds what it needs, the card and the answer still agree. -/
theorem agreed_of_offers (sound : Sound observed)
    (taken : observe observed event = some next) (agreed : Agreed observed)
    (resolvable : Resolvable observed event) : Agreed next := by
  obtain ⟨fresh, rfl⟩ := observe_cases taken
  intro request member decision outcome view
  have moves := step_moves observed.handler event request.reqId
  rw [show (observed.handler.step event).view request.reqId = _ from view] at moves
  rcases List.mem_append.mp member with before | added
  · have notAgain (other : Requested) (made : event.requested? = some other)
        (same : other.reqId = request.reqId) : False :=
      fresh other made (same ▸ List.mem_map_of_mem before)
    have stage := sound.stage request before
    cases was : observed.handler.view request.reqId with
    | mk isPending card =>
      rw [was] at moves stage
      cases moves with
      | stay old idle same => exact agreed request before decision outcome (was.trans same.symm)
      | refuse toolCall options now isRequest same =>
        exact absurd rfl (notAgain ⟨request.reqId, options⟩ (by rw [isRequest]; rfl))
      | ask toolCall options now isRequest waiting recorded offers same =>
        exact absurd rfl (notAgain ⟨request.reqId, options⟩ (by rw [isRequest]; rfl))
      | giveUp waiting isHeld message unanswered same =>
        cases stage with
        | refused => contradiction
        | done _ _ => contradiction
        | waiting _ recorded offers =>
          cases same
          simp [allows, SelectsAllow]
      | answer waiting isHeld answered now isAnswer same =>
        cases stage with
        | refused => contradiction
        | done _ _ => contradiction
        | waiting _ recorded offers =>
          cases isHeld
          cases same
          have offered := resolvable request.reqId decision now waiting isAnswer (congrArg Prod.fst was)
          rw [offers] at offered ⊢
          exact (mapDecision_agrees request.options decision).mpr offered
  · have made := Option.mem_toList.mp added
    rw [sound.blank request.reqId (fresh request made)] at moves
    cases moves with
    | stay old idle same => exact absurd rfl (old request made)
    | refuse toolCall options now isRequest same => cases same
    | ask toolCall options now isRequest waiting recorded offers same => cases same
    | giveUp waiting isHeld message unanswered same => contradiction
    | answer waiting isHeld answered now isAnswer same => contradiction

/-- The card and the answer to the agent agree, and everything else said of the requests holds,
exactly when every decision about a pending request finds what it needs among the options. -/
theorem permissions_consistent_iff (attention : Bool) (events : List Event) :
    Always observe (fun _ _ next => Consistent next) (.start attention) events ↔
      Always observe (fun observed event _ => Resolvable observed event) (.start attention) events := by
  apply always_state_iff Sound Consistent Resolvable
  · intro observed event next sound taken
    exact sound.step taken
  · intro observed event next sound consistent taken
    rw [(sound.step taken).consistent]
    constructor
    · exact offers_of_agreed sound taken
    · exact agreed_of_offers sound taken (sound.consistent.mp consistent)
  · exact sound_start attention
  · apply (sound_start attention).consistent.mpr
    simp [Agreed, Observed.start]

/-- The agent offers no option to allow: the card says allowed and the agent hears cancelled. -/
theorem allow_without_option :
    ¬ ∀ events, Always observe (fun _ _ next => Consistent next) (.start false) events := by
  intro always
  have consistent := ((always [.request "r" .null [⟨"no", .rejectOnce⟩] false (Decimal.ofInt 0),
    .resolve "r" (.allow .once none) (Decimal.ofInt 0)] _ rfl).2 _ rfl).1
  have agrees := consistent.agrees ⟨"r", [⟨"no", .rejectOnce⟩]⟩ (List.mem_singleton_self _)
    (.allow .once none) (List.mem_singleton_self _) .cancelled (List.mem_singleton_self _)
  obtain ⟨option, _, _, selected⟩ := agrees.mp rfl
  contradiction

end Kvy.Cli.Acp
