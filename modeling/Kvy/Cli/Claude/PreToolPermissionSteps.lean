import Kvy.Cli.Claude.PreToolPermissionStages

/-!
# The steps of a permission request

Every event moves each hook call along its stages, and the last snapshot shows the requests after
each of them. Answers accepted by an event are counted with the view that follows it.
-/

namespace Kvy.Cli.Claude

open General Wire Permissions PreToolPermissionBridge

universe u

/-! ## The first match of a list -/

/-- Erasing the first match leaves what a test that refuses it selects. -/
theorem filter_eraseP_other {α : Type u} {list : List α} {matching : α → Bool} {found : α}
    (test : α → Bool) (isFirst : list.find? matching = some found) (refused : test found = false) :
    (list.eraseP matching).filter test = list.filter test := by
  obtain ⟨isMatch, before, after, rfl, unmatched⟩ := List.find?_eq_some_iff_append.mp isFirst
  have none : ∀ held ∈ before, ¬ matching held = true := by
    intro held member
    simpa using unmatched held member
  rw [List.eraseP_append_right _ none, List.eraseP_cons_of_pos isMatch]
  simp [refused]

/-- Erasing the first match leaves nothing of a test that selects it alone. -/
theorem filter_eraseP_only {α : Type u} {list : List α} {matching test : α → Bool} {found : α}
    (isFirst : list.find? matching = some found) (only : list.filter test = [found]) :
    (list.eraseP matching).filter test = [] := by
  obtain ⟨isMatch, before, after, rfl, unmatched⟩ := List.find?_eq_some_iff_append.mp isFirst
  have none : ∀ held ∈ before, ¬ matching held = true := by
    intro held member
    simpa using unmatched held member
  have selected : test found = true := by
    have member : found ∈ (before ++ found :: after).filter test := by simp [only]
    exact (List.mem_filter.mp member).2
  have lengths := congrArg List.length only
  rw [List.eraseP_append_right _ none, List.eraseP_cons_of_pos isMatch]
  simp only [List.filter_append, List.filter_cons, selected, ↓reduceIte, List.length_append,
    List.length_cons, List.length_nil] at lengths
  apply List.eq_nil_of_length_eq_zero
  rw [List.filter_append, List.length_append]
  omega

namespace PreToolPermissionBridge

/-- The request whose answer a result accepts. -/
def acceptedBy (reqId : String) : Option PermAnswerResult → List String
  | some .ok => [reqId]
  | _ => []

/-- The answer that an event has accepted. -/
def accepted (bridge : PreToolPermissionBridge) : Event → List String
  | .resolve reqId decision drove now => acceptedBy reqId (bridge.resolve reqId decision drove now).1
  | _ => []

/-! ## What a decision does -/

/-- The bridge after a pending question is taken up. -/
def takeUp (bridge : PreToolPermissionBridge) (reqId : String) (pending : PendingPreToolRequest)
    (decision : PermDecision) : PreToolPermissionBridge :=
  let released := (bridge.releaseQuestion reqId).clearTimer pending.timer
  if pending.isQuestion then released else released.modeChange decision

/-- The result of `resolve` and the bridge it leaves. -/
inductive Resolves (bridge : PreToolPermissionBridge) (reqId : String) (decision : PermDecision) :
    Option PermAnswerResult × PreToolPermissionBridge → Prop
  | refused (result : Option PermAnswerResult) (notOk : result ≠ some .ok)
      (idle : bridge.pending.get? reqId = none ∨
        ∃ entry ∈ bridge.localOutcomePending, entry.reqId = reqId) :
      Resolves bridge reqId decision (result, bridge)
  | driven (entry : LocalOutcome) (listed : entry ∈ bridge.localOutcomePending)
      (named : entry.reqId = reqId) (undriven : reqId ∉ bridge.drivenLocalReqIds) :
      Resolves bridge reqId decision
        (some .ok, { bridge with drivenLocalReqIds := bridge.drivenLocalReqIds ++ [reqId] })
  | stuck (pending : PendingPreToolRequest) (held : bridge.pending.get? reqId = some pending)
      (throws : mapDecision pending decision = none) :
      Resolves bridge reqId decision (none, bridge.takeUp reqId pending decision)
  | question (pending : PendingPreToolRequest) (held : bridge.pending.get? reqId = some pending)
      (answer : HookOutput) (mapped : mapDecision pending decision = some answer)
      (status : CompletedStatus) (now : Decimal) :
      Resolves bridge reqId decision
        (some .ok, (bridge.takeUp reqId pending decision).conclude reqId decision status now answer)
  | permission (pending : PendingPermissionRequest)
      (held : bridge.permRequestPending.get? reqId = some pending)
      (idle : bridge.pending.get? reqId = none) (status : CompletedStatus) (now : Decimal) :
      Resolves bridge reqId decision
        (some .ok, (((bridge.releasePermission reqId).clearTimer pending.timer).modeChange
          decision).conclude reqId decision status now (permissionOutput decision))

theorem resolves (bridge : PreToolPermissionBridge) (reqId : String) (decision : PermDecision)
    (drove : Option Bool) (now : Decimal) :
    Resolves bridge reqId decision (bridge.resolve reqId decision drove now) := by
  unfold resolve
  cases found : bridge.localOutcomePending.find? (fun entry => entry.reqId = reqId) with
  | some entry =>
    have listed := List.mem_of_find?_eq_some found
    have named : entry.reqId = reqId := by simpa using List.find?_some found
    by_cases again : reqId ∈ bridge.drivenLocalReqIds
    · simp only [if_pos again]
      exact .refused _ (by simp) (Or.inr ⟨entry, listed, named⟩)
    · simp only [if_neg again]
      cases bridge.drive entry drove with
      | none => exact .refused _ (by simp) (Or.inr ⟨entry, listed, named⟩)
      | some taken =>
        cases taken with
        | false => exact .refused _ (by simp) (Or.inr ⟨entry, listed, named⟩)
        | true => exact .driven entry listed named again
  | none =>
    cases question : bridge.pending.get? reqId with
    | some pending =>
      dsimp only
      cases mapped : mapDecision pending decision with
      | none => exact .stuck pending question mapped
      | some answer => exact .question pending question answer mapped _ now
    | none =>
      cases permission : bridge.permRequestPending.get? reqId with
      | some pending => exact .permission pending permission question _ now
      | none => exact .refused _ (by simp [PermissionLedger.alreadyAnswered]) (Or.inl question)

variable {bridge : PreToolPermissionBridge} {oks : List String} {reqId : String}

theorem view_takeUp (taken : String) (pending : PendingPreToolRequest) (decision : PermDecision) :
    (bridge.takeUp taken pending decision).view oks reqId =
      (bridge.releaseQuestion taken).view oks reqId := by
  unfold takeUp
  split
  · rfl
  · rw [view_modeChange]
    rfl

/-- Accepted answers are counted. -/
theorem view_accept (answered : List String) :
    bridge.view (oks ++ answered) reqId =
      { bridge.view oks reqId with oks := (bridge.view oks reqId).oks + answered.count reqId } := by
  simp only [view, List.count_append]

/-- A decision does not change the view of another request. -/
theorem Resolves.view_other {resolved : String} {decision : PermDecision}
    {outcome : Option PermAnswerResult × PreToolPermissionBridge}
    (resolves : Resolves bridge resolved decision outcome) (other : reqId ≠ resolved) :
    outcome.2.view oks reqId = bridge.view oks reqId := by
  cases resolves with
  | refused result notOk idle => rfl
  | driven entry listed named undriven => simp [view, other]
  | stuck pending held throws => rw [view_takeUp, view_releaseQuestion, if_neg other]
  | question pending held answer mapped status now =>
    rw [view_conclude, if_neg other, view_takeUp, view_releaseQuestion, if_neg other]
  | permission pending held idle status now =>
    rw [view_conclude, if_neg other, view_modeChange, view_clearTimer, view_releasePermission,
      if_neg other]

theorem count_accepted_other {resolved : String} (other : reqId ≠ resolved)
    (result : Option PermAnswerResult) : (acceptedBy resolved result).count reqId = 0 := by
  unfold acceptedBy
  split
  · exact List.count_eq_zero.mpr (by simpa using other)
  · rfl

theorem accepted_none {result : Option PermAnswerResult} (notOk : result ≠ some .ok) :
    acceptedBy reqId result = [] := by
  unfold acceptedBy
  split
  · contradiction
  · rfl

end PreToolPermissionBridge

/-! ## What a view tells of its stage -/

variable {stage : Stage} {view : BridgeView}

theorem Shows.of_entry (shows : Shows stage view)
    {entry : LocalOutcome} (listed : entry ∈ view.entries) :
    ∃ request answer, stage = .atTerminal view.driven ∧
      view = ⟨none, none, [entry], view.driven, ⟨some request, 1, [], [answer]⟩,
        if view.driven then 1 else 0⟩ := by
  cases shows with
  | atTerminal driven held request answer =>
    obtain rfl := List.mem_singleton.mp listed
    exact ⟨request, answer, rfl, rfl⟩
  | blank => contradiction
  | passed answer => contradiction
  | question pending request asks => contradiction
  | permission pending request => contradiction
  | done decision answer oks once => contradiction
  | stuck request => contradiction

theorem Shows.of_question (shows : Shows stage view)
    {pending : PendingPreToolRequest} (held : view.question = some pending) :
    ∃ request, stage = .question ∧ pending.isQuestion = true ∧
      view = ⟨some pending, none, [], false, ⟨some request, 1, [], []⟩, 0⟩ := by
  cases shows with
  | question waiting request asks =>
    cases held
    exact ⟨request, rfl, asks, rfl⟩
  | blank => contradiction
  | passed answer => contradiction
  | atTerminal driven entry request answer => contradiction
  | permission waiting request => contradiction
  | done decision answer oks once => contradiction
  | stuck request => contradiction

theorem Shows.of_permission (shows : Shows stage view)
    {pending : PendingPermissionRequest} (held : view.permission = some pending) :
    ∃ request, stage = .permission ∧
      view = ⟨none, some pending, [], false, ⟨some request, 1, [], []⟩, 0⟩ := by
  cases shows with
  | permission waiting request =>
    cases held
    exact ⟨request, rfl, rfl⟩
  | blank => contradiction
  | passed answer => contradiction
  | atTerminal driven entry request answer => contradiction
  | question waiting request asks => contradiction
  | done decision answer oks once => contradiction
  | stuck request => contradiction

/-- A view at the question stage holds the question. -/
theorem Shows.question_held (shows : Shows .question view) :
    ∃ pending, view.question = some pending ∧ view.entries = [] := by
  cases shows with
  | question pending request asks => exact ⟨pending, rfl, rfl⟩

/-- The view of a hook call after what waits is concluded. -/
def BridgeView.cancel (view : BridgeView) (first second : PermDecision) (answer : HookOutput) :
    BridgeView :=
  let questions :=
    if view.question.isSome then (view.card.decide first).settle answer else view.card
  let permissions :=
    if view.permission.isSome then (questions.decide second).settle (permissionOutput second)
    else questions
  let locals := if view.entries ≠ [] then permissions.decide first else permissions
  ⟨none, none, [], false, locals, view.oks⟩

variable {event : Event}

namespace PreToolPermissionBridge

variable {bridge : PreToolPermissionBridge} {oks : List String} {reqId : String}

/-- An event that answers nothing fails nothing. -/
theorem not_fails (other : ∀ decision drove now, event ≠ .resolve reqId decision drove now) :
    ¬ Fails bridge event reqId := by
  rintro ⟨decision, drove, now, pending, same, _⟩
  exact other decision drove now same

/-- An event that completes nothing leaves local requests open. -/
theorem not_concludes (decision : PermDecision)
    (noOutcome : ∀ toolName approved now, event ≠ .resolveLocalOutcome toolName approved now)
    (noReset : ∀ reason clock, event ≠ .reset reason clock) : ¬ Concludes bridge event reqId decision := by
  rintro (⟨toolName, approved, now, happens, _⟩ | ⟨reason, clock, happens, _⟩)
  · exact noOutcome toolName approved now happens
  · exact noReset reason clock happens

/-- An event that answers and completes nothing disturbs nothing. -/
theorem undisturbed (stage : Stage)
    (noAnswer : ∀ decision drove now, event ≠ .resolve reqId decision drove now)
    (noOutcome : ∀ toolName approved now, event ≠ .resolveLocalOutcome toolName approved now)
    (noReset : ∀ reason clock, event ≠ .reset reason clock) :
    Undisturbed bridge event reqId stage := by
  cases stage with
  | question => exact not_fails noAnswer
  | atTerminal driven => exact fun decision => not_concludes decision noOutcome noReset
  | blank | passed | permission | done | stuck => trivial

/-- Every decision moves a hook call along its stages. -/
theorem shows_resolve (shows : Shows stage (bridge.view oks reqId)) (resolved : String)
    (decision : PermDecision) (drove : Option Bool) (now : Decimal) :
    ∃ after,
      Shows after ((bridge.resolve resolved decision drove now).2.view
        (oks ++ bridge.accepted (.resolve resolved decision drove now)) reqId) ∧
      StageStep bridge (.resolve resolved decision drove now) reqId stage after := by
  have silent : ∀ call ∈ (Event.resolve resolved decision drove now).call?, call.reqId ≠ reqId := by
    simp [Event.call?]
  have result := resolves bridge resolved decision drove now
  simp only [accepted, view_accept]
  by_cases same : reqId = resolved
  · subst same
    generalize outcome : bridge.resolve reqId decision drove now = resolution at result
    cases result with
    | refused answer notOk idle =>
      refine ⟨stage, ?_, .stay stage silent ?_⟩
      · rw [accepted_none notOk]
        exact shows
      · cases stage with
        | question =>
          rintro ⟨_, _, _, pending, _, held, _⟩
          obtain ⟨waiting, _, unlisted⟩ := shows.question_held
          rcases idle with absent | ⟨entry, listed, named⟩
          · exact absurd (held.symm.trans absent) (by simp)
          · have member : entry ∈ (bridge.view oks reqId).entries :=
              List.mem_filter.mpr ⟨listed, decide_eq_true named⟩
            rw [unlisted] at member
            contradiction
        | atTerminal driven => exact fun decision => not_concludes decision (by simp) (by simp)
        | blank | passed | permission | done | stuck => trivial
    | driven entry listed named undriven =>
      have member : entry ∈ (bridge.view oks reqId).entries :=
        List.mem_filter.mpr ⟨listed, decide_eq_true named⟩
      obtain ⟨request, answer, isStage, isView⟩ := shows.of_entry member
      have notDriven : (bridge.view oks reqId).driven = false := decide_eq_false undriven
      rw [notDriven] at isStage isView
      subst isStage
      refine ⟨.atTerminal true, ?_,
        .drive silent (fun decision => not_concludes decision (by simp) (by simp))⟩
      have after : { bridge with drivenLocalReqIds := bridge.drivenLocalReqIds ++ [reqId] }.view oks
          reqId = { bridge.view oks reqId with driven := true } := by
        simp [view]
      simp only [after, isView, acceptedBy, List.count_singleton_self]
      exact .atTerminal true entry request answer
    | stuck pending held throws =>
      obtain ⟨request, rfl, _, isView⟩ := shows.of_question held
      refine ⟨.stuck, ?_, .fail silent ⟨decision, drove, now, pending, rfl, held, throws⟩⟩
      simp only [view_takeUp, view_releaseQuestion, if_pos, isView]
      exact .stuck request
    | question pending held answer mapped status time =>
      obtain ⟨request, rfl, _, isView⟩ := shows.of_question held
      refine ⟨.done decision, ?_, .finish .question decision silent ?_⟩
      · simp only [view_conclude, view_takeUp, view_releaseQuestion, if_pos, isView, acceptedBy,
          List.count_singleton_self]
        exact .done decision answer 1 le_rfl
      · rintro ⟨_, _, _, waiting, isResolve, isHeld, throws⟩
        cases isResolve
        cases held.symm.trans isHeld
        exact absurd (mapped.symm.trans throws) (by simp)
    | permission pending held idle status time =>
      obtain ⟨request, rfl, isView⟩ := shows.of_permission held
      refine ⟨.done decision, ?_, .finish .permission decision silent trivial⟩
      simp only [view_conclude, view_modeChange, view_clearTimer, view_releasePermission, if_pos,
        isView, acceptedBy, List.count_singleton_self]
      exact .done decision _ 1 le_rfl
  · refine ⟨stage, ?_, .stay stage silent ?_⟩
    · rw [result.view_other same, count_accepted_other same]
      exact shows
    · apply undisturbed stage _ (by simp) (by simp)
      intro answered way time isSame
      cases isSame
      exact same rfl

/-- The bridge after a local request leaves it. -/
def splice (bridge : PreToolPermissionBridge) (toolName : String) (entry : LocalOutcome) :
    PreToolPermissionBridge :=
  { bridge with
    localOutcomePending := bridge.localOutcomePending.eraseP (fun held => held.toolName = toolName)
    drivenLocalReqIds := bridge.drivenLocalReqIds.filter (fun held => held ≠ entry.reqId) }

theorem view_splice_other {toolName : String} {entry : LocalOutcome}
    (found : bridge.localOutcomePending.find? (fun held => held.toolName = toolName) = some entry)
    (other : reqId ≠ entry.reqId) :
    (bridge.splice toolName entry).view oks reqId = bridge.view oks reqId := by
  have kept := filter_eraseP_other (fun held => decide (held.reqId = reqId)) found
    (decide_eq_false (Ne.symm other))
  simp only [splice, view, kept, List.mem_filter, other, ne_eq, not_false_eq_true, decide_true,
    and_true]

theorem view_splice_only {toolName : String} {entry : LocalOutcome}
    (found : bridge.localOutcomePending.find? (fun held => held.toolName = toolName) = some entry)
    (only : (bridge.view oks entry.reqId).entries = [entry]) :
    (bridge.splice toolName entry).view oks entry.reqId =
      { bridge.view oks entry.reqId with entries := [], driven := false } := by
  have erased := filter_eraseP_only found only
  simp only [splice, view, erased, List.mem_filter, ne_eq, not_true_eq_false, decide_false,
    Bool.false_eq_true, and_false]

/-- An outcome disturbs only the oldest request of its tool. -/
theorem undisturbed_outcome {toolName : String} {approved : Bool} {now : Decimal} (stage : Stage)
    (other : ∀ entry, bridge.localOutcomePending.find? (fun held => held.toolName = toolName) =
      some entry → entry.reqId ≠ reqId) :
    Undisturbed bridge (.resolveLocalOutcome toolName approved now) reqId stage := by
  cases stage with
  | question => exact not_fails (by simp)
  | atTerminal driven =>
    rintro _ (⟨_, _, _, happens, entry, oldest, named⟩ | ⟨_, _, happens, _⟩)
    · cases happens
      exact other entry oldest named
    · contradiction
  | blank | passed | permission | done | stuck => trivial

/-- An outcome at the terminal completes the oldest request of its tool. -/
theorem shows_resolveLocalOutcome (shows : Shows stage (bridge.view oks reqId))
    (toolName : String) (approved : Bool) (now : Decimal) :
    ∃ after,
      Shows after ((bridge.resolveLocalOutcome toolName approved now).view oks reqId) ∧
      StageStep bridge (.resolveLocalOutcome toolName approved now) reqId stage after := by
  have silent : ∀ call ∈ (Event.resolveLocalOutcome toolName approved now).call?,
      call.reqId ≠ reqId := by simp [Event.call?]
  unfold resolveLocalOutcome
  cases found : bridge.localOutcomePending.find? (fun entry => entry.toolName = toolName) with
  | none =>
    refine ⟨stage, shows, .stay stage silent (undisturbed_outcome stage ?_)⟩
    intro entry oldest
    exact absurd (found.symm.trans oldest) (by simp)
  | some entry =>
    change ∃ after, Shows after (((bridge.splice toolName entry).finishRequest entry.reqId
      (localDecision approved) _ now).view oks reqId) ∧ _
    rw [view_finishRequest]
    by_cases same : reqId = entry.reqId
    · subst same
      have member : entry ∈ (bridge.view oks entry.reqId).entries :=
        List.mem_filter.mpr ⟨List.mem_of_find?_eq_some found, decide_eq_true rfl⟩
      obtain ⟨request, answer, isStage, isView⟩ := shows.of_entry member
      subst isStage
      refine ⟨.done (localDecision approved), ?_, .finish _ _ silent
        (.outcome toolName approved now rfl entry found rfl)⟩
      rw [if_pos rfl, view_splice_only found (congrArg BridgeView.entries isView), isView]
      cases (bridge.view oks entry.reqId).driven with
      | true => exact .done _ answer 1 le_rfl
      | false => exact .done _ answer 0 (Nat.zero_le 1)
    · refine ⟨stage, ?_, .stay stage silent (undisturbed_outcome stage ?_)⟩
      · rw [if_neg same, view_splice_other found same]
        exact shows
      · intro held oldest
        obtain rfl := Option.some.inj (found.symm.trans oldest)
        exact Ne.symm same

/-! ## Reset -/

/-- Closing entries one by one closes each of them once. -/
theorem view_closeAll {ε : Type} (bridge : PreToolPermissionBridge) (oks : List String)
    (reqId : String) (key : ε → String) (change : BridgeView → BridgeView)
    (close : PreToolPermissionBridge → ε → PreToolPermissionBridge)
    (closes : ∀ closing entry, (close closing entry).view oks reqId =
      if reqId = key entry then change (closing.view oks reqId) else closing.view oks reqId)
    (entries : List ε) (once : (entries.map key).count reqId ≤ 1) :
    (entries.foldl close bridge).view oks reqId =
      if reqId ∈ entries.map key then change (bridge.view oks reqId) else bridge.view oks reqId := by
  induction entries generalizing bridge with
  | nil => rfl
  | cons entry rest inductionHypothesis =>
    rw [List.map_cons] at once
    by_cases first : reqId = key entry
    · rw [← first, List.count_cons_self] at once
      have absent : reqId ∉ rest.map key := List.count_eq_zero.mp (by omega)
      rw [List.foldl_cons, inductionHypothesis _ (by omega), if_neg absent, closes, if_pos first,
        List.map_cons, if_pos (first ▸ List.mem_cons_self)]
    · rw [List.count_cons_of_ne (Ne.symm first)] at once
      rw [List.foldl_cons, inductionHypothesis _ once, closes, if_neg first, List.map_cons]
      simp only [List.mem_cons, first, false_or]

/-- A map names each of its keys once. -/
theorem count_keys
    {β : Type} (map : OrderedMap String β) : (map.entries.map Prod.fst).count reqId ≤ 1 :=
  List.nodup_iff_count_le_one.mp map.distinct reqId

theorem mem_keys_iff {β : Type} (map : OrderedMap String β) :
    reqId ∈ map.entries.map Prod.fst ↔ (map.get? reqId).isSome = true := by
  rw [Option.isSome_iff_exists]
  exact map.mem_keys reqId

/-- The questions of a reset. -/
def cancelQuestions (bridge : PreToolPermissionBridge) (decision : PermDecision)
    (answer : HookOutput) (clock : String → Decimal) : PreToolPermissionBridge :=
  { bridge.pending.entries.foldl (fun closing entry =>
      (closing.clearTimer entry.2.timer).conclude entry.1 decision .canceled (clock entry.1) answer)
      bridge with pending := .empty }

/-- The permissions of a reset. -/
def cancelPermissions (bridge : PreToolPermissionBridge)
    (entries : List (String × PendingPermissionRequest)) (decision : PermDecision)
    (clock : String → Decimal) : PreToolPermissionBridge :=
  { entries.foldl (fun closing entry =>
      (closing.clearTimer entry.2.timer).conclude entry.1 decision .canceled (clock entry.1)
        (permissionOutput decision)) bridge with permRequestPending := .empty }

/-- The local requests of a reset. -/
def cancelLocals (bridge : PreToolPermissionBridge) (entries : List LocalOutcome)
    (decision : PermDecision) (clock : String → Decimal) : PreToolPermissionBridge :=
  { entries.foldl (fun closing entry =>
      closing.finishRequest entry.reqId decision .canceled (clock entry.reqId)) bridge with
    localOutcomePending := [], drivenLocalReqIds := [] }

theorem view_cancelQuestions (decision : PermDecision) (answer : HookOutput)
    (clock : String → Decimal) :
    (bridge.cancelQuestions decision answer clock).view oks reqId =
      { bridge.view oks reqId with
        question := none
        card := if (bridge.pending.get? reqId).isSome then
            ((bridge.view oks reqId).card.decide decision).settle answer
          else (bridge.view oks reqId).card } := by
  have closed := view_closeAll bridge oks reqId Prod.fst
    (fun view => { view with card := (view.card.decide decision).settle answer })
    (fun closing entry =>
      (closing.clearTimer entry.2.timer).conclude entry.1 decision .canceled (clock entry.1) answer)
    (fun closing entry => by rw [view_conclude, view_clearTimer])
    bridge.pending.entries (count_keys bridge.pending)
  simp only [mem_keys_iff] at closed
  change { PreToolPermissionBridge.view (List.foldl _ bridge _) oks reqId with question := none } = _
  rw [closed]
  split <;> rfl

theorem view_cancelPermissions (map : OrderedMap String PendingPermissionRequest)
    (decision : PermDecision) (clock : String → Decimal) :
    (bridge.cancelPermissions map.entries decision clock).view oks reqId =
      { bridge.view oks reqId with
        permission := none
        card := if (map.get? reqId).isSome then
            ((bridge.view oks reqId).card.decide decision).settle (permissionOutput decision)
          else (bridge.view oks reqId).card } := by
  have closed := view_closeAll bridge oks reqId Prod.fst
    (fun view => { view with card := (view.card.decide decision).settle (permissionOutput decision) })
    (fun closing entry =>
      (closing.clearTimer entry.2.timer).conclude entry.1 decision .canceled (clock entry.1)
        (permissionOutput decision))
    (fun closing entry => by rw [view_conclude, view_clearTimer]) map.entries (count_keys map)
  simp only [mem_keys_iff] at closed
  change { PreToolPermissionBridge.view (List.foldl _ bridge _) oks reqId with permission := none } = _
  rw [closed]
  split <;> rfl

theorem view_cancelLocals (entries : List LocalOutcome)
    (once : (entries.map LocalOutcome.reqId).count reqId ≤ 1) (decision : PermDecision)
    (clock : String → Decimal) :
    (bridge.cancelLocals entries decision clock).view oks reqId =
      { bridge.view oks reqId with
        entries := []
        driven := false
        card := if reqId ∈ entries.map LocalOutcome.reqId then
            (bridge.view oks reqId).card.decide decision
          else (bridge.view oks reqId).card } := by
  have closed := view_closeAll bridge oks reqId LocalOutcome.reqId
    (fun view => { view with card := view.card.decide decision })
    (fun closing entry =>
      closing.finishRequest entry.reqId decision .canceled (clock entry.reqId))
    (fun closing entry => view_finishRequest closing oks reqId _ _ _ _) entries once
  change { PreToolPermissionBridge.view (List.foldl _ bridge _) oks reqId with
    entries := [], driven := false } = _
  rw [closed]
  split <;> rfl

/-- The local requests of a name are listed with the names. -/
theorem entries_of_name (bridge : PreToolPermissionBridge) (oks : List String) (reqId : String) :
    (bridge.localOutcomePending.map LocalOutcome.reqId).count reqId =
      (bridge.view oks reqId).entries.length := by
  rw [List.count, List.countP_map, List.countP_eq_length_filter]
  rfl

/-- A reset closes the questions, the permissions and the local requests. -/
theorem reset_phases (bridge : PreToolPermissionBridge) (reason : Option String)
    (clock : String → Decimal) :
    ∃ first second answer, bridge.reset reason clock =
      ((bridge.cancelQuestions (.deny first) answer clock).cancelPermissions
        bridge.permRequestPending.entries (.deny second) clock).cancelLocals
        bridge.localOutcomePending (.deny first) clock := by
  let message := reason.getD "Session ended before the permission request was answered."
  exact ⟨some (appendDenyGuard message), some message, .preToolUse .deny (appendDenyGuard message),
    rfl⟩

/-- The view after a reset. -/
theorem view_reset (reason : Option String) (clock : String → Decimal)
    (once : (bridge.view oks reqId).entries.length ≤ 1) :
    ∃ first second answer, (bridge.reset reason clock).view oks reqId =
      (bridge.view oks reqId).cancel (.deny first) (.deny second) answer := by
  have locals := once
  rw [← entries_of_name] at locals
  have listed : reqId ∈ bridge.localOutcomePending.map LocalOutcome.reqId ↔
      (bridge.view oks reqId).entries ≠ [] := by
    rw [← List.count_pos_iff, entries_of_name bridge oks reqId, List.length_pos_iff]
  obtain ⟨first, second, answer, isReset⟩ := reset_phases bridge reason clock
  refine ⟨first, second, answer, ?_⟩
  rw [isReset]
  rw [view_cancelLocals _ locals, view_cancelPermissions, view_cancelQuestions]
  simp only [listed, BridgeView.cancel]
  rfl

end PreToolPermissionBridge

/-- A reset concludes what waits. -/
theorem Shows.cancel (shows : Shows stage view)
    {bridge : PreToolPermissionBridge} {reqId : String} (reason : Option String)
    (clock : String → Decimal) (first second : Option String) (answer : HookOutput) :
    ∃ after, Shows after (view.cancel (.deny first) (.deny second) answer) ∧
      StageStep bridge (.reset reason clock) reqId stage after := by
  have silent : ∀ call ∈ (Event.reset reason clock).call?, call.reqId ≠ reqId := by simp [Event.call?]
  have fine : ¬ Fails bridge (.reset reason clock) reqId := not_fails (by simp)
  cases shows with
  | blank => exact ⟨.blank, .blank, .stay _ silent trivial⟩
  | passed output => exact ⟨.passed, .passed output, .stay _ silent trivial⟩
  | question pending request asks =>
    exact ⟨.done (.deny first), .done _ answer 0 (Nat.zero_le 1), .finish _ _ silent fine⟩
  | permission pending request =>
    exact ⟨.done (.deny second), .done _ _ 0 (Nat.zero_le 1), .finish _ _ silent trivial⟩
  | atTerminal driven entry request output =>
    refine ⟨.done (.deny first), ?_, .finish _ _ silent (.reset reason clock rfl first)⟩
    cases driven with
    | true => exact .done _ output 1 le_rfl
    | false => exact .done _ output 0 (Nat.zero_le 1)
  | done decision output oks once =>
    exact ⟨.done decision, .done decision output oks once, .stay _ silent trivial⟩
  | stuck request => exact ⟨.stuck, .stuck request, .stay _ silent trivial⟩

theorem Shows.entries_le (shows : Shows stage view) :
    view.entries.length ≤ 1 := by
  cases shows <;> simp

namespace PreToolPermissionBridge

variable {bridge next : PreToolPermissionBridge} {oks : List String} {reqId : String} {stage : Stage}

/-- A reset cancels what waits and leaves the rest as it is. -/
theorem shows_reset (shows : Shows stage (bridge.view oks reqId)) (reason : Option String)
    (clock : String → Decimal) :
    ∃ after, Shows after ((bridge.reset reason clock).view oks reqId) ∧
      StageStep bridge (.reset reason clock) reqId stage after := by
  obtain ⟨first, second, answer, isView⟩ := view_reset reason clock shows.entries_le
  rw [isView]
  exact shows.cancel reason clock first second answer

/-! ## Timers -/

/-- A timer concludes a request that still waits. -/
theorem shows_fire (shows : Shows stage (bridge.view oks reqId)) (timer : Timer BridgeTimer)
    (now : Decimal) :
    ∃ after, Shows after (((bridge.clearTimer timer.handle).runTimer timer now).view oks reqId) ∧
      StageStep bridge (.fire timer now) reqId stage after := by
  have silent : ∀ call ∈ (Event.fire timer now).call?, call.reqId ≠ reqId := by simp [Event.call?]
  have stays : StageStep bridge (.fire timer now) reqId stage stage :=
    .stay stage silent (undisturbed stage (by simp) (by simp) (by simp))
  unfold runTimer
  cases timer.callback with
  | question fired =>
    dsimp only
    cases held : (bridge.clearTimer timer.handle).pending.get? fired with
    | none => exact ⟨stage, shows, stays⟩
    | some pending =>
      by_cases same : reqId = fired
      · subst same
        obtain ⟨request, rfl, _, isView⟩ := shows.of_question held
        refine ⟨.done _, ?_, .finish .question (.deny (some askFallbackReason)) silent (not_fails (by simp))⟩
        simp only [view_conclude, view_releaseQuestion, if_pos, view_clearTimer, isView]
        exact .done _ _ 0 (Nat.zero_le 1)
      · refine ⟨stage, ?_, stays⟩
        simp only [view_conclude, view_releaseQuestion, if_neg same, view_clearTimer]
        exact shows
  | permission fired =>
    dsimp only
    cases held : (bridge.clearTimer timer.handle).permRequestPending.get? fired with
    | none => exact ⟨stage, shows, stays⟩
    | some pending =>
      by_cases same : reqId = fired
      · subst same
        obtain ⟨request, rfl, isView⟩ := shows.of_permission held
        refine ⟨.done _, ?_, .finish .permission bridge.timeoutDecision silent trivial⟩
        simp only [view_conclude, view_releasePermission, if_pos, view_clearTimer, isView]
        exact .done _ _ 0 (Nat.zero_le 1)
      · refine ⟨stage, ?_, stays⟩
        simp only [view_conclude, view_releasePermission, if_neg same, view_clearTimer]
        exact shows
  | modeEcho =>
    refine ⟨stage, ?_, stays⟩
    rw [view_tellWatcher, view_clearTimer]
    exact shows

/-- Every step moves a hook call along its stages. A call gets a name that was not used. -/
theorem step_shows (taken : bridge.step event = some next)
    (shows : Shows stage (bridge.view oks reqId))
    (fresh : ∀ call ∈ event.call?, call.reqId = reqId → stage = .blank) :
    ∃ after, Shows after (next.view (oks ++ bridge.accepted event) reqId) ∧
      StageStep bridge event reqId stage after := by
  cases event with
  | preToolUse made input isWebTurnActive now =>
    cases taken
    simp only [accepted, List.append_nil]
    by_cases same : reqId = made
    · subst same
      obtain rfl := fresh _ rfl rfl
      exact ⟨_, shows_preToolUse shows input isWebTurnActive now, .start _ rfl⟩
    · rw [view_preToolUse_other made same]
      exact ⟨stage, shows, .stay stage (by simp [Event.call?, Ne.symm same]) (undisturbed stage (by simp) (by simp) (by simp))⟩
  | permissionRequest made input isWebTurnActive now =>
    cases taken
    simp only [accepted, List.append_nil]
    by_cases same : reqId = made
    · subst same
      obtain rfl := fresh _ rfl rfl
      exact ⟨_, shows_permissionRequest shows input isWebTurnActive now, .start _ rfl⟩
    · rw [view_permissionRequest_other made same]
      exact ⟨stage, shows, .stay stage (by simp [Event.call?, Ne.symm same]) (undisturbed stage (by simp) (by simp) (by simp))⟩
  | resolve resolved decision drove now =>
    cases taken
    exact shows_resolve shows resolved decision drove now
  | resolveLocalOutcome toolName approved now =>
    cases taken
    simp only [accepted, List.append_nil]
    exact shows_resolveLocalOutcome shows toolName approved now
  | reset reason clock =>
    cases taken
    simp only [accepted, List.append_nil]
    exact shows_reset shows reason clock
  | notePermissionMode mode =>
    cases taken
    simp only [accepted, List.append_nil, notePermissionMode, view_cachePermissionMode]
    exact ⟨stage, shows, .stay stage (by simp [Event.call?]) (undisturbed stage (by simp) (by simp) (by simp))⟩
  | waitForModeEcho =>
    cases taken
    simp only [accepted, List.append_nil]
    exact ⟨stage, shows, .stay stage (by simp [Event.call?]) (undisturbed stage (by simp) (by simp) (by simp))⟩
  | fire timer now =>
    simp only [step] at taken
    split at taken
    · cases taken
      simp only [accepted, List.append_nil]
      exact shows_fire shows timer now
    · contradiction

/-! ## Published requests -/

theorem published_tellWatchers (mode : Option PermissionMode) (watchers : List Nat)
    (holds : bridge.ledger.Published) :
    (watchers.foldl (tellWatcher · mode ·) bridge).ledger.Published := by
  induction watchers generalizing bridge with
  | nil => exact holds
  | cons watcher rest inductionHypothesis =>
    exact inductionHypothesis (PermissionLedger.published_call _ holds (by simp))

theorem published_cachePermissionMode (raw : Option String) (holds : bridge.ledger.Published) :
    (bridge.cachePermissionMode raw).ledger.Published := by
  unfold cachePermissionMode
  cases raw.bind permissionMode? with
  | none => exact holds
  | some mode =>
    dsimp only
    apply published_tellWatchers
    split
    · exact PermissionLedger.published_call _ holds (by simp)
    · exact holds

theorem published_modeChange (decision : PermDecision) (holds : bridge.ledger.Published) :
    (bridge.modeChange decision).ledger.Published := by
  cases decision with
  | mode mode => exact PermissionLedger.published_call _ holds (by simp)
  | allow scope updatedInput => exact holds
  | deny message => exact holds

theorem published_conclude (finished : String) (decision : PermDecision) (status : CompletedStatus)
    (now : Decimal) (answer : HookOutput) (holds : bridge.ledger.Published) :
    (bridge.conclude finished decision status now answer).ledger.Published :=
  PermissionLedger.published_settle _ _ _ (PermissionLedger.published_finishRequest _ _ _ _ _ holds)

theorem published_takeUp
    (taken : String) (pending : PendingPreToolRequest) (decision : PermDecision)
    (holds : bridge.ledger.Published) : (bridge.takeUp taken pending decision).ledger.Published := by
  unfold takeUp
  split
  · exact holds
  · exact published_modeChange decision holds

theorem Resolves.published {resolved : String} {decision : PermDecision}
    {outcome : Option PermAnswerResult × PreToolPermissionBridge}
    (resolves : Resolves bridge resolved decision outcome) (holds : bridge.ledger.Published) :
    outcome.2.ledger.Published := by
  cases resolves with
  | refused result notOk idle => exact holds
  | driven entry listed named undriven => exact holds
  | stuck pending held throws => exact published_takeUp _ _ _ holds
  | question pending held answer mapped status now =>
    exact published_conclude _ _ _ _ _ (published_takeUp _ _ _ holds)
  | permission pending held idle status now =>
    exact published_conclude _ _ _ _ _ (published_modeChange decision holds)

/-- Closing entries one by one keeps the last snapshot right. -/
theorem published_closeAll
    {ε : Type} (close : PreToolPermissionBridge → ε → PreToolPermissionBridge)
    (closes : ∀ closing entry, closing.ledger.Published → (close closing entry).ledger.Published)
    (entries : List ε) (holds : bridge.ledger.Published) :
    (entries.foldl close bridge).ledger.Published := by
  induction entries generalizing bridge with
  | nil => exact holds
  | cons entry rest inductionHypothesis => exact inductionHypothesis (closes bridge entry holds)

theorem published_cancelQuestions (decision : PermDecision) (answer : HookOutput)
    (clock : String → Decimal) (holds : bridge.ledger.Published) :
    (bridge.cancelQuestions decision answer clock).ledger.Published :=
  published_closeAll (fun closing (entry : String × PendingPreToolRequest) =>
      (closing.clearTimer entry.2.timer).conclude entry.1 decision .canceled (clock entry.1) answer)
    (fun _ _ published => published_conclude _ _ _ _ _ published) _ holds

theorem published_cancelPermissions (entries : List (String × PendingPermissionRequest))
    (decision : PermDecision) (clock : String → Decimal) (holds : bridge.ledger.Published) :
    (bridge.cancelPermissions entries decision clock).ledger.Published :=
  published_closeAll (fun closing (entry : String × PendingPermissionRequest) =>
      (closing.clearTimer entry.2.timer).conclude entry.1 decision .canceled (clock entry.1)
        (permissionOutput decision))
    (fun _ _ published => published_conclude _ _ _ _ _ published) _ holds

theorem published_cancelLocals (entries : List LocalOutcome) (decision : PermDecision)
    (clock : String → Decimal) (holds : bridge.ledger.Published) :
    (bridge.cancelLocals entries decision clock).ledger.Published :=
  published_closeAll (fun closing (entry : LocalOutcome) =>
      closing.finishRequest entry.reqId decision .canceled (clock entry.reqId))
    (fun _ _ published => PermissionLedger.published_finishRequest _ _ _ _ _ published) _ holds

theorem published_runTimer (timer : Timer BridgeTimer) (now : Decimal)
    (holds : bridge.ledger.Published) : (bridge.runTimer timer now).ledger.Published := by
  unfold runTimer
  cases timer.callback with
  | question fired =>
    dsimp only
    split
    · exact holds
    · exact published_conclude _ _ _ _ _ holds
  | permission fired =>
    dsimp only
    split
    · exact holds
    · exact published_conclude _ _ _ _ _ holds
  | modeEcho => exact PermissionLedger.published_call _ holds (by simp)

theorem published_preToolUse (made : String) (input : HookInput) (isWebTurnActive : Bool)
    (now : Decimal) (holds : bridge.ledger.Published) :
    (bridge.handlePreToolUse made input isWebTurnActive now).ledger.Published := by
  have cached := published_cachePermissionMode input.permissionMode holds
  unfold handlePreToolUse
  by_cases question : isAskUserQuestion input.toolName = true
  · simp only [if_pos question]
    cases isWebTurnActive with
    | true => exact PermissionLedger.published_openRequest _ _ _ _ _
    | false =>
      apply PermissionLedger.published_settle
      apply PermissionLedger.published_call _ _ (by simp)
      exact PermissionLedger.published_openRequest _ _ _ _ _
  · simp only [if_neg question]
    apply PermissionLedger.published_settle
    split
    · exact cached
    · exact PermissionLedger.published_call _ cached (by simp)

theorem published_permissionRequest (made : String) (input : HookInput) (isWebTurnActive : Bool)
    (now : Decimal) (holds : bridge.ledger.Published) :
    (bridge.handlePermissionRequest made input isWebTurnActive now).ledger.Published := by
  have cached := published_cachePermissionMode input.permissionMode holds
  unfold handlePermissionRequest
  by_cases question : isAskUserQuestion input.toolName = true
  · simp only [if_pos question]
    exact PermissionLedger.published_settle _ _ _ cached
  · simp only [if_neg question]
    cases isWebTurnActive with
    | true => exact PermissionLedger.published_openRequest _ _ _ _ _
    | false =>
      apply PermissionLedger.published_settle
      apply PermissionLedger.published_call _ _ (by simp)
      exact PermissionLedger.published_openRequest _ _ _ _ _

/-- The last snapshot shows the requests after every step. -/
theorem step_published (taken : bridge.step event = some next)
    (holds : bridge.ledger.Published) : next.ledger.Published := by
  cases event with
  | preToolUse made input isWebTurnActive now =>
    cases taken
    exact published_preToolUse made input isWebTurnActive now holds
  | permissionRequest made input isWebTurnActive now =>
    cases taken
    exact published_permissionRequest made input isWebTurnActive now holds
  | resolve resolved decision drove now =>
    cases taken
    exact (resolves bridge resolved decision drove now).published holds
  | resolveLocalOutcome toolName approved now =>
    cases taken
    unfold resolveLocalOutcome
    split
    · exact holds
    · exact PermissionLedger.published_finishRequest _ _ _ _ _ holds
  | reset reason clock =>
    cases taken
    obtain ⟨first, second, answer, isReset⟩ := reset_phases bridge reason clock
    rw [isReset]
    apply published_cancelLocals
    apply published_cancelPermissions
    exact published_cancelQuestions _ _ _ holds
  | notePermissionMode mode =>
    cases taken
    exact published_cachePermissionMode (some mode) holds
  | waitForModeEcho =>
    cases taken
    exact holds
  | fire timer now =>
    simp only [step] at taken
    split at taken
    · cases taken
      have cleared : (bridge.clearTimer timer.handle).ledger.Published := holds
      exact published_runTimer timer now cleared
    · contradiction

end PreToolPermissionBridge

end Kvy.Cli.Claude
