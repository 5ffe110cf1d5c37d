import Kvy.Web.Sync.Reducer.Requests

/-!
# The permissions of a scope

A request is dropped when another request for its call comes before the tool starts, when the tool
never starts, or when another request names the call while its latest tool holds the permission.
All other requests show, each with the last decision on its identifier before the next request with
that identifier.
-/

namespace Kvy.Web.Sync

open General Wire

/-! ## What becomes of a request -/

/-- The next envelope about a call is a request that names it. -/
def askedNext (call : String) : List SessionEnvelope → Bool
  | [] => false
  | env :: rest =>
    if askedCall? env = some call then true
    else if startedCall? env = some call then false
    else askedNext call rest

/-- What follows the first start of a call. -/
def afterStart (call : String) : List SessionEnvelope → Option (List SessionEnvelope)
  | [] => none
  | env :: rest => if startedCall? env = some call then some rest else afterStart call rest

/-- How many placeholders with a key wait after these envelopes. -/
def queuedIn (key : List Char) (envs : List SessionEnvelope) : Nat :=
  (envs.foldl (fun (before, count) env =>
    (before ++ [env],
      if askedKey? env = some key then count + 1
      else if (claim? key before env).isSome then count - 1
      else count)) (([] : List SessionEnvelope), 0)).2

/-- The call that takes a placeholder with a key and others ahead of it, and what follows. -/
def taker? (key : List Char) : Nat → List SessionEnvelope → List SessionEnvelope →
    Option (String × List SessionEnvelope)
  | _, _, [] => none
  | ahead, before, env :: rest =>
    match claim? key before env, ahead with
    | none, ahead => taker? key ahead (before ++ [env]) rest
    | some call, 0 => some (call, rest)
    | some _, ahead + 1 => taker? key ahead (before ++ [env]) rest

/-- A request is dropped: its call never starts after it, or another request names the call before
the tool starts or while its latest tool holds the permission. -/
def dropped (before : List SessionEnvelope) (request : SessionEnvelope) (after : List SessionEnvelope) :
    Bool :=
  match request.ev with
  | .permRequest _ (some call) _ _ _ _ =>
    askedNext call after ||
      (!startedIn before call && (afterStart call after).elim true (askedNext call))
  | .permRequest _ none name args _ _ =>
    let key := canonicalArgsKey name args
    (taker? key (queuedIn key before) (before ++ [request]) after).elim false
      (fun (call, later) => askedNext call later)
  | _ => false

/-- The identifier of a request. -/
def requestedId? (env : SessionEnvelope) : Option String :=
  match env.ev with
  | .permRequest reqId .. => some reqId
  | _ => none

/-- The decision of an envelope on an identifier. -/
def decision? (reqId : String) (env : SessionEnvelope) : Option PermDecision :=
  match env.ev with
  | .permResolve resolved decision => if resolved = reqId then some decision else none
  | _ => none

/-- The last decision on an identifier. -/
def lastDecision? (reqId : String) : List SessionEnvelope → Option PermDecision
  | [] => none
  | env :: rest => (lastDecision? reqId rest).or (decision? reqId env)

/-- The last decision on an identifier before it is requested again. -/
def ownDecision? (reqId : String) : List SessionEnvelope → Option PermDecision
  | [] => none
  | env :: rest =>
    if requestedId? env = some reqId then none else (ownDecision? reqId rest).or (decision? reqId env)

/-- The permission of a request as the envelopes that follow it leave it. -/
def requestInfo? (request : SessionEnvelope) (after : List SessionEnvelope) : Option PermissionInfo :=
  match request.ev with
  | .permRequest reqId _ _ _ modes answerable => some ⟨reqId, modes, ownDecision? reqId after, answerable⟩
  | _ => none

/-! ## Places -/

/-- Whether a permission shows at the end. -/
def Place.shows : Place → Bool
  | .queued .. | .latest _ | .kept => true
  | .waiting _ | .gone => false

/-- Where a permission is after more envelopes. -/
def Place.after (before : List SessionEnvelope) (place : Place) : List SessionEnvelope → Place
  | [] => place
  | env :: rest => Place.after (before ++ [env]) (place.next before env) rest

/-- The place of a request. -/
def Place.ofRequest (before : List SessionEnvelope) (request : SessionEnvelope) : Place :=
  match request.ev with
  | .permRequest _ (some call) _ _ _ _ => if startedIn before call then .latest call else .waiting call
  | .permRequest _ none name args _ _ =>
    .queued (canonicalArgsKey name args) (queuedIn (canonicalArgsKey name args) before)
  | _ => .gone

@[simp] theorem after_gone (before rest : List SessionEnvelope) :
    Place.gone.after before rest = .gone := by
  induction rest generalizing before with
  | nil => rfl
  | cons env rest inductionHypothesis => exact inductionHypothesis _

@[simp] theorem after_kept (before rest : List SessionEnvelope) :
    Place.kept.after before rest = .kept := by
  induction rest generalizing before with
  | nil => rfl
  | cons env rest inductionHypothesis => exact inductionHypothesis _

/-- The permission of a latest tool shows unless another request names the call first. -/
theorem after_latest (call : String) (before rest : List SessionEnvelope) :
    ((Place.latest call).after before rest).shows = !askedNext call rest := by
  induction rest generalizing before with
  | nil => rfl
  | cons env rest inductionHypothesis =>
    simp only [Place.after, Place.next, askedNext]
    split
    · simp [Place.shows]
    · split
      · simp [Place.shows]
      · exact inductionHypothesis _

/-- A waiting permission shows when its tool starts first and no request names the call again. -/
theorem after_waiting (call : String) (before rest : List SessionEnvelope) :
    ((Place.waiting call).after before rest).shows =
      (!askedNext call rest && !(afterStart call rest).elim true (askedNext call)) := by
  induction rest generalizing before with
  | nil => rfl
  | cons env rest inductionHypothesis =>
    simp only [Place.after, Place.next, askedNext, afterStart]
    split
    · simp [Place.shows]
    · split
      · simp [after_latest]
      · exact inductionHypothesis _

/-- A placeholder shows unless another request names the call that took it. -/
theorem after_queued (key : List Char) (ahead : Nat) (before rest : List SessionEnvelope) :
    ((Place.queued key ahead).after before rest).shows =
      !(taker? key ahead before rest).elim false (fun (call, later) => askedNext call later) := by
  induction rest generalizing ahead before with
  | nil => rfl
  | cons env rest inductionHypothesis =>
    simp only [Place.after, Place.next, taker?]
    cases claimed : claim? key before env with
    | none => exact inductionHypothesis _ _
    | some call =>
      cases ahead with
      | zero => simp [after_latest]
      | succ ahead => exact inductionHypothesis _ _

/-- A request shows at the end unless it is dropped. -/
theorem after_request {before : List SessionEnvelope} {request : SessionEnvelope}
    (requests : (requestedId? request).isSome) (after : List SessionEnvelope) :
    ((Place.ofRequest before request).after (before ++ [request]) after).shows =
      !dropped before request after := by
  unfold requestedId? at requests
  unfold Place.ofRequest dropped
  cases kind : request.ev with
  | permRequest reqId call name args modes answerable =>
    cases call with
    | none => exact after_queued _ _ _ _
    | some call =>
      simp only
      cases startedIn before call with
      | true => simp [after_latest]
      | false => simp [after_waiting]
  | text | service | toolStart | toolEnd | file | turnStart | turnEnd | permResolve | modeSwitch
  | permissionMode | subStart | subStop | usage | plan => simp [kind] at requests

namespace Scope

variable {cell : Nat}

/-- A permission goes to its place after all envelopes. -/
theorem at_run {before : List SessionEnvelope} {place : Place}
    (here : (before.foldl step empty).At cell place) (rest : List SessionEnvelope) :
    ((before ++ rest).foldl step empty).At cell (place.after before rest) := by
  induction rest generalizing before place with
  | nil =>
    rw [List.append_nil]
    exact here
  | cons env rest inductionHypothesis =>
    have next := at_step (Sound.start.run before) (reads_run before) here env
    rw [List.append_cons]
    apply inductionHypothesis
    rw [List.foldl_concat]
    exact next

variable {scope : Scope}

/-- A permission is held by an item exactly when its place shows it. -/
theorem held_iff (sound : scope.Sound) {place : Place}
    (here : scope.At cell place) : (∃ position, scope.held position = some cell) ↔ place.shows = true := by
  have listed := sound.listed
  cases place with
  | waiting call =>
    have free := (sound.waiting call cell here).2.2
    simp [Place.shows, free]
  | gone => simp [Place.shows, here.2.1]
  | queued key ahead =>
    obtain ⟨earlier, pending, later, split, _, same⟩ := here
    have member : pending ∈ scope.pendingPlaceholders.filter (fun pending => pending.argsKey = key) := by
      simp [split]
    obtain ⟨_, _, _, shown, _⟩ := (listed pending).mp (List.mem_filter.mp member).1
    exact iff_of_true ⟨pending.position, by simp [held, shown, ScopeItem.permission?, same]⟩ rfl
  | latest call =>
    obtain ⟨position, _, _, _, shown⟩ := here
    exact iff_of_true ⟨position, by simp [held, shown, ScopeItem.permission?]⟩ rfl
  | kept =>
    obtain ⟨position, _, _, shown, _⟩ := here
    exact iff_of_true ⟨position, by simp [held, shown, ScopeItem.permission?]⟩ rfl

/-- A request without a call adds a placeholder, and a claim takes one. -/
theorem queued_step (sound : scope.Sound) {before : List SessionEnvelope}
    (reads : scope.Reads before) (key : List Char) (env : SessionEnvelope) :
    ((scope.step env).pendingPlaceholders.filter (fun pending => pending.argsKey = key)).length =
      let count := (scope.pendingPlaceholders.filter (fun pending => pending.argsKey = key)).length
      if askedKey? env = some key then count + 1
      else if (claim? key before env).isSome then count - 1
      else count := by
  unfold step askedKey? claim?
  cases env.ev with
  | permRequest reqId named name args modes answerable =>
    cases named with
    | none =>
      by_cases same : canonicalArgsKey name args = key <;>
        simp [requestPermission, Scope.push, List.filter_append, same]
    | some named =>
      simp only [requestPermission]
      split <;> simp
  | permResolve =>
    simp only [resolvePermission]
    split <;> simp
  | toolStart started name title args risk =>
    have awaits := reads.awaited started
    rcases start_cases sound (baseOf env) ⟨started, name, title, args, risk, .running, none, none⟩ with
      ⟨_, named, equal⟩ | ⟨named, earlier, pending, later, split, taken, others, equal⟩ |
        ⟨named, others, equal⟩
    · simp [equal, pushTool, Scope.push, ← awaits, named]
    · by_cases same : canonicalArgsKey name args = key
      · simp [equal, split, List.filter_append, taken, same, ← awaits, named]
      · simp [equal, split, List.filter_append, taken, same]
    · by_cases same : canonicalArgsKey name args = key
      · have none : scope.pendingPlaceholders.filter (fun pending => pending.argsKey = key) = [] := by
          simpa [List.filter_eq_nil_iff, ← same] using others
        simp [equal, pushTool, Scope.push, none]
      · simp [equal, pushTool, Scope.push, same]
  | toolEnd =>
    simp only [endTool]
    split <;> simp [Scope.push]
  | text | service | file | turnStart | turnEnd | modeSwitch | permissionMode | subStart | subStop
  | usage | plan => simp [Scope.push, eventItem?]

/-- As many placeholders with a key wait as the envelopes leave. -/
theorem queued_run (key : List Char) (envs : List SessionEnvelope) :
    ((envs.foldl step empty).pendingPlaceholders.filter (fun pending => pending.argsKey = key)).length =
      queuedIn key envs := by
  have read : ∀ envs : List SessionEnvelope, (envs.foldl (fun (before, count) env =>
      (before ++ [env],
        if askedKey? env = some key then count + 1
        else if (claim? key before env).isSome then count - 1
        else count)) (([] : List SessionEnvelope), 0)).1 = envs := by
    intro envs
    induction envs using List.reverseRecOn with
    | nil => rfl
    | append_singleton envs env inductionHypothesis => simp [List.foldl_append, inductionHypothesis]
  induction envs using List.reverseRecOn with
  | nil => rfl
  | append_singleton envs env inductionHypothesis =>
    rw [List.foldl_concat, queued_step (Sound.start.run envs) (reads_run envs), inductionHypothesis,
      queuedIn, queuedIn, List.foldl_concat]
    have same := read envs
    revert same
    generalize List.foldl _ ([], 0) envs = folded
    rintro rfl
    rfl

/-- A request is at its place. -/
theorem at_request (before : List SessionEnvelope) {request : SessionEnvelope}
    (requests : (requestedId? request).isSome) :
    ((before ++ [request]).foldl step empty).At (before.foldl step empty).permissions.length
      (Place.ofRequest before request) := by
  have queued := fun key => queued_run key before
  have started := started_run before
  have sound := Sound.start.run before
  rw [List.foldl_concat]
  generalize before.foldl step empty = scope at *
  unfold requestedId? at requests
  unfold step Place.ofRequest
  cases kind : request.ev with
  | permRequest reqId call name args modes answerable =>
    simp only [requestPermission]
    cases call with
    | none =>
      simp only [At, List.filter_append, ← queued]
      exact ⟨_, ⟨scope.items.length, _, canonicalArgsKey name args⟩, [], by simp, rfl, rfl⟩
    | some call =>
      have reads := started call
      simp only
      split
      · rename_i position found
        obtain ⟨base, tool, permission, shown, _⟩ := sound.tools call position found
        rw [found] at reads
        simp only [← reads, Option.isSome_some, ↓reduceIte, At]
        refine ⟨position, base, tool, found, ?_⟩
        simp [shown, ScopeItem.withPermission]
      · rename_i found
        rw [found] at reads
        simp [← reads, At]
  | text | service | toolStart | toolEnd | file | turnStart | turnEnd | permResolve | modeSwitch
  | permissionMode | subStart | subStop | usage | plan => simp [kind] at requests

/-- A request adds its record, a decision changes the last one with its identifier, and all other
envelopes change none. -/
theorem records_cases (scope : Scope) (env : SessionEnvelope) :
    (∃ info, requestInfo? env [] = some info ∧ requestedId? env = some info.reqId ∧
      (∀ reqId, decision? reqId env = none) ∧
      (scope.step env).permissions = scope.permissions ++ [info] ∧
      (scope.step env).permInfoByReqId = scope.permInfoByReqId.set info.reqId scope.permissions.length) ∨
    (requestedId? env = none ∧ ∃ reqId decision, env.ev = .permResolve reqId decision ∧
      scope.step env = scope.resolvePermission reqId decision) ∨
    (requestedId? env = none ∧ (∀ reqId, decision? reqId env = none) ∧
      (scope.step env).permissions = scope.permissions ∧
      (scope.step env).permInfoByReqId = scope.permInfoByReqId) := by
  unfold step requestedId? decision? requestInfo?
  cases env.ev with
  | permRequest reqId call name args modes answerable =>
    left
    refine ⟨_, rfl, rfl, fun _ => rfl, ?_⟩
    simp only [requestPermission]
    cases call with
    | none => exact ⟨rfl, rfl⟩
    | some call =>
      simp only
      split <;> exact ⟨rfl, rfl⟩
  | permResolve reqId decision => exact Or.inr (Or.inl ⟨rfl, reqId, decision, rfl, rfl⟩)
  | toolStart call name title args risk =>
    right
    right
    refine ⟨rfl, fun _ => rfl, ?_⟩
    simp only [startTool]
    split
    · exact ⟨rfl, rfl⟩
    · split
      · simp only [replacePlaceholder]
        split <;> exact ⟨rfl, rfl⟩
      · exact ⟨rfl, rfl⟩
  | toolEnd =>
    right
    right
    refine ⟨rfl, fun _ => rfl, ?_⟩
    simp only [endTool]
    split <;> exact ⟨rfl, rfl⟩
  | text | service | file | turnStart | turnEnd | modeSwitch | permissionMode | subStart | subStop
  | usage | plan => exact Or.inr (Or.inr ⟨rfl, fun _ => rfl, rfl, rfl⟩)

/-- The latest record of an identifier has that identifier. -/
def Named (scope : Scope) : Prop :=
  ∀ reqId cell, scope.permInfoByReqId.get? reqId = some cell →
    ∃ info, scope.permissions[cell]? = some info ∧ info.reqId = reqId

/-- A decision on an identifier changes its latest record. -/
theorem resolve_records (scope : Scope) (reqId : String) (decision : PermDecision) (cell : Nat) :
    (scope.resolvePermission reqId decision).permInfoByReqId = scope.permInfoByReqId ∧
      (scope.resolvePermission reqId decision).permissions[cell]? =
        if scope.permInfoByReqId.get? reqId = some cell then
          scope.permissions[cell]?.map (fun info => { info with decision := some decision })
        else scope.permissions[cell]? := by
  unfold resolvePermission
  cases found : scope.permInfoByReqId.get? reqId with
  | none => simp
  | some latest =>
    simp only [List.getElem?_modify, Option.some.injEq, true_and]
    by_cases same : latest = cell <;> simp [same]

theorem Named.step (named : scope.Named) (env : SessionEnvelope) :
    (scope.step env).Named := by
  intro reqId cell found
  rcases records_cases scope env with
    ⟨info, _, _, _, permissions, latest⟩ | ⟨_, resolved, decision, _, equal⟩ |
      ⟨_, _, permissions, latest⟩
  · rw [latest, OrderedMap.get_set] at found
    rw [permissions]
    split at found
    · rename_i same
      cases found
      exact ⟨info, by simp, same.symm⟩
    · obtain ⟨record, held, same⟩ := named reqId cell found
      exact ⟨record, by grind, same⟩
  · obtain ⟨same, records⟩ := resolve_records scope resolved decision cell
    rw [equal] at found ⊢
    rw [same] at found
    obtain ⟨record, held, rfl⟩ := named reqId cell found
    rw [records, held]
    split
    · exact ⟨_, rfl, rfl⟩
    · exact ⟨record, rfl, rfl⟩
  · rw [latest] at found
    rw [permissions]
    exact named reqId cell found

/-- The latest record of an identifier gets the decision of an envelope, and is the latest until the
identifier is requested again. -/
theorem record_step (named : scope.Named) {info : PermissionInfo}
    (held : scope.permissions[cell]? = some info) (env : SessionEnvelope) :
    (scope.step env).permissions[cell]? = some
        (if scope.permInfoByReqId.get? info.reqId = some cell then
          { info with decision := (decision? info.reqId env).or info.decision } else info) ∧
      ((scope.step env).permInfoByReqId.get? info.reqId = some cell ↔
        scope.permInfoByReqId.get? info.reqId = some cell ∧ requestedId? env ≠ some info.reqId) := by
  have inside : cell < scope.permissions.length := (List.getElem?_eq_some_iff.mp held).1
  rcases records_cases scope env with
    ⟨added, _, requested, undecided, permissions, latest⟩ | ⟨unrequested, resolved, decision, kind, equal⟩ |
      ⟨unrequested, undecided, permissions, latest⟩
  · rw [permissions, latest, undecided, requested, OrderedMap.get_set,
      List.getElem?_append_left inside, held]
    refine ⟨by simp, ?_⟩
    by_cases same : info.reqId = added.reqId
    · simp [same, Nat.ne_of_gt inside]
    · simp [same, Ne.symm same]
  · obtain ⟨same, records⟩ := resolve_records scope resolved decision cell
    rw [equal, records, held, unrequested, same]
    refine ⟨?_, by simp⟩
    by_cases own : resolved = info.reqId
    · subst own
      simp only [decision?, kind, ↓reduceIte, Option.some_or]
      split <;> rfl
    · have other : scope.permInfoByReqId.get? resolved ≠ some cell := by
        intro found
        obtain ⟨record, recorded, rfl⟩ := named resolved cell found
        exact own (congrArg PermissionInfo.reqId (Option.some.inj (recorded.symm.trans held)))
      simp [decision?, kind, own, other]
  · rw [permissions, latest, undecided, unrequested, held]
    simp

theorem named_run (envs : List SessionEnvelope) : (envs.foldl step empty).Named := by
  induction envs using List.reverseRecOn with
  | nil => intro reqId cell found; simp [empty] at found
  | append_singleton envs env inductionHypothesis =>
    rw [List.foldl_concat]
    exact inductionHypothesis.step env

/-- A record ends with the last decision on its identifier before it is requested again. -/
theorem record_run (named : scope.Named) {info : PermissionInfo}
    (held : scope.permissions[cell]? = some info) (rest : List SessionEnvelope) :
    (rest.foldl step scope).permissions[cell]? = some
      (if scope.permInfoByReqId.get? info.reqId = some cell then
        { info with decision := (ownDecision? info.reqId rest).or info.decision } else info) := by
  induction rest generalizing scope info with
  | nil => simpa [ownDecision?] using held
  | cons env rest inductionHypothesis =>
    obtain ⟨stepped, latest⟩ := record_step named held env
    rw [List.foldl_cons]
    by_cases current : scope.permInfoByReqId.get? info.reqId = some cell
    · rw [if_pos current] at stepped ⊢
      rw [inductionHypothesis (named.step env) stepped]
      simp only [latest, current, true_and, ownDecision?]
      by_cases again : requestedId? env = some info.reqId
      · have undecided : decision? info.reqId env = none := by
          unfold requestedId? at again
          unfold decision?
          grind
        simp [again, undecided]
      · simp [again, Option.or_assoc]
    · rw [if_neg current] at stepped ⊢
      rw [inductionHypothesis (named.step env) stepped, if_neg (fun still => current (latest.mp still).1)]

/-- The record of a request at the end. -/
theorem record_request
    (before : List SessionEnvelope) {request : SessionEnvelope} {info : PermissionInfo}
    (after : List SessionEnvelope) (records : requestInfo? request after = some info) :
    ((before ++ request :: after).foldl step empty).permissions[(before.foldl step empty).permissions.length]? =
      some info := by
  have named := named_run before
  rw [List.foldl_append, List.foldl_cons]
  generalize before.foldl step empty = scope at *
  rcases records_cases scope request with
    ⟨added, shown, _, _, permissions, latest⟩ | ⟨unrequested, _⟩ | ⟨unrequested, _⟩
  · have held : (scope.step request).permissions[scope.permissions.length]? = some added := by
      simp [permissions]
    have final := record_run (named.step request) held after
    rw [latest, OrderedMap.get_set, if_pos rfl, if_pos rfl] at final
    rw [final, ← records]
    unfold requestInfo? at shown ⊢
    cases kind : request.ev <;> simp_all
    subst shown
    simp [ownDecision?]
  all_goals
    unfold requestedId? at unrequested
    unfold requestInfo? at records
    cases kind : request.ev <;> simp_all

/-- Every record was made by a request. -/
theorem record_origin (envs : List SessionEnvelope)
    (inside : cell < (envs.foldl step empty).permissions.length) :
    ∃ before request after, envs = before ++ request :: after ∧ (requestedId? request).isSome ∧
      (before.foldl step empty).permissions.length = cell := by
  induction envs using List.reverseRecOn with
  | nil => simp [empty] at inside
  | append_singleton envs env inductionHypothesis =>
    rw [List.foldl_concat] at inside
    have earlier (known : cell < (envs.foldl step empty).permissions.length) :
        ∃ before request after, envs ++ [env] = before ++ request :: after ∧
          (requestedId? request).isSome ∧ (before.foldl step empty).permissions.length = cell := by
      obtain ⟨before, request, after, rfl, requests, length⟩ := inductionHypothesis known
      exact ⟨before, request, after ++ [env], by simp, requests, length⟩
    rcases records_cases (envs.foldl step empty) env with
      ⟨added, _, requested, _, permissions, _⟩ | ⟨_, resolved, decision, _, equal⟩ |
        ⟨_, _, permissions, _⟩
    · rw [permissions, List.length_append, List.length_singleton] at inside
      by_cases known : cell < (envs.foldl step empty).permissions.length
      · exact earlier known
      · exact ⟨envs, env, [], rfl, by simp [requested], by omega⟩
    · rw [equal] at inside
      apply earlier
      unfold resolvePermission at inside
      split at inside
      · simpa using inside
      · exact inside
    · rw [permissions] at inside
      exact earlier inside

end Scope

/-- The permission that an item holds. -/
def RenderItem.permission? : RenderItem → Option PermissionInfo
  | .permPlaceholder _ _ _ permission => some permission
  | .tool _ _ permission _ => permission
  | _ => none

/-- The permissions that a reduced scope shows are held at its positions. -/
theorem mem_permissions (envs : List SessionEnvelope) (info : PermissionInfo) :
    info ∈ (reduceScope envs).filterMap RenderItem.permission? ↔
      ∃ position cell, (envs.foldl Scope.step Scope.empty).held position = some cell ∧
        (envs.foldl Scope.step Scope.empty).permissions[cell]? = some info := by
  have sound := Scope.Sound.start.run envs
  simp only [reduceScope]
  generalize envs.foldl Scope.step Scope.empty = scope at *
  have shown (item : ScopeItem) : (item.shown scope.permissions).permission? =
      item.permission?.map (fun cell => scope.permissions.getD cell default) := by
    cases item <;> rfl
  simp only [List.filterMap_map, List.mem_filterMap, Function.comp_def, shown, Option.map_eq_some_iff]
  constructor
  · rintro ⟨item, member, cell, holds, rfl⟩
    obtain ⟨position, here⟩ := List.mem_iff_getElem?.mp member
    have held : scope.held position = some cell := by
      rw [Scope.held, here]
      exact holds
    have inside := sound.issued position cell held
    exact ⟨position, cell, held, by simp [List.getD, inside]⟩
  · rintro ⟨position, cell, held, record⟩
    rw [Scope.held, Option.bind_eq_some_iff] at held
    obtain ⟨item, here, holds⟩ := held
    exact ⟨item, List.mem_of_getElem? here, cell, holds, by simp [List.getD, record]⟩

/-- A reduced scope shows the permissions of the requests that are not dropped. -/
theorem reduce_scope_permissions (envs : List SessionEnvelope) (info : PermissionInfo) :
    info ∈ (reduceScope envs).filterMap RenderItem.permission? ↔
      ∃ before request after, envs = before ++ request :: after ∧
        requestInfo? request after = some info ∧ dropped before request after = false := by
  have sound := Scope.Sound.start.run envs
  have shows {before : List SessionEnvelope} {request : SessionEnvelope} {after : List SessionEnvelope}
      (split : envs = before ++ request :: after) (requests : (requestedId? request).isSome) :
      (∃ position, (envs.foldl Scope.step Scope.empty).held position =
        some (before.foldl Scope.step Scope.empty).permissions.length) ↔
        dropped before request after = false := by
    have final := Scope.at_run (Scope.at_request before requests) after
    rw [List.append_assoc, List.singleton_append, ← split] at final
    rw [Scope.held_iff sound final, after_request requests]
    simp
  rw [mem_permissions]
  constructor
  · rintro ⟨position, cell, held, record⟩
    obtain ⟨before, request, after, split, requests, rfl⟩ :=
      Scope.record_origin envs (sound.issued position cell held)
    obtain ⟨info', records⟩ : ∃ info', requestInfo? request after = some info' := by
      unfold requestedId? at requests
      unfold requestInfo?
      cases kind : request.ev <;> simp_all
    have final := Scope.record_request before after records
    rw [← split, record] at final
    cases final
    exact ⟨before, request, after, split, records, (shows split requests).mp ⟨position, held⟩⟩
  · rintro ⟨before, request, after, split, records, kept⟩
    have requests : (requestedId? request).isSome := by
      unfold requestInfo? at records
      unfold requestedId?
      cases kind : request.ev <;> simp_all
    obtain ⟨position, held⟩ := (shows split requests).mpr kept
    have final := Scope.record_request before after records
    rw [← split] at final
    exact ⟨position, _, held, final⟩

end Kvy.Web.Sync
