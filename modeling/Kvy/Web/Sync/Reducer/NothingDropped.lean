import Kvy.Web.Sync.Reducer.Linking
import Kvy.Web.Sync.Reducer.Permissions
import Kvy.Web.Sync.Reducer.Refetch

/-!
# What the reducer drops

A transcript shows one item for each envelope that is not about a permission, and applies each tool
end to its tool or shows it as an orphan. A request can be dropped; nothing is lost exactly when each
dropped request has a namesake that shows with the same decision.
-/

namespace Kvy.Web.Sync

open General Wire

/-- What the tree shows of all scopes. -/
structure DropsNothing (sorted : List SessionEnvelope) (tree : List RenderItem) : Prop where
  /-- Without their permissions, the items are those of the envelopes, once each. -/
  once : ((nodesOf tree).filterMap RenderItem.content?).Perm
    ((scopesOf sorted).flatMap (fun subagent => contents [] (scopeOf subagent sorted)))
  /-- An end shows in the latest tool of its call, with the last end of that tool, or as an orphan. -/
  ends : ∀ subagent before env after call ok output,
    scopeOf subagent sorted = before ++ env :: after → env.ev = .toolEnd call ok output →
    (∃ earlier start between tool permission held, before = earlier ++ start :: between ∧
      startedCall? start = some call ∧ startedIn between call = false ∧
      .tool (baseOf start) tool permission held ∈ nodesOf tree ∧ tool.call = call ∧
      tool.status = .done ∧
      tool.ok.map (fun ok => (ok, tool.output)) = lastEnd? call (env :: after)) ∨
    (startedIn before call = false ∧ .orphanToolEnd (baseOf env) call ok output ∈ nodesOf tree)
  /-- The identifier of a request shows with the last decision that follows it in its scope. -/
  requests : ∀ subagent before request after reqId,
    scopeOf subagent sorted = before ++ request :: after → requestedId? request = some reqId →
    ∃ info ∈ (nodesOf tree).filterMap RenderItem.permission?,
      info.reqId = reqId ∧ info.decision = lastDecision? reqId after

/-- Each request has a request with its identifier that is not dropped, and whose own decision is
the last one that follows the first in its scope. -/
def RequestsKept (sorted : List SessionEnvelope) : Prop :=
  ∀ subagent before request after reqId,
    scopeOf subagent sorted = before ++ request :: after → requestedId? request = some reqId →
    ∃ other earlier kept later, scopeOf other sorted = earlier ++ kept :: later ∧
      requestedId? kept = some reqId ∧ dropped earlier kept later = false ∧
      ownDecision? reqId later = lastDecision? reqId after

section
variable {sorted : List SessionEnvelope}

/-! ## Items -/

/-- The contents of the envelopes of a scope. -/
theorem mem_contents {before rest : List SessionEnvelope} {item : RenderItem} :
    item ∈ contents before rest ↔ ∃ earlier env later, rest = earlier ++ env :: later ∧
      content? (before ++ earlier) env later = some item := by
  induction rest generalizing before with
  | nil => simp [contents]
  | cons env rest inductionHypothesis =>
    rw [contents, List.mem_append, inductionHypothesis, Option.mem_toList]
    constructor
    · rintro (here | ⟨earlier, other, later, rfl, shown⟩)
      · exact ⟨[], env, rest, rfl, by simpa using here⟩
      · exact ⟨env :: earlier, other, later, rfl, by simpa using shown⟩
    · rintro ⟨earlier, other, later, split, shown⟩
      cases earlier with
      | nil =>
        obtain ⟨rfl, rfl⟩ := List.cons.inj split
        exact Or.inl (by simpa using shown)
      | cons first earlier =>
        obtain ⟨rfl, rfl⟩ := List.cons.inj split
        exact Or.inr ⟨earlier, other, later, rfl, by simpa using shown⟩

/-- Selecting from a tree goes through its pieces when groups and what items hold do not matter. -/
theorem filter_map_pieces {α : Type} {select : RenderItem → Option α}
    (group : ∀ base subagentId items, select (.subagentGroup base subagentId items) = none)
    (alone : ∀ item, select item.alone = select item) (items : List RenderItem) :
    (nodesOf items).filterMap select = (pieces items).filterMap select := by
  rw [pieces, List.filterMap_filterMap]
  congr 1
  funext item
  cases item with
  | subagentGroup base subagentId items => simp [group]
  | tool base started permission held => simp [RenderItem.piece?, alone]
  | event | permPlaceholder | orphanToolEnd => rfl

/-- The items of a transcript are those of its scopes. -/
theorem reduced_select {α : Type} {select : RenderItem → Option α}
    (group : ∀ base subagentId items, select (.subagentGroup base subagentId items) = none)
    (alone : ∀ item, select item.alone = select item) :
    ((nodesOf (reduceSorted sorted)).filterMap select).Perm ((scopesOf sorted).flatMap
      (fun subagent => (reduceScope (scopeOf subagent sorted)).filterMap select)) := by
  rw [filter_map_pieces group alone, ← List.filterMap_flatMap]
  exact (reduce_sorted_whole sorted).pieces.filterMap select

/-- A transcript shows each envelope once. -/
theorem reduced_once : ((nodesOf (reduceSorted sorted)).filterMap RenderItem.content?).Perm
    ((scopesOf sorted).flatMap (fun subagent => contents [] (scopeOf subagent sorted))) := by
  refine (reduced_select (fun _ _ _ => rfl) ?_).trans ?_
  · intro item
    cases item <;> rfl
  · exact List.Perm.flatMap_left _ (fun subagent _ => reduce_scope_contents _)

/-- Scopes with an envelope are among the scopes. -/
theorem mem_scopes_of {subagent : Option String} (occurs : scopeOf subagent sorted ≠ []) :
    subagent ∈ scopesOf sorted := by
  cases subagent with
  | none => exact List.mem_cons_self
  | some subagent =>
    apply List.mem_cons_of_mem
    obtain ⟨env, member⟩ := List.exists_mem_of_ne_nil _ occurs
    rw [scopeOf, List.mem_filter, decide_eq_true_eq] at member
    exact List.mem_map_of_mem ((subagent_scopes_keys sorted subagent).mpr ⟨env, member⟩)

/-- A content of a scope is in the tree. -/
theorem content_shown {subagent : Option String} {before after : List SessionEnvelope}
    {env : SessionEnvelope} {item : RenderItem} (split : scopeOf subagent sorted = before ++ env :: after)
    (shown : content? before env after = some item) :
    ∃ node ∈ nodesOf (reduceSorted sorted), node.content? = some item := by
  rw [← List.mem_filterMap, reduced_once.mem_iff, List.mem_flatMap]
  refine ⟨subagent, mem_scopes_of (by simp [split]), ?_⟩
  rw [mem_contents]
  exact ⟨before, env, after, split, shown⟩

/-- A call that was started has a last start. -/
theorem last_start {before : List SessionEnvelope} {call : String} (started : startedIn before call = true) :
    ∃ earlier start between, before = earlier ++ start :: between ∧ startedCall? start = some call ∧
      startedIn between call = false := by
  induction before using List.reverseRecOn with
  | nil => simp [startedIn] at started
  | append_singleton before env inductionHypothesis =>
    by_cases here : startedCall? env = some call
    · exact ⟨before, env, [], rfl, here, rfl⟩
    · have known : startedIn before call = true := by
        simpa [startedIn, here] using started
      obtain ⟨earlier, start, between, rfl, starts, quiet⟩ := inductionHypothesis known
      refine ⟨earlier, start, between ++ [env], by simp, starts, ?_⟩
      simp only [startedIn, List.any_append, List.any_cons, List.any_nil, Bool.or_false,
        Bool.or_eq_false_iff, decide_eq_false_iff_not]
      exact ⟨quiet, here⟩

/-- The ends of a tool go on when its call is not started again. -/
theorem last_end_append {between : List SessionEnvelope} {call : String}
    (quiet : startedIn between call = false) (rest : List SessionEnvelope) :
    lastEnd? call (between ++ rest) = (lastEnd? call rest).or (lastEnd? call between) := by
  induction between with
  | nil => simp [lastEnd?]
  | cons env between inductionHypothesis =>
    simp only [startedIn, List.any_cons, Bool.or_eq_false_iff, decide_eq_false_iff_not] at quiet
    have later := inductionHypothesis quiet.2
    have here := quiet.1
    unfold startedCall? at here
    simp only [List.cons_append, lastEnd?]
    cases kind : env.ev with
    | toolStart started =>
      have other : started ≠ call := by simpa [kind] using here
      simpa [other] using later
    | toolEnd ended ok output =>
      simp only [later]
      split
      · cases lastEnd? call rest <;> simp
      · rfl
    | text | service | file | turnStart | turnEnd | permRequest | permResolve | modeSwitch
    | permissionMode | subStart | subStop | usage | plan => exact later

/-- Each end shows in its tool or as an orphan. -/
theorem reduced_ends {subagent : Option String} {before after : List SessionEnvelope}
    {env : SessionEnvelope} {call : String} {ok : Bool} {output : Option Json}
    (split : scopeOf subagent sorted = before ++ env :: after) (kind : env.ev = .toolEnd call ok output) :
    (∃ earlier start between tool permission held, before = earlier ++ start :: between ∧
      startedCall? start = some call ∧ startedIn between call = false ∧
      .tool (baseOf start) tool permission held ∈ nodesOf (reduceSorted sorted) ∧ tool.call = call ∧
      tool.status = .done ∧
      tool.ok.map (fun ok => (ok, tool.output)) = lastEnd? call (env :: after)) ∨
    (startedIn before call = false ∧
      .orphanToolEnd (baseOf env) call ok output ∈ nodesOf (reduceSorted sorted)) := by
  cases started : startedIn before call with
  | false =>
    right
    have orphan : content? before env after = some (.orphanToolEnd (baseOf env) call ok output) := by
      simp [content?, kind, started]
    obtain ⟨node, member, shown⟩ := content_shown split orphan
    refine ⟨rfl, ?_⟩
    cases node with
    | orphanToolEnd => rwa [← Option.some.inj shown]
    | event | permPlaceholder | tool | subagentGroup => simp [RenderItem.content?] at shown
  | true =>
    left
    obtain ⟨earlier, start, between, rfl, starts, quiet⟩ := last_start started
    obtain ⟨name, title, args, risk, startKind⟩ :
        ∃ name title args risk, start.ev = .toolStart call name title args risk := by
      unfold startedCall? at starts
      grind
    obtain ⟨last, ended⟩ : ∃ last, lastEnd? call (env :: after) = some last := by
      simp [lastEnd?, kind]
    have all : lastEnd? call (between ++ env :: after) = some last := by
      rw [last_end_append quiet, ended, Option.some_or]
    have content : content? earlier start (between ++ env :: after) = some (.tool (baseOf start)
        (ToolCall.ended ⟨call, name, title, args, risk, .running, none, none⟩ last.1 last.2) none none) := by
      simp [content?, startKind, ToolCall.finished, all]
    rw [List.append_assoc, List.cons_append] at split
    obtain ⟨node, member, shown⟩ := content_shown split content
    cases node with
    | tool base tool permission held =>
      obtain ⟨rfl, rfl, _⟩ := RenderItem.tool.inj (Option.some.inj shown)
      exact ⟨earlier, start, between, _, permission, held, rfl, starts, quiet, member, rfl, rfl, ended.symm⟩
    | event | permPlaceholder | orphanToolEnd | subagentGroup => simp [RenderItem.content?] at shown

/-! ## Requests -/

/-- The permissions of a transcript are those of the requests that are not dropped. -/
theorem mem_reduced_permissions (info : PermissionInfo) :
    info ∈ (nodesOf (reduceSorted sorted)).filterMap RenderItem.permission? ↔
      ∃ subagent before request after, scopeOf subagent sorted = before ++ request :: after ∧
        requestInfo? request after = some info ∧ dropped before request after = false := by
  have whole : ((nodesOf (reduceSorted sorted)).filterMap RenderItem.permission?).Perm _ :=
    reduced_select (fun _ _ _ => rfl) (fun item => by cases item <;> rfl)
  rw [whole.mem_iff, List.mem_flatMap]
  constructor
  · rintro ⟨subagent, _, held⟩
    exact ⟨subagent, (reduce_scope_permissions _ info).mp held⟩
  · rintro ⟨subagent, before, request, after, split, shown⟩
    refine ⟨subagent, mem_scopes_of (by simp [split]), ?_⟩
    exact (reduce_scope_permissions _ info).mpr ⟨before, request, after, split, shown⟩

/-- The record of a request that asks with an identifier. -/
theorem request_info {request : SessionEnvelope} {reqId : String} (after : List SessionEnvelope)
    (requests : requestedId? request = some reqId) :
    ∃ info, requestInfo? request after = some info ∧ info.reqId = reqId ∧
      info.decision = ownDecision? reqId after := by
  unfold requestedId? at requests
  unfold requestInfo?
  cases kind : request.ev <;> simp_all

/-- An envelope with a record asks with its identifier. -/
theorem request_info_id {request : SessionEnvelope} {after : List SessionEnvelope} {info : PermissionInfo}
    (records : requestInfo? request after = some info) : requestedId? request = some info.reqId ∧
      info.decision = ownDecision? info.reqId after := by
  unfold requestInfo? at records
  unfold requestedId?
  grind

end

/-- Nothing is dropped exactly when each request has a namesake that shows with its decision. -/
theorem drops_nothing_iff (envelopes : List SessionEnvelope)
    (distinct : (envelopes.map SessionEnvelope.id).Nodup) :
    DropsNothing (stableSortByTime SessionEnvelope.time envelopes) (reduceEnvelopes envelopes) ↔
      RequestsKept (stableSortByTime SessionEnvelope.time envelopes) := by
  rw [reduceEnvelopes, dedupe_keepFirst, keepFirst_distinct distinct]
  generalize stableSortByTime SessionEnvelope.time envelopes = sorted
  constructor
  · intro nothing subagent before request after reqId split requests
    obtain ⟨info, shown, rfl, decided⟩ := nothing.requests subagent before request after reqId split requests
    obtain ⟨other, earlier, kept, later, held, records, showing⟩ := (mem_reduced_permissions info).mp shown
    obtain ⟨named, own⟩ := request_info_id records
    exact ⟨other, earlier, kept, later, held, named, showing, own.symm.trans decided⟩
  · intro keeps
    refine ⟨reduced_once, fun _ _ _ _ _ _ _ => reduced_ends, ?_⟩
    intro subagent before request after reqId split requests
    obtain ⟨other, earlier, kept, later, held, named, showing, own⟩ :=
      keeps subagent before request after reqId split requests
    obtain ⟨info, records, same, decided⟩ := request_info later named
    exact ⟨info, (mem_reduced_permissions info).mpr ⟨other, earlier, kept, later, held, records, showing⟩,
      same, decided.trans own⟩

/-- A request for a tool that never starts. -/
def unansweredRequest : List SessionEnvelope :=
  [⟨"e1", Decimal.ofInt 1, .agent, none, none, .permRequest "r1" (some "c1") "Bash" none [.default] none⟩]

/-- The request shows nowhere. -/
theorem unanswered_request_dropped :
    ¬ DropsNothing (stableSortByTime SessionEnvelope.time unansweredRequest)
      (reduceEnvelopes unansweredRequest) := by
  intro nothing
  obtain ⟨info, shown, _⟩ := nothing.requests none [] _ [] "r1" rfl rfl
  have empty : reduceEnvelopes unansweredRequest = [] := rfl
  rw [empty] at shown
  simp [nodesOf] at shown

/-- The identifiers are distinct, so the request has no namesake that shows. -/
theorem unanswered_request_iff :
    DropsNothing (stableSortByTime SessionEnvelope.time unansweredRequest)
        (reduceEnvelopes unansweredRequest) ↔
      RequestsKept (stableSortByTime SessionEnvelope.time unansweredRequest) :=
  drops_nothing_iff unansweredRequest (by decide)

end Kvy.Web.Sync
