import Kvy.Web.Sync.Reducer.Contents
import Kvy.Web.Sync.Reducer.Linking
import Mathlib.Data.List.Pairwise

/-!
# The order in which subagents are linked

A scope is linked when its tool is in the tree by then: when the tool is in the root scope, or in
a scope whose first envelope comes before its own. A scope that comes before the scope of its tool
stays a group of its own.
-/

namespace Kvy.Web.Sync

open General Wire

/-- A tool of this call is started outside of the scope of this name. -/
def StartedElsewhere (sorted : List SessionEnvelope) (subagent : String) : Prop :=
  ∃ start ∈ sorted, startedCall? start = some subagent ∧ start.subagent ≠ some subagent

/-- Each subagent stands alone exactly when no other scope starts a tool of its name; otherwise the
tool of its name holds its items. -/
structure LinksSubagents (sorted : List SessionEnvelope) (tree : List RenderItem) : Prop where
  alone : ∀ subagent, (∃ env ∈ sorted, env.subagent = some subagent) →
    (subagent ∈ (groups tree).map Prod.fst ↔ ¬ StartedElsewhere sorted subagent)
  linked : ∀ subagent, (∃ env ∈ sorted, env.subagent = some subagent) →
    StartedElsewhere sorted subagent → subagent ∈ calls tree ∧
      ∀ base started permission held, .tool base started permission held ∈ nodesOf tree →
        started.call = subagent → ∃ items, held = some items ∧
          items.map RenderItem.alone = reduceScope (scopeOf (some subagent) sorted)

/-- The tool of a subagent is started in the root or in a scope that comes before the subagent's. -/
def StartedBefore (sorted : List SessionEnvelope) (subagent : String) : Prop :=
  ∃ start ∈ sorted, startedCall? start = some subagent ∧ (start.subagent = none ∨
    ∃ other ∈ envelopesBefore sorted subagent, other.subagent = start.subagent)

/-- Wherever another scope starts the tool of a subagent, it is the root or its first envelope comes
before the subagent's. -/
def ParentsFirst (sorted : List SessionEnvelope) : Prop :=
  ∀ subagent, (∃ env ∈ sorted, env.subagent = some subagent) →
    StartedElsewhere sorted subagent → StartedBefore sorted subagent

/-! ## The calls of a tree -/

/-- The tools of a reduced scope have the calls that its envelopes start. -/
theorem reduce_scope_calls (envs : List SessionEnvelope) :
    ((reduceScope envs).filterMap RenderItem.toolCall?).Perm (envs.filterMap startedCall?) := by
  have shown := (reduce_scope_contents envs).filterMap RenderItem.toolCall?
  have tools : (reduceScope envs).filterMap RenderItem.toolCall? =
      ((reduceScope envs).filterMap RenderItem.content?).filterMap RenderItem.toolCall? := by
    rw [List.filterMap_filterMap]
    congr 1
    funext item
    cases item <;> rfl
  have started (before rest : List SessionEnvelope) :
      (contents before rest).filterMap RenderItem.toolCall? = rest.filterMap startedCall? := by
    induction rest generalizing before with
    | nil => rfl
    | cons env rest inductionHypothesis =>
      have here : (content? before env rest).toList.filterMap RenderItem.toolCall? =
          (startedCall? env).toList := by
        unfold content? startedCall?
        cases env.ev with
        | toolEnd call ok output =>
          simp only
          split <;> rfl
        | toolStart call name title args risk =>
          have kept (later : List SessionEnvelope) (tool : ToolCall) :
              (tool.finished later).call = tool.call := by
            unfold ToolCall.finished
            cases lastEnd? tool.call later <;> rfl
          simp [RenderItem.toolCall?, kept]
        | text | service | file | turnStart | turnEnd | permRequest | permResolve | modeSwitch
        | permissionMode | subStart | subStop | usage | plan => rfl
      rw [contents, List.filterMap_append, here, inductionHypothesis]
      cases shown : startedCall? env <;> simp [shown]
  rw [tools]
  rwa [started] at shown

/-- The calls of the scopes that are reduced are those that their envelopes start. -/
theorem reduced_calls {sorted : List SessionEnvelope} {before : List (String × List SessionEnvelope)}
    (scopes : ∀ entry ∈ before, entry.2 = scopeOf (some entry.1) sorted) (call : String) :
    call ∈ (reducedItems (reduceScope (scopeOf none sorted)) before).filterMap RenderItem.toolCall? ↔
      ∃ start ∈ sorted, startedCall? start = some call ∧
        (start.subagent = none ∨ ∃ subagent ∈ before.map Prod.fst, start.subagent = some subagent) := by
  have scope (subagent : Option String) :
      call ∈ (reduceScope (scopeOf subagent sorted)).filterMap RenderItem.toolCall? ↔
        ∃ start ∈ sorted, startedCall? start = some call ∧ start.subagent = subagent := by
    rw [(reduce_scope_calls _).mem_iff]
    simp only [scopeOf, List.mem_filterMap, List.mem_filter, decide_eq_true_eq]
    grind
  rw [reducedItems, List.filterMap_append, List.mem_append, scope]
  have below : call ∈ (before.flatMap (fun entry => reduceScope entry.2)).filterMap RenderItem.toolCall? ↔
      ∃ entry ∈ before, call ∈ (reduceScope (scopeOf (some entry.1) sorted)).filterMap
        RenderItem.toolCall? := by
    simp only [List.filterMap_flatMap, List.mem_flatMap]
    apply exists_congr
    intro entry
    apply and_congr_right
    intro member
    rw [scopes entry member]
  rw [below]
  simp only [scope, List.mem_map]
  grind

/-! ## Linking -/

section
variable {sorted : List SessionEnvelope}

/-- A subagent stands alone exactly when its tool does not come before it. -/
theorem stands_alone_iff {subagent : String} (occurs : ∃ env ∈ sorted, env.subagent = some subagent) :
    subagent ∈ (groups (reduceSorted sorted)).map Prod.fst ↔ ¬ StartedBefore sorted subagent := by
  have whole := reduce_sorted_whole sorted
  obtain ⟨⟨name, envs⟩, member, rfl⟩ := List.mem_map.mp ((subagent_scopes_keys sorted subagent).mpr occurs)
  obtain ⟨before, after, split⟩ := List.append_of_mem member
  have scopes : ∀ entry ∈ before, entry.2 = scopeOf (some entry.1) sorted := by
    intro entry earlier
    exact (subagent_scopes_entry (by simp [split, earlier])).1
  have keys : (subagentScopes sorted).keys = before.map Prod.fst ++ name :: after.map Prod.fst := by
    rw [OrderedMap.keys, split, List.map_append, List.map_cons]
  have earlier : ∀ other, other ∈ before.map Prod.fst ↔
      ∃ env ∈ envelopesBefore sorted name, env.subagent = some other := by
    intro other
    rw [← subagent_scopes_first sorted keys, subagent_scopes_keys]
  rw [whole.standing before name envs after split, reduced_calls scopes]
  simp only [earlier, StartedBefore]
  apply not_congr
  refine exists_congr (fun start => and_congr_right (fun _ => and_congr_right (fun _ => ?_)))
  cases tag : start.subagent with
  | none => simp
  | some parent => simp [and_comm]

/-- A tool that comes before is another scope's. -/
theorem StartedBefore.elsewhere {subagent : String} (before : StartedBefore sorted subagent) :
    StartedElsewhere sorted subagent := by
  obtain ⟨start, member, starts, root | ⟨other, earlier, same⟩⟩ := before
  · exact ⟨start, member, starts, by simp [root]⟩
  · have untagged := List.mem_takeWhile_imp earlier
    exact ⟨start, member, starts, by simpa [same] using untagged⟩

/-- Items of one list with the same key are the same when the keys are distinct. -/
theorem filter_map_inj {α β : Type} {select : α → Option β} {items : List α}
    (distinct : (items.filterMap select).Nodup) {first second : α} (firstIn : first ∈ items)
    (secondIn : second ∈ items) {key : β} (same : select first = some key)
    (other : select second = some key) : first = second := by
  by_contra different
  have apart := List.pairwise_filterMap.mp distinct
  have symmetric : Std.Symm (fun first second : α =>
      ∀ key, select first = some key → ∀ other, select second = some other → key ≠ other) := by
    constructor
    intro first second apart key selected other otherSelected
    exact (apart other otherSelected key selected).symm
  exact apart.forall firstIn secondIn different key same key other rfl

/-- The calls of a transcript are those that its envelopes start. -/
theorem reduce_sorted_calls (sorted : List SessionEnvelope) :
    (calls (reduceSorted sorted)).Perm (sorted.filterMap startedCall?) := by
  have whole := (reduce_sorted_whole sorted).pieces.filterMap RenderItem.toolCall?
  rw [← calls_pieces, List.filterMap_flatMap] at whole
  refine whole.trans ?_
  have scopes : ((scopesOf sorted).flatMap (fun subagent =>
      (reduceScope (scopeOf subagent sorted)).filterMap RenderItem.toolCall?)).Perm
      ((scopesOf sorted).flatMap (fun subagent => (scopeOf subagent sorted).filterMap startedCall?)) :=
    List.Perm.flatMap_left _ (fun subagent _ => reduce_scope_calls _)
  refine scopes.trans ?_
  rw [← List.filterMap_flatMap]
  exact (scopes_perm sorted).filterMap _

/-- The tool of a subagent that does not stand alone holds its items. -/
theorem linked_items (unique : (calls (reduceSorted sorted)).Nodup) {subagent : String}
    (occurs : ∃ env ∈ sorted, env.subagent = some subagent)
    (inside : subagent ∉ (groups (reduceSorted sorted)).map Prod.fst) :
    subagent ∈ calls (reduceSorted sorted) ∧ ∀ base started permission held,
      .tool base started permission held ∈ nodesOf (reduceSorted sorted) → started.call = subagent →
        ∃ items, held = some items ∧
          items.map RenderItem.alone = reduceScope (scopeOf (some subagent) sorted) := by
  have whole := reduce_sorted_whole sorted
  obtain ⟨entry, member, rfl⟩ := List.mem_map.mp ((subagent_scopes_keys sorted subagent).mpr occurs)
  have placed : (entry.1, reduceScope (scopeOf (some entry.1) sorted)) ∈
      links (reduceSorted sorted) ++ groups (reduceSorted sorted) := by
    rw [whole.placed.mem_iff, List.mem_map]
    exact ⟨entry, member, by rw [(subagent_scopes_entry member).1]⟩
  rcases List.mem_append.mp placed with linked | grouped
  · obtain ⟨item, below, link⟩ := List.mem_filterMap.mp linked
    obtain ⟨base, started, permission, items, rfl⟩ : ∃ base started permission items,
        item = .tool base started permission (some items) := by
      unfold RenderItem.link? at link
      split at link
      · exact ⟨_, _, _, _, rfl⟩
      · contradiction
    rw [RenderItem.link_linked, Option.some.injEq, Prod.mk.injEq] at link
    refine ⟨List.mem_filterMap.mpr ⟨_, below, congrArg some link.1⟩, ?_⟩
    intro otherBase otherStarted otherPermission held otherBelow named
    have same := filter_map_inj unique below otherBelow (congrArg some link.1) (congrArg some named)
    obtain ⟨rfl, rfl, rfl, rfl⟩ := RenderItem.tool.inj same
    exact ⟨items, rfl, link.2⟩
  · exact absurd (List.mem_map_of_mem grouped) inside

end

/-- Subagents are linked as promised exactly when parents come first. -/
theorem links_subagents_iff (envelopes : List SessionEnvelope)
    (unique : ((stableSortByTime SessionEnvelope.time (dedupeById envelopes)).filterMap
      startedCall?).Nodup) :
    LinksSubagents (stableSortByTime SessionEnvelope.time (dedupeById envelopes))
        (reduceEnvelopes envelopes) ↔
      ParentsFirst (stableSortByTime SessionEnvelope.time (dedupeById envelopes)) := by
  rw [reduceEnvelopes]
  generalize stableSortByTime SessionEnvelope.time (dedupeById envelopes) = sorted at unique
  have distinct := (reduce_sorted_calls sorted).nodup_iff.mpr unique
  constructor
  · intro links subagent occurs elsewhere
    by_contra late
    exact (links.alone subagent occurs).mp ((stands_alone_iff occurs).mpr late) elsewhere
  · intro parentsFirst
    refine ⟨?_, ?_⟩
    · intro subagent occurs
      rw [stands_alone_iff occurs]
      exact not_congr ⟨StartedBefore.elsewhere, parentsFirst subagent occurs⟩
    · intro subagent occurs elsewhere
      apply linked_items distinct occurs
      rw [stands_alone_iff occurs, not_not]
      exact parentsFirst subagent occurs elsewhere

/-- One scope holds the tool of another. -/
def Contains (sorted : List SessionEnvelope) (parent child : String) : Prop :=
  ∃ start ∈ sorted, start.subagent = some parent ∧ startedCall? start = some child

/-- A plain envelope of the agent. -/
def sampleEnvelope (id : String) (time : Int) (subagent : Option String) (ev : SessionEvent) :
    SessionEnvelope :=
  ⟨id, Decimal.ofInt time, .agent, none, subagent, ev⟩

/-- The first envelope of a nested subagent comes before those of the subagent that spawned it. -/
def childFirst : List SessionEnvelope :=
  [sampleEnvelope "e1" 1 (some "child") (.text "working" none),
    sampleEnvelope "e2" 2 none (.toolStart "parent" "Task" none none none),
    sampleEnvelope "e3" 3 (some "parent") (.toolStart "child" "Task" none none none)]

/-- A subagent stands alone although another scope holds its tool: calls are unique and no scope
holds its own tool. -/
theorem child_first_alone :
    (childFirst.filterMap startedCall?).Nodup ∧
      (∀ subagent, ¬ Relation.TransGen (Contains childFirst) subagent subagent) ∧
      ¬ LinksSubagents (stableSortByTime SessionEnvelope.time (dedupeById childFirst))
        (reduceEnvelopes childFirst) := by
  refine ⟨by decide, ?_, ?_⟩
  · have only {parent child : String} (contains : Contains childFirst parent child) :
        parent = "parent" ∧ child = "child" := by
      obtain ⟨start, member, tagged, starts⟩ := contains
      simp only [childFirst, List.mem_cons, List.not_mem_nil, or_false] at member
      rcases member with rfl | rfl | rfl <;> simp_all [sampleEnvelope, startedCall?]
    have reach {parent child : String} (chain : Relation.TransGen (Contains childFirst) parent child) :
        parent = "parent" ∧ child = "child" := by
      induction chain with
      | single contains => exact only contains
      | tail _ contains inductionHypothesis => exact ⟨inductionHypothesis.1, (only contains).2⟩
    intro subagent chain
    obtain ⟨rfl, same⟩ := reach chain
    exact absurd same (by decide)
  · intro links
    have sorted : stableSortByTime SessionEnvelope.time (dedupeById childFirst) = childFirst := by
      rfl
    rw [sorted] at links
    have stands : (groups (reduceEnvelopes childFirst)).map Prod.fst = ["child"] := by
      decide +kernel
    have elsewhere : StartedElsewhere childFirst "child" :=
      ⟨_, List.mem_cons_of_mem _ (List.mem_cons_of_mem _ List.mem_cons_self), rfl, by decide⟩
    refine (links.alone "child" ⟨_, List.mem_cons_self, rfl⟩).mp ?_ elsewhere
    rw [stands]
    exact List.mem_cons_self

/-- The scope of the child does not come after that of its parent. -/
theorem child_first_not_linked :
    LinksSubagents (stableSortByTime SessionEnvelope.time (dedupeById childFirst))
        (reduceEnvelopes childFirst) ↔
      ParentsFirst (stableSortByTime SessionEnvelope.time (dedupeById childFirst)) :=
  links_subagents_iff childFirst (by decide +kernel)

end Kvy.Web.Sync
