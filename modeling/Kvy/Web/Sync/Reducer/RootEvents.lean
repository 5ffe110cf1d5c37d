import Kvy.Web.Sync.Reducer.Reduce

/-!
# The events of the root scope

Whatever the pairing and the linking do, the items that show one event of the root scope
come out once each, in the order of the sorted envelopes.
-/

namespace Kvy.Web.Sync

open General Wire

/-- The event an item shows. -/
def RenderItem.event? : RenderItem → Option (RenderItemBase × EventItem)
  | .event base item => some (base, item)
  | _ => none

/-- The event an item of a scope shows. -/
def ScopeItem.event? : ScopeItem → Option (RenderItemBase × EventItem)
  | .event base item => some (base, item)
  | _ => none

/-- The event an envelope shows. -/
def shownEvent? (env : SessionEnvelope) : Option (RenderItemBase × EventItem) :=
  (eventItem? env.ev).map (fun item => (baseOf env, item))

@[simp] theorem ScopeItem.event_shown (permissions : List PermissionInfo) (item : ScopeItem) :
    (item.shown permissions).event? = item.event? := by
  cases item <;> rfl

/-- Changing an item keeps the events when it keeps the item's event. -/
theorem filter_map_modify {α β : Type} (select : α → Option β) (change : α → α)
    (keeps : ∀ item, select (change item) = select item) (items : List α) (position : Nat) :
    (items.modify position change).filterMap select = items.filterMap select := by
  induction items generalizing position with
  | nil => simp
  | cons item rest inductionHypothesis =>
    cases position with
    | zero => simp [List.filterMap_cons, keeps]
    | succ position => simp [List.filterMap_cons, inductionHypothesis]

/-- Replacing an item without an event by one without keeps the events. -/
theorem filter_map_set {α β : Type} (select : α → Option β) {items : List α} {position : Nat}
    {held put : α} (found : items[position]? = some held) (heldNone : select held = none)
    (putNone : select put = none) :
    (items.set position put).filterMap select = items.filterMap select := by
  induction items generalizing position with
  | nil => simp at found
  | cons item rest inductionHypothesis =>
    cases position with
    | zero =>
      obtain rfl : item = held := by simpa using found
      simp [heldNone, putNone]
    | succ position =>
      have later : rest[position]? = some held := by simpa using found
      simp [List.filterMap_cons, inductionHypothesis later]

namespace Scope

/-- The events of a scope, in order. -/
def events (scope : Scope) : List (RenderItemBase × EventItem) :=
  scope.items.filterMap ScopeItem.event?

theorem events_push (scope : Scope) (item : ScopeItem) :
    (scope.push item).events = scope.events ++ item.event?.toList := by
  cases shown : item.event? <;> simp [events, push, shown]

theorem events_push_tool (scope : Scope) (base : RenderItemBase) (tool : ToolCall)
    (permission : Option Nat) : (scope.pushTool base tool permission).events = scope.events := by
  simp [events, pushTool, push, ScopeItem.event?]

theorem events_request (scope : Scope) (base : RenderItemBase) (info : PermissionInfo)
    (call : Option String) (name : String) (args : Option Json) :
    (scope.requestPermission base info call name args).events = scope.events := by
  unfold requestPermission
  cases call with
  | none => simp [events, push, ScopeItem.event?]
  | some call =>
    simp only
    split
    · apply filter_map_modify
      intro item
      cases item <;> rfl
    · rfl

theorem events_resolve (scope : Scope) (reqId : String) (decision : PermDecision) :
    (scope.resolvePermission reqId decision).events = scope.events := by
  unfold resolvePermission
  split <;> rfl

theorem events_replace (scope : Scope) (base : RenderItemBase) (tool : ToolCall)
    (pending : PendingPlaceholder) :
    (scope.replacePlaceholder base tool pending).events = scope.events := by
  unfold replacePlaceholder
  split
  · rename_i found
    exact filter_map_set ScopeItem.event? found rfl rfl
  · exact events_push_tool scope base tool _

theorem events_start (scope : Scope) (base : RenderItemBase) (tool : ToolCall) :
    (scope.startTool base tool).events = scope.events := by
  unfold startTool
  split
  · rw [events_push_tool]
    rfl
  · simp only
    split
    · rw [events_replace]
      rfl
    · exact events_push_tool scope base tool none

theorem events_end (scope : Scope) (base : RenderItemBase) (call : String) (ok : Bool)
    (output : Option Json) : (scope.endTool base call ok output).events = scope.events := by
  unfold endTool
  split
  · apply filter_map_modify
    intro item
    cases item <;> rfl
  · simp [events_push, ScopeItem.event?]

/-- An envelope adds the event it shows and keeps the others. -/
theorem events_step (scope : Scope) (env : SessionEnvelope) :
    (scope.step env).events = scope.events ++ (shownEvent? env).toList := by
  unfold step shownEvent?
  cases env.ev with
  | permRequest => simp [eventItem?, events_request]
  | permResolve => simp [eventItem?, events_resolve]
  | toolStart => simp [eventItem?, events_start]
  | toolEnd => simp [eventItem?, events_end]
  | text | service | file | turnStart | turnEnd | modeSwitch | permissionMode | subStart | subStop
  | usage | plan => simp [eventItem?, events_push, ScopeItem.event?]

theorem events_run (scope : Scope) (envs : List SessionEnvelope) :
    (envs.foldl step scope).events = scope.events ++ envs.filterMap shownEvent? := by
  induction envs generalizing scope with
  | nil => simp
  | cons env rest inductionHypothesis =>
    rw [List.foldl_cons, inductionHypothesis, events_step]
    cases shown : shownEvent? env <;> simp [shown]

end Scope

/-- A reduced scope shows the events of its envelopes, in their order. -/
theorem reduce_scope_events (envs : List SessionEnvelope) :
    (reduceScope envs).filterMap RenderItem.event? = envs.filterMap shownEvent? := by
  have events := Scope.events_run Scope.empty envs
  simp only [Scope.events, Scope.empty, List.filterMap_nil, List.nil_append] at events
  simp only [reduceScope, List.filterMap_map]
  rw [← events]
  congr 1
  funext item
  exact ScopeItem.event_shown _ item

/-- Attaching a subagent keeps the event of an item. -/
theorem attach_to_item_event {call : String} {children : List RenderItem} {item attached : RenderItem}
    (found : attachToItem call children item = some attached) : attached.event? = none ∧ item.event? = none := by
  cases item with
  | tool base started permission subagent =>
    cases subagent with
    | none =>
      simp only [attachToItem, Option.ite_none_right_eq_some, Option.some.injEq] at found
      obtain ⟨_, rfl⟩ := found
      exact ⟨rfl, rfl⟩
    | some items =>
      simp only [attachToItem] at found
      split at found
      · cases found
        exact ⟨rfl, rfl⟩
      · obtain ⟨items, _, rfl⟩ := Option.map_eq_some_iff.mp found
        exact ⟨rfl, rfl⟩
  | subagentGroup base subagentId items =>
    simp only [attachToItem] at found
    obtain ⟨items, _, rfl⟩ := Option.map_eq_some_iff.mp found
    exact ⟨rfl, rfl⟩
  | event | permPlaceholder | orphanToolEnd => exact absurd found (by simp [attachToItem])

/-- Attaching a subagent keeps the events. -/
theorem attach_events {call : String} {children items attached : List RenderItem}
    (found : attachToItems call children items = some attached) :
    attached.filterMap RenderItem.event? = items.filterMap RenderItem.event? := by
  induction items generalizing attached with
  | nil => exact absurd found (by simp [attachToItems])
  | cons item rest inductionHypothesis =>
    simp only [attachToItems] at found
    split at found
    · rename_i changed heldHere
      cases found
      obtain ⟨after, before⟩ := attach_to_item_event heldHere
      simp only [List.filterMap_cons, after, before]
    · obtain ⟨others, foundLater, rfl⟩ := Option.map_eq_some_iff.mp found
      simp only [List.filterMap_cons, inductionHypothesis foundLater]

/-- Linking a subagent keeps the events of the root and puts none beside it. -/
theorem link_events (linked : Linked) (subagentId : String) (envs : List SessionEnvelope) :
    (linked.link subagentId envs).rootItems.filterMap RenderItem.event? =
        linked.rootItems.filterMap RenderItem.event? ∧
      (linked.link subagentId envs).standalone.filterMap RenderItem.event? =
        linked.standalone.filterMap RenderItem.event? := by
  cases envs with
  | nil => exact ⟨rfl, rfl⟩
  | cons first rest =>
    simp only [Linked.link]
    split
    · rename_i found
      exact ⟨attach_events found, rfl⟩
    · split
      · rename_i found
        exact ⟨rfl, attach_events found⟩
      · simp [RenderItem.event?]

/-- The events of a transcript are those of its root items, in order of time. -/
theorem link_scopes_events (rootItems : List RenderItem)
    (scopes : OrderedMap String (List SessionEnvelope))
    (sorted : (rootItems.filterMap RenderItem.event?).Pairwise
      (fun first second => first.1.time.toRat ≤ second.1.time.toRat)) :
    (linkSubagentScopes rootItems scopes).filterMap RenderItem.event? =
      rootItems.filterMap RenderItem.event? := by
  have linked (entries : List (String × List SessionEnvelope)) (start : Linked) :
      let final := entries.foldl (fun linked entry => linked.link entry.1 entry.2) start
      final.rootItems.filterMap RenderItem.event? = start.rootItems.filterMap RenderItem.event? ∧
        final.standalone.filterMap RenderItem.event? =
          start.standalone.filterMap RenderItem.event? := by
    induction entries generalizing start with
    | nil => exact ⟨rfl, rfl⟩
    | cons entry rest inductionHypothesis =>
      obtain ⟨root, beside⟩ := inductionHypothesis (start.link entry.1 entry.2)
      obtain ⟨rootStep, besideStep⟩ := link_events start entry.1 entry.2
      exact ⟨root.trans rootStep, beside.trans besideStep⟩
  obtain ⟨root, beside⟩ := linked scopes.entries ⟨rootItems, []⟩
  simp only [linkSubagentScopes]
  split
  · exact root
  · rw [stableSortByTime, sort_indexed,
      filter_map_sort _ RenderItem.event? (fun shown => shown.1.time.toRat), List.filterMap_append,
      root, beside, List.filterMap_nil, List.append_nil]
    · exact sort_sorted _ sorted
    · intro item shown isShown
      cases item with
      | event base held =>
        obtain rfl : (base, held) = shown := by simpa [RenderItem.event?] using isShown
        rfl
      | permPlaceholder | tool | orphanToolEnd | subagentGroup =>
        exact absurd isShown (by simp [RenderItem.event?])

/-- The event an envelope of the root scope shows. -/
def rootEvent? (env : SessionEnvelope) : Option (RenderItemBase × EventItem) :=
  if env.subagent.isNone then shownEvent? env else none

/-- The base of a shown event is the envelope's. -/
theorem root_event_base {env : SessionEnvelope} {shown : RenderItemBase × EventItem}
    (isShown : rootEvent? env = some shown) : shown.1 = baseOf env := by
  unfold rootEvent? shownEvent? at isShown
  split at isShown
  · obtain ⟨item, _, rfl⟩ := Option.map_eq_some_iff.mp isShown
    rfl
  · contradiction

/-- The transcript of sorted envelopes shows their root events in their order. -/
theorem reduce_sorted_events {sorted : List SessionEnvelope}
    (ordered : sorted.Pairwise (fun first second => first.time.toRat ≤ second.time.toRat)) :
    (reduceSorted sorted).filterMap RenderItem.event? = sorted.filterMap rootEvent? := by
  have root : (reduceScope (sorted.filter (fun env => env.subagent.isNone))).filterMap
      RenderItem.event? = sorted.filterMap rootEvent? := by
    rw [reduce_scope_events, List.filterMap_filter]
    rfl
  unfold reduceSorted
  rw [link_scopes_events, root]
  rw [root]
  apply List.Pairwise.filterMap rootEvent? _ ordered
  intro first second before shown isShown other otherShown
  rw [root_event_base isShown, root_event_base otherShown]
  exact before

end Kvy.Web.Sync
