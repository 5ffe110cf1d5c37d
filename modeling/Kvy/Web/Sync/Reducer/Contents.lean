import Kvy.Web.Sync.Reducer.Scopes
import Mathlib.Data.List.Induction
import Mathlib.Data.List.Perm.Basic

/-!
# What a scope shows

Every envelope of a scope that is not about a permission shows as one item: an event as itself, a
tool start as a tool in the state of its last end, an end without a tool as an orphan. The order of
the items may differ, since a tool takes the place of a placeholder.
-/

namespace Kvy.Web.Sync

open General Wire

/-- The call that an envelope starts. -/
def startedCall? (env : SessionEnvelope) : Option String :=
  match env.ev with
  | .toolStart call .. => some call
  | _ => none

/-- A call is started by one of these envelopes. -/
def startedIn (envs : List SessionEnvelope) (call : String) : Bool :=
  envs.any (fun env => startedCall? env = some call)

/-- The last end of a call before it is started again. -/
def lastEnd? (call : String) : List SessionEnvelope → Option (Bool × Option Json)
  | [] => none
  | env :: rest =>
    match env.ev with
    | .toolStart started .. => if started = call then none else lastEnd? call rest
    | .toolEnd ended ok output =>
      if ended = call then some ((lastEnd? call rest).getD (ok, output)) else lastEnd? call rest
    | _ => lastEnd? call rest

/-- A tool that has ended. -/
def ToolCall.ended (tool : ToolCall) (ok : Bool) (output : Option Json) : ToolCall :=
  { tool with status := .done, ok := some ok, output := output }

/-- A tool as the envelopes that follow its start leave it. -/
def ToolCall.finished (tool : ToolCall) (later : List SessionEnvelope) : ToolCall :=
  (lastEnd? tool.call later).elim tool (fun (ok, output) => tool.ended ok output)

/-- The item of an envelope, without its permission. -/
def content? (before : List SessionEnvelope) (env : SessionEnvelope) (later : List SessionEnvelope) :
    Option RenderItem :=
  match env.ev with
  | .permRequest .. | .permResolve .. => none
  | .toolStart call name title args risk =>
    let tool : ToolCall := ⟨call, name, title, args, risk, .running, none, none⟩
    some (.tool (baseOf env) (tool.finished later) none none)
  | .toolEnd call ok output =>
    if startedIn before call then none else some (.orphanToolEnd (baseOf env) call ok output)
  | ev => (eventItem? ev).map (.event (baseOf env))

/-- The items of the envelopes of a scope, without their permissions. -/
def contents (before : List SessionEnvelope) : List SessionEnvelope → List RenderItem
  | [] => []
  | env :: rest => (content? before env rest).toList ++ contents (before ++ [env]) rest

/-- An item without its permission; placeholders and groups are left out. -/
def RenderItem.content? : RenderItem → Option RenderItem
  | .event base item => some (.event base item)
  | .tool base started _ _ => some (.tool base started none none)
  | .orphanToolEnd base call ok output => some (.orphanToolEnd base call ok output)
  | .permPlaceholder .. | .subagentGroup .. => none

/-- Selecting from a list goes through its positions. -/
theorem filter_map_positions {α β : Type} (select : α → Option β) (items : List α) :
    (List.range items.length).filterMap (fun position => items[position]?.bind select) =
      items.filterMap select := by
  induction items using List.reverseRecOn with
  | nil => rfl
  | append_singleton items item inductionHypothesis =>
    have earlier : (List.range items.length).filterMap
        (fun position => (items ++ [item])[position]?.bind select) =
        (List.range items.length).filterMap (fun position => items[position]?.bind select) := by
      apply List.filterMap_congr
      intro position member
      rw [List.getElem?_append_left (List.mem_range.mp member)]
    rw [List.length_append, List.length_singleton, List.range_succ, List.filterMap_append, earlier,
      inductionHypothesis, List.filterMap_append]
    simp [List.filterMap_cons]

namespace Scope

/-- What the item at a position shows when some envelopes are still to come. -/
def settled (scope : Scope) (later : List SessionEnvelope) (position : Nat) : Option RenderItem :=
  match scope.items[position]? with
  | some (.event base item) => some (.event base item)
  | some (.tool base tool _) =>
    some (.tool base
      (if scope.toolByCall.get? tool.call = some position then tool.finished later else tool) none none)
  | some (.orphanToolEnd base call ok output) => some (.orphanToolEnd base call ok output)
  | _ => none

/-- What a scope shows when some envelopes are still to come. -/
def settledItems (scope : Scope) (later : List SessionEnvelope) : List RenderItem :=
  (List.range scope.items.length).filterMap (scope.settled later)

/-- A scope that changes nothing that is shown. -/
theorem settled_items_congr {first second : Scope} {before after : List SessionEnvelope}
    (length : second.items.length = first.items.length)
    (same : ∀ position < first.items.length,
      second.settled after position = first.settled before position) :
    second.settledItems after = first.settledItems before := by
  rw [settledItems, settledItems, length]
  apply List.filterMap_congr
  intro position member
  exact same position (List.mem_range.mp member)

/-- A scope with one more item. -/
theorem settled_items_push (first second : Scope) (before after : List SessionEnvelope)
    (length : second.items.length = first.items.length + 1)
    (same : ∀ position < first.items.length,
      second.settled after position = first.settled before position) :
    second.settledItems after =
      first.settledItems before ++ (second.settled after first.items.length).toList := by
  have kept : (List.range first.items.length).filterMap (second.settled after) =
      (List.range first.items.length).filterMap (first.settled before) := by
    apply List.filterMap_congr
    intro position member
    exact same position (List.mem_range.mp member)
  rw [settledItems, length, List.range_succ, List.filterMap_append, kept, settledItems]
  cases shown : second.settled after first.items.length <;> simp [shown]

/-- One more place of a list is shown. -/
theorem filter_map_shown {α : Type} {before after : Nat → Option α} {positions : List Nat}
    (distinct : positions.Nodup) {position : Nat} (member : position ∈ positions) {item : α}
    (hidden : before position = none) (shown : after position = some item)
    (same : ∀ other ∈ positions, other ≠ position → after other = before other) :
    (positions.filterMap after).Perm (positions.filterMap before ++ [item]) := by
  obtain ⟨left, right, rfl⟩ := List.append_of_mem member
  have apart := List.nodup_middle.mp distinct
  rw [List.nodup_cons, List.mem_append, not_or] at apart
  have leftSame : left.filterMap after = left.filterMap before := by
    apply List.filterMap_congr
    intro other here
    exact same other (by simp [here]) (fun equal => apart.1.1 (equal ▸ here))
  have rightSame : right.filterMap after = right.filterMap before := by
    apply List.filterMap_congr
    intro other here
    exact same other (by simp [here]) (fun equal => apart.1.2 (equal ▸ here))
  simp only [List.filterMap_append, List.filterMap_cons, hidden, shown, leftSame, rightSame]
  exact List.perm_middle.trans (List.perm_append_singleton _ _).symm

/-- A tool that starts at the end of a scope. -/
theorem settled_push_tool (scope : Scope) (env : SessionEnvelope) (tool : ToolCall)
    (permission : Option Nat) (starts : startedCall? env = some tool.call)
    (rest : List SessionEnvelope) :
    (scope.pushTool (baseOf env) tool permission).settledItems rest =
      scope.settledItems (env :: rest) ++ [.tool (baseOf env) (tool.finished rest) none none] := by
  have ends (call : String) : lastEnd? call (env :: rest) =
      if tool.call = call then none else lastEnd? call rest := by
    unfold startedCall? at starts
    grind [lastEnd?]
  rw [settled_items_push scope _ (env :: rest) rest]
  · congr 1
    simp [settled, Scope.pushTool, Scope.push]
  · simp [Scope.pushTool, Scope.push]
  · intro position inside
    have apart : scope.items.length ≠ position := Nat.ne_of_gt inside
    simp only [settled, Scope.pushTool, items_push]
    grind [ToolCall.finished, OrderedMap.get_set]

/-- An item that is no tool is added by an envelope that neither starts nor ends one. -/
theorem settled_push (scope : Scope) (env : SessionEnvelope) (item : ScopeItem)
    (rest : List SessionEnvelope) (other : ∀ call, lastEnd? call (env :: rest) = lastEnd? call rest) :
    (scope.push item).settledItems rest = scope.settledItems (env :: rest) ++
      ((scope.push item).settled rest scope.items.length).toList := by
  rw [settled_items_push scope _ (env :: rest) rest]
  · simp [Scope.push]
  · intro position inside
    simp only [settled, items_push, Nat.ne_of_lt inside, ↓reduceIte, ToolCall.finished, other]
    rfl

/-- A permission request shows nothing of its own. -/
theorem settled_request {scope : Scope} (sound : scope.Sound) (env : SessionEnvelope)
    {rest : List SessionEnvelope} (other : ∀ call, lastEnd? call (env :: rest) = lastEnd? call rest)
    (base : RenderItemBase) (info : PermissionInfo) (call : Option String) (name : String)
    (args : Option Json) :
    (scope.requestPermission base info call name args).settledItems rest =
      scope.settledItems (env :: rest) := by
  unfold requestPermission
  cases call with
  | none =>
    have pushed := settled_push scope env (.permPlaceholder base name args scope.permissions.length) rest other
    have hidden : (scope.push (.permPlaceholder base name args scope.permissions.length)).settled rest
        scope.items.length = none := by
      simp [settled, Scope.push]
    rw [hidden, Option.toList_none, List.append_nil] at pushed
    rw [← pushed]
    rfl
  | some call =>
    simp only
    split
    · rename_i target found
      obtain ⟨_, _, _, here, _⟩ := sound.tools call target found
      apply settled_items_congr
      · simp
      · intro position _
        simp only [settled, ToolCall.finished, other, items_modify]
        grind [ScopeItem.withPermission]
    · apply settled_items_congr rfl
      intro position _
      simp only [settled, ToolCall.finished, other]

/-- The end of a tool shows in its item, or as an orphan. -/
theorem settled_end {scope : Scope} (sound : scope.Sound) (env : SessionEnvelope) {call : String}
    {ok : Bool} {output : Option Json} (ends : env.ev = .toolEnd call ok output)
    (rest : List SessionEnvelope) :
    (scope.endTool (baseOf env) call ok output).settledItems rest = scope.settledItems (env :: rest) ++
      if (scope.toolByCall.get? call).isSome then [] else [.orphanToolEnd (baseOf env) call ok output] := by
  have last (tested : String) : lastEnd? tested (env :: rest) =
      if call = tested then some ((lastEnd? tested rest).getD (ok, output)) else lastEnd? tested rest := by
    simp [lastEnd?, ends]
  unfold endTool
  cases found : scope.toolByCall.get? call with
  | some target =>
    obtain ⟨base, tool, permission, here, rfl⟩ := sound.tools call target found
    simp only [Option.isSome_some, ↓reduceIte, List.append_nil]
    apply settled_items_congr
    · simp
    · intro position _
      simp only [settled, ToolCall.finished, last, items_modify]
      by_cases same : position = target
      · subst same
        simp only [here, ↓reduceIte, Option.map_some, ScopeItem.ended, found]
        cases lastEnd? tool.call rest <;> rfl
      · grind
  | none =>
    simp only [Option.isSome_none, Bool.false_eq_true, ↓reduceIte]
    rw [settled_items_push scope _ (env :: rest) rest]
    · congr 1
      simp [settled, Scope.push]
    · simp [Scope.push]
    · intro position inside
      simp only [settled, items_push, Nat.ne_of_lt inside, ↓reduceIte, ToolCall.finished, last]
      grind [Scope.push]

/-- The start of a tool shows as a tool, wherever it is put. -/
theorem settled_start {scope : Scope} (sound : scope.Sound) (env : SessionEnvelope) (tool : ToolCall)
    (starts : startedCall? env = some tool.call) (rest : List SessionEnvelope) :
    ((scope.startTool (baseOf env) tool).settledItems rest).Perm
      (scope.settledItems (env :: rest) ++ [.tool (baseOf env) (tool.finished rest) none none]) := by
  have ends (call : String) : lastEnd? call (env :: rest) =
      if tool.call = call then none else lastEnd? call rest := by
    unfold startedCall? at starts
    grind [lastEnd?]
  rcases start_cases sound (baseOf env) tool with
    ⟨cell, _, equal⟩ | ⟨_, before, pending, after, split, _, _, equal⟩ | ⟨_, _, equal⟩
  · rw [equal, settled_push_tool _ env tool _ starts]
    rfl
  · rw [equal]
    obtain ⟨_, name, args, here, _⟩ := (sound.listed pending).mp (by simp [split])
    have inside : pending.position < scope.items.length := (List.getElem?_eq_some_iff.mp here).1
    simp only [settledItems, List.length_set]
    apply filter_map_shown List.nodup_range (List.mem_range.mpr inside)
    · simp [settled, here]
    · simp [settled, inside]
    · intro other _ apart
      simp only [settled, OrderedMap.get_set, ToolCall.finished, ends]
      grind
  · rw [equal, settled_push_tool _ env tool _ starts]

/-- An envelope adds the item that it shows. -/
theorem settled_step {scope : Scope} (sound : scope.Sound) {before : List SessionEnvelope}
    (started : ∀ call, (scope.toolByCall.get? call).isSome = startedIn before call)
    (env : SessionEnvelope) (rest : List SessionEnvelope) :
    ((scope.step env).settledItems rest).Perm
      (scope.settledItems (env :: rest) ++ (content? before env rest).toList) := by
  unfold step content?
  cases kind : env.ev with
  | permRequest reqId call name args modes answerable =>
    rw [settled_request sound env (by simp [lastEnd?, kind])]
    simp
  | permResolve reqId decision =>
    have same : (scope.resolvePermission reqId decision).settledItems rest =
        scope.settledItems (env :: rest) := by
      unfold resolvePermission
      split
      all_goals
        apply settled_items_congr rfl
        intro position _
        simp [settled, ToolCall.finished, lastEnd?, kind]
    simp [same]
  | toolStart call name title args risk =>
    exact settled_start sound env _ (by simp [startedCall?, kind]) rest
  | toolEnd call ok output =>
    rw [settled_end sound env kind rest, started]
    simp only
    split <;> simp
  | text | service | file | turnStart | turnEnd | modeSwitch | permissionMode | subStart | subStop
  | usage | plan =>
    simp only [eventItem?, Option.elim_some, Option.map_some, Option.toList_some]
    rw [settled_push _ env _ _ (by simp [lastEnd?, kind])]
    simp [settled, Scope.push]

/-- An envelope gives a tool to the call that it starts. -/
theorem started_step {scope : Scope} (sound : scope.Sound) (env : SessionEnvelope) (call : String) :
    ((scope.step env).toolByCall.get? call).isSome =
      ((scope.toolByCall.get? call).isSome || decide (startedCall? env = some call)) := by
  unfold step startedCall?
  cases env.ev with
  | toolStart started name title args risk =>
    rcases start_cases sound (baseOf env) ⟨started, name, title, args, risk, .running, none, none⟩ with
      ⟨_, _, equal⟩ | ⟨_, _, _, _, _, _, _, equal⟩ | ⟨_, _, equal⟩
    all_goals
      simp only [equal, pushTool, Scope.push, OrderedMap.get_set]
      grind
  | permRequest _ call =>
    cases call with
    | none => simp [requestPermission, Scope.push]
    | some call =>
      simp only [requestPermission]
      split <;> simp
  | permResolve =>
    simp only [resolvePermission]
    split <;> simp
  | toolEnd =>
    simp only [endTool]
    split <;> simp [Scope.push]
  | text | service | file | turnStart | turnEnd | modeSwitch | permissionMode | subStart | subStop
  | usage | plan => simp [Scope.push, eventItem?]

/-- A call has a tool exactly when an envelope started it. -/
theorem started_run (envs : List SessionEnvelope) (call : String) :
    ((envs.foldl step empty).toolByCall.get? call).isSome = startedIn envs call := by
  induction envs using List.reverseRecOn with
  | nil => rfl
  | append_singleton envs env inductionHypothesis =>
    rw [List.foldl_concat, started_step (Sound.start.run envs), inductionHypothesis]
    simp [startedIn]

/-- The envelopes that follow add the items that they show. -/
theorem settled_run (before rest : List SessionEnvelope) :
    ((rest.foldl step (before.foldl step empty)).settledItems []).Perm
      ((before.foldl step empty).settledItems rest ++ contents before rest) := by
  induction rest generalizing before with
  | nil => simp [contents]
  | cons env rest inductionHypothesis =>
    have stepped := settled_step (Sound.start.run before) (started_run before) env rest
    have later := inductionHypothesis (before ++ [env])
    rw [List.foldl_concat] at later
    rw [contents, ← List.append_assoc]
    exact later.trans (stepped.append_right _)

end Scope

/-- A reduced scope shows one item for each of its envelopes that is not about a permission, but
for the ends of its tools. -/
theorem reduce_scope_contents (envs : List SessionEnvelope) :
    ((reduceScope envs).filterMap RenderItem.content?).Perm (contents [] envs) := by
  have run := Scope.settled_run [] envs
  have shown : (reduceScope envs).filterMap RenderItem.content? =
      (envs.foldl Scope.step Scope.empty).settledItems [] := by
    simp only [reduceScope, List.filterMap_map]
    generalize envs.foldl Scope.step Scope.empty = scope
    rw [← filter_map_positions, Scope.settledItems]
    apply List.filterMap_congr
    intro position _
    simp only [Scope.settled, ToolCall.finished, lastEnd?, Option.elim_none, ite_self]
    cases scope.items[position]? with
    | none => rfl
    | some item => cases item <;> rfl
  rw [shown]
  simpa [Scope.settledItems, Scope.empty] using run

end Kvy.Web.Sync
