import Kvy.Web.Sync.Reducer.Reduce

/-!
# The bookkeeping of a scope

While a scope is reduced every permission has one place: it waits for the tool of a call, it is
held by a placeholder, or it is held by a tool. The calls point to their latest tools, and every
placeholder that is still shown waits for a tool with its name and arguments.
-/

namespace Kvy.Web.Sync

open General Wire

/-- The cell of the permission that an item holds. -/
def ScopeItem.permission? : ScopeItem → Option Nat
  | .permPlaceholder _ _ _ permission => some permission
  | .tool _ _ permission => permission
  | _ => none

namespace Scope

/-- The cell of the permission that is held at a position. -/
def held (scope : Scope) (position : Nat) : Option Nat :=
  scope.items[position]?.bind ScopeItem.permission?

/-- What holds of a scope between two envelopes. -/
structure Sound (scope : Scope) : Prop where
  tools : ∀ call position, scope.toolByCall.get? call = some position →
    ∃ base tool permission, scope.items[position]? = some (.tool base tool permission) ∧ tool.call = call
  issued : ∀ position cell, scope.held position = some cell → cell < scope.permissions.length
  once : ∀ first second cell, scope.held first = some cell → scope.held second = some cell →
    first = second
  waiting : ∀ call cell, scope.pendingPermByCall.get? call = some cell →
    cell < scope.permissions.length ∧ scope.toolByCall.get? call = none ∧
      ∀ position, scope.held position ≠ some cell
  waitingOnce : ∀ first second cell, scope.pendingPermByCall.get? first = some cell →
    scope.pendingPermByCall.get? second = some cell → first = second
  listed : ∀ pending, pending ∈ scope.pendingPlaceholders ↔
    ∃ base name args, scope.items[pending.position]? =
      some (.permPlaceholder base name args pending.permission) ∧
      pending.argsKey = canonicalArgsKey name args
  listedOnce : scope.pendingPlaceholders.Nodup

theorem Sound.start : empty.Sound where
  tools := by simp [empty]
  issued := by simp [empty, held]
  once := by simp [empty, held]
  waiting := by simp [empty]
  waitingOnce := by simp [empty]
  listed := by simp [empty]
  listedOnce := List.nodup_nil

theorem items_push (scope : Scope) (item : ScopeItem) (position : Nat) :
    (scope.push item).items[position]? =
      if position = scope.items.length then some item else scope.items[position]? := by
  grind [push]

theorem held_push (scope : Scope) (item : ScopeItem) (position : Nat) :
    (scope.push item).held position =
      if position = scope.items.length then item.permission? else scope.held position := by
  rw [held, items_push]
  split <;> rfl

variable {scope : Scope}

/-- Nothing stands behind the last item. -/
theorem Sound.beyond (sound : scope.Sound) :
    scope.held scope.items.length = none ∧
      (∀ call, scope.toolByCall.get? call ≠ some scope.items.length) ∧
      ∀ pending ∈ scope.pendingPlaceholders, pending.position ≠ scope.items.length := by
  have tools := sound.tools
  have listed := sound.listed
  refine ⟨by simp [held], ?_, ?_⟩
  · intro call found
    obtain ⟨_, _, _, shown, _⟩ := tools call _ found
    simp at shown
  · intro pending member same
    obtain ⟨_, _, _, shown, _⟩ := (listed pending).mp member
    simp [same] at shown

/-- An item that holds no permission is added. -/
theorem Sound.push (sound : scope.Sound) {item : ScopeItem}
    (plain : item.permission? = none) : (scope.push item).Sound where
  tools := by
    have := sound.tools
    grind [Scope.push]
  issued := by
    have := sound.issued
    grind [held_push, Scope.push]
  once := by
    have := sound.once
    grind [held_push]
  waiting := by
    have := sound.waiting
    grind [held_push, Scope.push]
  waitingOnce := sound.waitingOnce
  listed := by
    have := sound.listed
    have := sound.beyond
    grind [Scope.push, ScopeItem.permission?, items_push]
  listedOnce := sound.listedOnce

/-- A tool is added, with a permission that is held nowhere and waits for no call. -/
theorem Sound.pushTool (sound : scope.Sound) (base : RenderItemBase) (tool : ToolCall)
    (permission : Option Nat) (named : scope.pendingPermByCall.get? tool.call = none)
    (free : ∀ cell, permission = some cell → cell < scope.permissions.length ∧
      (∀ position, scope.held position ≠ some cell) ∧
      ∀ call, scope.pendingPermByCall.get? call ≠ some cell) :
    (scope.pushTool base tool permission).Sound where
  tools := by
    have := sound.tools
    grind [Scope.pushTool, Scope.push, OrderedMap.get_set]
  issued := by
    have := sound.issued
    have := held_push scope (.tool base tool permission)
    simp only [held, Scope.pushTool] at *
    grind [ScopeItem.permission?, Scope.push]
  once := by
    have := sound.once
    have := held_push scope (.tool base tool permission)
    simp only [held, Scope.pushTool] at *
    grind [ScopeItem.permission?]
  waiting := by
    have := sound.waiting
    have := held_push scope (.tool base tool permission)
    simp only [held, Scope.pushTool] at *
    grind [ScopeItem.permission?, Scope.push, OrderedMap.get_set]
  waitingOnce := sound.waitingOnce
  listed := by
    have := sound.listed
    have := sound.beyond
    have := items_push scope (.tool base tool permission)
    simp only [Scope.pushTool, Scope.push] at *
    grind
  listedOnce := sound.listedOnce

/-- A permission stops waiting for its call. -/
theorem Sound.unwait (sound : scope.Sound) (call : String) :
    { scope with pendingPermByCall := scope.pendingPermByCall.delete call }.Sound where
  tools := sound.tools
  issued := sound.issued
  once := sound.once
  waiting := by
    have := sound.waiting
    simp only [held] at *
    grind [OrderedMap.get_delete]
  waitingOnce := by
    have := sound.waitingOnce
    grind [OrderedMap.get_delete]
  listed := sound.listed
  listedOnce := sound.listedOnce

/-- A new permission that is held nowhere yet. -/
theorem Sound.issue (sound : scope.Sound) (info : PermissionInfo) :
    { scope with
      permissions := scope.permissions ++ [info]
      permInfoByReqId := scope.permInfoByReqId.set info.reqId scope.permissions.length }.Sound where
  tools := sound.tools
  issued := by
    have := sound.issued
    simp only [held] at *
    grind
  once := sound.once
  waiting := by
    have := sound.waiting
    simp only [held] at *
    grind
  waitingOnce := sound.waitingOnce
  listed := sound.listed
  listedOnce := sound.listedOnce

/-- A permission that is held nowhere waits for a call whose tool has not started. -/
theorem Sound.wait (sound : scope.Sound) {call : String} {cell : Nat}
    (issued : cell < scope.permissions.length) (free : ∀ position, scope.held position ≠ some cell)
    (unnamed : ∀ call, scope.pendingPermByCall.get? call ≠ some cell)
    (unstarted : scope.toolByCall.get? call = none) :
    { scope with pendingPermByCall := scope.pendingPermByCall.set call cell }.Sound where
  tools := sound.tools
  issued := sound.issued
  once := sound.once
  waiting := by
    have := sound.waiting
    simp only [held] at *
    grind [OrderedMap.get_set]
  waitingOnce := by
    have := sound.waitingOnce
    grind [OrderedMap.get_set]
  listed := sound.listed
  listedOnce := sound.listedOnce

theorem items_modify
    (scope : Scope) (target : Nat) (change : ScopeItem → ScopeItem) (position : Nat) :
    (scope.items.modify target change)[position]? =
      if position = target then (scope.items[position]?).map change else scope.items[position]? := by
  rw [List.getElem?_modify]
  by_cases same : target = position <;> simp [same, Ne.symm]

/-- A tool is given a permission that is held nowhere. -/
theorem Sound.give (sound : scope.Sound) {call : String} {position cell : Nat}
    (found : scope.toolByCall.get? call = some position)
    (issued : cell < scope.permissions.length) (free : ∀ position, scope.held position ≠ some cell)
    (unnamed : ∀ call, scope.pendingPermByCall.get? call ≠ some cell) :
    { scope with items := scope.items.modify position (ScopeItem.withPermission cell) }.Sound := by
  have here := sound.tools call position found
  have changed := items_modify scope position (ScopeItem.withPermission cell)
  constructor
  · have := sound.tools
    grind [ScopeItem.withPermission]
  · have := sound.issued
    simp only [held] at *
    grind [ScopeItem.withPermission, ScopeItem.permission?]
  · have := sound.once
    simp only [held] at *
    grind [ScopeItem.withPermission, ScopeItem.permission?]
  · have := sound.waiting
    simp only [held] at *
    grind [ScopeItem.withPermission, ScopeItem.permission?]
  · exact sound.waitingOnce
  · have := sound.listed
    grind [ScopeItem.withPermission]
  · exact sound.listedOnce

/-- The permissions change and stay as many. -/
theorem Sound.settle (sound : scope.Sound) {permissions : List PermissionInfo}
    (same : permissions.length = scope.permissions.length) :
    { scope with permissions := permissions }.Sound where
  tools := sound.tools
  issued := by
    rw [same]
    exact sound.issued
  once := sound.once
  waiting := by
    rw [same]
    exact sound.waiting
  waitingOnce := sound.waitingOnce
  listed := sound.listed
  listedOnce := sound.listedOnce

/-- A tool has ended. -/
theorem Sound.finish (sound : scope.Sound) {call : String} {position : Nat}
    (found : scope.toolByCall.get? call = some position) (ok : Bool) (output : Option Json) :
    { scope with items := scope.items.modify position (ScopeItem.ended ok output) }.Sound := by
  have here := sound.tools call position found
  have changed := items_modify scope position (ScopeItem.ended ok output)
  constructor
  · have := sound.tools
    grind [ScopeItem.ended]
  · have := sound.issued
    simp only [held] at *
    grind [ScopeItem.ended, ScopeItem.permission?]
  · have := sound.once
    simp only [held] at *
    grind [ScopeItem.ended, ScopeItem.permission?]
  · have := sound.waiting
    simp only [held] at *
    grind [ScopeItem.ended, ScopeItem.permission?]
  · exact sound.waitingOnce
  · have := sound.listed
    grind [ScopeItem.ended]
  · exact sound.listedOnce

/-- A placeholder with a permission that is held nowhere is added. -/
theorem Sound.place (sound : scope.Sound) (base : RenderItemBase) (name : String)
    (args : Option Json) {cell : Nat} (issued : cell < scope.permissions.length)
    (free : ∀ position, scope.held position ≠ some cell)
    (unnamed : ∀ call, scope.pendingPermByCall.get? call ≠ some cell) :
    { scope.push (.permPlaceholder base name args cell) with
      pendingPlaceholders := scope.pendingPlaceholders ++
        [(⟨scope.items.length, cell, canonicalArgsKey name args⟩ : PendingPlaceholder)] }.Sound := by
  have shown := items_push scope (.permPlaceholder base name args cell)
  have beyond := sound.beyond
  constructor
  · have := sound.tools
    grind [Scope.push]
  · have := sound.issued
    simp only [held] at *
    grind [ScopeItem.permission?, Scope.push]
  · have := sound.once
    simp only [held] at *
    grind [ScopeItem.permission?, Scope.push]
  · have := sound.waiting
    simp only [held] at *
    grind [ScopeItem.permission?, Scope.push]
  · exact sound.waitingOnce
  · have listed := sound.listed
    intro pending
    obtain ⟨position, permission, argsKey⟩ := pending
    grind [Scope.push]
  · have := sound.listedOnce
    grind [List.nodup_append]

/-- A tool takes the place and the permission of a placeholder. -/
theorem Sound.replace (sound : scope.Sound) (base : RenderItemBase) (tool : ToolCall)
    {pending : PendingPlaceholder} {before after : List PendingPlaceholder}
    (split : scope.pendingPlaceholders = before ++ pending :: after)
    (named : scope.pendingPermByCall.get? tool.call = none) :
    { scope with
      items := scope.items.set pending.position (.tool base tool (some pending.permission))
      toolByCall := scope.toolByCall.set tool.call pending.position
      pendingPlaceholders := before ++ after }.Sound := by
  obtain ⟨_, name, args, here, key⟩ := (sound.listed pending).mp (by simp [split])
  have listedOnce := sound.listedOnce
  rw [split] at listedOnce
  have changed (position : Nat) :
      (scope.items.set pending.position (.tool base tool (some pending.permission)))[position]? =
        if position = pending.position then some (.tool base tool (some pending.permission))
        else scope.items[position]? := by
    grind
  constructor
  · have := sound.tools
    grind [OrderedMap.get_set]
  · have := sound.issued
    simp only [held] at *
    grind [ScopeItem.permission?]
  · have := sound.once
    simp only [held] at *
    grind [ScopeItem.permission?]
  · have := sound.waiting
    simp only [held] at *
    grind [ScopeItem.permission?, OrderedMap.get_set]
  · exact sound.waitingOnce
  · have listed := sound.listed
    intro other
    have kept : other ∈ before ++ after ↔ other ≠ pending ∧ other ∈ scope.pendingPlaceholders := by
      rw [split]
      grind [List.nodup_append]
    have different : other ≠ pending → other.position = pending.position →
        other.permission = pending.permission → other.argsKey ≠ pending.argsKey := by
      cases other
      cases pending
      grind
    rw [kept, listed other]
    grind
  · exact (List.nodup_middle.mp listedOnce).of_cons

/-! ## What an envelope does to a scope -/

/-- A tool starts with the permission that waits for its call, with that of a placeholder, or with
none. -/
theorem start_cases (sound : scope.Sound) (base : RenderItemBase) (tool : ToolCall) :
    (∃ cell, scope.pendingPermByCall.get? tool.call = some cell ∧
      scope.startTool base tool =
        { scope with pendingPermByCall := scope.pendingPermByCall.delete tool.call }.pushTool base tool
          (some cell)) ∨
    (scope.pendingPermByCall.get? tool.call = none ∧
      ∃ before pending after, scope.pendingPlaceholders = before ++ pending :: after ∧
        pending.argsKey = canonicalArgsKey tool.name tool.args ∧
        (∀ other ∈ before, other.argsKey ≠ canonicalArgsKey tool.name tool.args) ∧
        scope.startTool base tool = { scope with
          items := scope.items.set pending.position (.tool base tool (some pending.permission))
          toolByCall := scope.toolByCall.set tool.call pending.position
          pendingPlaceholders := before ++ after }) ∨
    (scope.pendingPermByCall.get? tool.call = none ∧
      (∀ pending ∈ scope.pendingPlaceholders,
        pending.argsKey ≠ canonicalArgsKey tool.name tool.args) ∧
      scope.startTool base tool = scope.pushTool base tool none) := by
  unfold startTool
  cases named : scope.pendingPermByCall.get? tool.call with
  | some cell => exact Or.inl ⟨cell, rfl, rfl⟩
  | none =>
    right
    simp only
    cases matched : scope.pendingPlaceholders.find?
        (fun pending => pending.argsKey = canonicalArgsKey tool.name tool.args) with
    | none =>
      right
      refine ⟨trivial, ?_, rfl⟩
      intro pending member
      simpa using List.find?_eq_none.mp matched pending member
    | some pending =>
      left
      obtain ⟨key, before, after, split, others⟩ := List.find?_eq_some_iff_append.mp matched
      simp only [decide_eq_true_eq, Bool.not_eq_eq_eq_not, Bool.not_true, decide_eq_false_iff_not] at key others
      obtain ⟨_, name, args, here, _⟩ := (sound.listed pending).mp (by simp [split])
      have erased : scope.pendingPlaceholders.eraseP
          (fun pending => pending.argsKey = canonicalArgsKey tool.name tool.args) = before ++ after := by
        rw [split, List.eraseP_append_right _ (by simpa using others), List.eraseP_cons_of_pos (by simpa using key)]
      refine ⟨trivial, before, pending, after, split, key, others, ?_⟩
      simp only [replacePlaceholder, here, erased]

/-- An envelope keeps a scope as it should be. -/
theorem Sound.step (sound : scope.Sound) (env : SessionEnvelope) :
    (scope.step env).Sound := by
  have unheld (position : Nat) : scope.held position ≠ some scope.permissions.length := by
    intro found
    exact absurd (sound.issued _ _ found) (Nat.lt_irrefl _)
  have unnamed (call : String) :
      scope.pendingPermByCall.get? call ≠ some scope.permissions.length := by
    intro found
    exact absurd (sound.waiting _ _ found).1 (Nat.lt_irrefl _)
  unfold Scope.step
  cases env.ev with
  | permRequest reqId call name args modes answerable =>
    have issued := sound.issue ⟨reqId, modes, none, answerable⟩
    simp only [requestPermission]
    cases call with
    | none => exact issued.place (baseOf env) name args (by simp) unheld unnamed
    | some call =>
      simp only
      split
      · rename_i position found
        exact issued.give found (by simp) unheld unnamed
      · rename_i found
        exact issued.wait (by simp) unheld unnamed found
  | permResolve reqId decision =>
    simp only [resolvePermission]
    split
    · exact sound.settle (by simp)
    · exact sound
  | toolStart call name title args risk =>
    simp only
    rcases start_cases sound (baseOf env) ⟨call, name, title, args, risk, .running, none, none⟩ with
      ⟨cell, named, equal⟩ | ⟨named, before, pending, after, split, _, _, equal⟩ | ⟨named, _, equal⟩
    · rw [equal]
      have waiting := sound.waiting call cell named
      apply (sound.unwait call).pushTool
      · simp [OrderedMap.get_delete]
      · intro other same
        cases same
        refine ⟨waiting.1, waiting.2.2, ?_⟩
        intro second found
        have := sound.waitingOnce call second
        grind [OrderedMap.get_delete]
    · rw [equal]
      exact sound.replace (baseOf env) _ split named
    · rw [equal]
      exact sound.pushTool (baseOf env) _ none named (by simp)
  | toolEnd call ok output =>
    simp only [endTool]
    split
    · rename_i position found
      exact sound.finish found ok output
    · exact sound.push rfl
  | text | service | file | turnStart | turnEnd | modeSwitch | permissionMode | subStart | subStop
  | usage | plan => exact sound.push rfl

/-- A scope is as it should be after any envelopes. -/
theorem Sound.run (sound : scope.Sound) (envs : List SessionEnvelope) :
    (envs.foldl Scope.step scope).Sound := by
  induction envs generalizing scope with
  | nil => exact sound
  | cons env rest inductionHypothesis => exact inductionHypothesis (sound.step env)

end Scope

end Kvy.Web.Sync
