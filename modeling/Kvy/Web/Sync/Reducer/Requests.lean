import Kvy.Web.Sync.Reducer.Contents

/-!
# The place of a request

From the envelope that asks on, a permission waits for the tool of a call, waits in a placeholder,
is held by the latest tool of a call or by an earlier one, or is gone. A request that names a call
displaces the permission that waits for the call or is held by its latest tool.
-/

namespace Kvy.Web.Sync

open General Wire

/-- The call that a request names. -/
def askedCall? (env : SessionEnvelope) : Option String :=
  match env.ev with
  | .permRequest _ call .. => call
  | _ => none

/-- The key of a request that names no call. -/
def askedKey? (env : SessionEnvelope) : Option (List Char) :=
  match env.ev with
  | .permRequest _ none name args .. => some (canonicalArgsKey name args)
  | _ => none

/-- A permission waits for a call: a request named it and no tool of it was started. -/
def awaited (before : List SessionEnvelope) (call : String) : Bool :=
  before.any (fun env => askedCall? env = some call) && !startedIn before call

/-- The call of a tool start that takes a placeholder with this key, if one waits. -/
def claim? (key : List Char) (before : List SessionEnvelope) (env : SessionEnvelope) : Option String :=
  match env.ev with
  | .toolStart call name _ args _ =>
    if canonicalArgsKey name args = key ∧ awaited before call = false then some call else none
  | _ => none

/-- Where a permission is. -/
inductive Place where
  | waiting (call : String)
  | queued (key : List Char) (ahead : Nat)
  | latest (call : String)
  | kept
  | gone

/-- Where a permission goes with one more envelope. -/
def Place.next (before : List SessionEnvelope) (env : SessionEnvelope) : Place → Place
  | .waiting call =>
    if askedCall? env = some call then .gone
    else if startedCall? env = some call then .latest call
    else .waiting call
  | .queued key ahead =>
    match claim? key before env, ahead with
    | none, ahead => .queued key ahead
    | some call, 0 => .latest call
    | some _, ahead + 1 => .queued key ahead
  | .latest call =>
    if askedCall? env = some call then .gone
    else if startedCall? env = some call then .kept
    else .latest call
  | .kept => .kept
  | .gone => .gone

namespace Scope

/-- A permission is at a place. -/
def At (scope : Scope) (cell : Nat) : Place → Prop
  | .waiting call => scope.pendingPermByCall.get? call = some cell
  | .queued key ahead => ∃ before pending after,
    scope.pendingPlaceholders.filter (fun pending => pending.argsKey = key) = before ++ pending :: after ∧
      before.length = ahead ∧ pending.permission = cell
  | .latest call => ∃ position base tool, scope.toolByCall.get? call = some position ∧
    scope.items[position]? = some (.tool base tool (some cell))
  | .kept => ∃ position base tool, scope.items[position]? = some (.tool base tool (some cell)) ∧
    scope.toolByCall.get? tool.call ≠ some position
  | .gone => cell < scope.permissions.length ∧ (∀ position, scope.held position ≠ some cell) ∧
    ∀ call, scope.pendingPermByCall.get? call ≠ some cell

/-- A scope has read these envelopes. -/
structure Reads (scope : Scope) (before : List SessionEnvelope) : Prop where
  started : ∀ call, (scope.toolByCall.get? call).isSome = startedIn before call
  awaited : ∀ call, (scope.pendingPermByCall.get? call).isSome = awaited before call

variable {before : List SessionEnvelope} {env : SessionEnvelope}

/-- An envelope that starts no tool and names no call. -/
theorem next_other (place : Place)
    (asks : askedCall? env = none) (starts : startedCall? env = none) : place.next before env = place := by
  have noClaim (key : List Char) : claim? key before env = none := by
    unfold startedCall? at starts
    unfold claim?
    grind
  cases place <;> simp [Place.next, asks, starts, noClaim]

/-- Only a tool start claims a placeholder. -/
theorem claim_asked {call : String} (asks : askedCall? env = some call)
    (key : List Char) (before : List SessionEnvelope) :
    claim? key before env = none ∧ startedCall? env = none := by
  unfold askedCall? at asks
  unfold claim? startedCall?
  grind

variable {cell : Nat} {scope : Scope}

/-- A request names a call whose tool has started. -/
theorem at_give (sound : scope.Sound) {call : String} {position : Nat}
    (found : scope.toolByCall.get? call = some position) (info : PermissionInfo)
    (asks : askedCall? env = some call)
    (place : Place) (here : scope.At cell place) :
    Scope.At { scope with
      permissions := scope.permissions ++ [info]
      permInfoByReqId := scope.permInfoByReqId.set info.reqId scope.permissions.length
      items := scope.items.modify position (ScopeItem.withPermission scope.permissions.length) }
      cell (place.next before env) := by
  have changed := items_modify scope position (ScopeItem.withPermission scope.permissions.length)
  have tools := sound.tools
  have waiting := sound.waiting
  have issued := sound.issued
  have once := sound.once
  have noClaim := fun key => (claim_asked asks key before).1
  have quiet := (claim_asked asks [] before).2
  cases place with
  | waiting other =>
    simp only [At, Place.next] at *
    grind
  | queued key ahead =>
    simp only [At, Place.next, noClaim] at *
    exact here
  | latest other | kept | gone =>
    simp only [At, Place.next, asks, held] at *
    grind [ScopeItem.withPermission, ScopeItem.permission?, At]

/-- A request names a call whose tool has not started. -/
theorem at_wait (sound : scope.Sound) {call : String}
    (unstarted : scope.toolByCall.get? call = none) (info : PermissionInfo)
    (asks : askedCall? env = some call)
    (place : Place) (here : scope.At cell place) :
    Scope.At { scope with
      permissions := scope.permissions ++ [info]
      permInfoByReqId := scope.permInfoByReqId.set info.reqId scope.permissions.length
      pendingPermByCall := scope.pendingPermByCall.set call scope.permissions.length }
      cell (place.next before env) := by
  have waiting := sound.waiting
  have waitingOnce := sound.waitingOnce
  have noClaim := fun key => (claim_asked asks key before).1
  have quiet := (claim_asked asks [] before).2
  cases place with
  | queued key ahead =>
    simp only [At, Place.next, noClaim] at *
    exact here
  | waiting other | latest other | kept | gone =>
    simp only [At, Place.next, asks, held] at *
    grind [At, held, OrderedMap.get_set]

/-- A request names no call. -/
theorem at_place (sound : scope.Sound) (info : PermissionInfo)
    (base : RenderItemBase) (name : String) (args : Option Json) (place : Place)
    (here : scope.At cell place) :
    Scope.At { scope with
      permissions := scope.permissions ++ [info]
      permInfoByReqId := scope.permInfoByReqId.set info.reqId scope.permissions.length
      items := scope.items ++ [.permPlaceholder base name args scope.permissions.length]
      pendingPlaceholders := scope.pendingPlaceholders ++
        [(⟨scope.items.length, scope.permissions.length, canonicalArgsKey name args⟩ : PendingPlaceholder)] }
      cell place := by
  have beyond := sound.beyond
  cases place with
  | waiting other => exact here
  | queued key ahead =>
    obtain ⟨before, pending, after, split, length, same⟩ := here
    simp only [At, List.filter_append, split]
    exact ⟨before, pending, _, List.append_assoc _ _ _, length, same⟩
  | latest other | kept | gone =>
    simp only [At, held] at *
    grind [ScopeItem.permission?]

/-- An item that holds no permission is added. -/
theorem at_push (item : ScopeItem) (plain : item.permission? = none)
    (place : Place) (here : scope.At cell place) : (scope.push item).At cell place := by
  cases place with
  | waiting other => exact here
  | queued key ahead => exact here
  | latest other | kept | gone =>
    simp only [At, held, Scope.push] at *
    grind [ScopeItem.permission?]

/-- A tool ends. -/
theorem at_finish (position : Nat) (ok : Bool) (output : Option Json)
    (place : Place) (here : scope.At cell place) :
    Scope.At { scope with items := scope.items.modify position (ScopeItem.ended ok output) } cell place := by
  have changed := items_modify scope position (ScopeItem.ended ok output)
  have sameHeld (other : Nat) : (scope.items.modify position (ScopeItem.ended ok output))[other]?.bind
      ScopeItem.permission? = scope.items[other]?.bind ScopeItem.permission? := by
    rw [changed]
    split
    · cases scope.items[other]? with
      | none => rfl
      | some item => cases item <;> rfl
    · rfl
  cases place with
  | waiting other => exact here
  | queued key ahead => exact here
  | gone => simpa only [At, held, sameHeld] using here
  | latest other | kept =>
    simp only [At] at *
    grind [ScopeItem.ended]

/-- A tool starts with the permission that waits for its call. -/
theorem at_start_awaited (sound : scope.Sound) {held : Nat} (base : RenderItemBase)
    (tool : ToolCall) (awaits : scope.pendingPermByCall.get? tool.call = some held)
    (starts : startedCall? env = some tool.call)
    (noClaim : ∀ key, claim? key before env = none) (place : Place) (here : scope.At cell place) :
    Scope.At ({ scope with pendingPermByCall := scope.pendingPermByCall.delete tool.call }.pushTool base
      tool (some held)) cell (place.next before env) := by
  have quiet : askedCall? env = none := by
    unfold startedCall? at starts
    unfold askedCall?
    grind
  have waiting := sound.waiting
  have waitingOnce := sound.waitingOnce
  have beyond := sound.beyond
  cases place with
  | queued key ahead =>
    simp only [At, Place.next, noClaim] at *
    exact here
  | waiting other | latest other | kept | gone =>
    simp only [At, Place.next, starts, quiet, Scope.held, pushTool, Scope.push] at *
    grind [At, Scope.held, OrderedMap.get_set, OrderedMap.get_delete, ScopeItem.permission?]

/-- A tool starts with no permission. -/
theorem at_start_plain (sound : scope.Sound) (base : RenderItemBase)
    (tool : ToolCall) (named : scope.pendingPermByCall.get? tool.call = none)
    (starts : startedCall? env = some tool.call)
    (unclaimed : ∀ key, (claim? key before env).isSome →
      ∀ pending ∈ scope.pendingPlaceholders, pending.argsKey ≠ key)
    (place : Place) (here : scope.At cell place) :
    (scope.pushTool base tool none).At cell (place.next before env) := by
  have quiet : askedCall? env = none := by
    unfold startedCall? at starts
    unfold askedCall?
    grind
  have beyond := sound.beyond
  have tools := sound.tools
  cases place with
  | queued key ahead =>
    have noClaim : claim? key before env = none := by
      obtain ⟨earlier, pending, later, split, _, _⟩ := here
      have member : pending ∈ scope.pendingPlaceholders.filter (fun pending => pending.argsKey = key) := by
        simp [split]
      rw [List.mem_filter, decide_eq_true_eq] at member
      by_contra claimed
      exact unclaimed key (Option.isSome_iff_ne_none.mpr claimed) pending member.1 member.2
    simp only [At, Place.next, noClaim] at *
    exact here
  | waiting other | latest other | kept | gone =>
    simp only [At, Place.next, starts, quiet, Scope.held, pushTool, Scope.push] at *
    grind [At, Scope.held, OrderedMap.get_set, ScopeItem.permission?]

/-- A tool starts with the permission of a placeholder. -/
theorem at_start_placed (sound : scope.Sound) (base : RenderItemBase)
    (tool : ToolCall) (named : scope.pendingPermByCall.get? tool.call = none)
    {pending : PendingPlaceholder} {earlier later : List PendingPlaceholder}
    (split : scope.pendingPlaceholders = earlier ++ pending :: later)
    (first : ∀ other ∈ earlier, other.argsKey ≠ pending.argsKey)
    (starts : startedCall? env = some tool.call)
    (claims : ∀ key, claim? key before env = if pending.argsKey = key then some tool.call else none)
    (place : Place) (here : scope.At cell place) :
    Scope.At { scope with
      items := scope.items.set pending.position (.tool base tool (some pending.permission))
      toolByCall := scope.toolByCall.set tool.call pending.position
      pendingPlaceholders := earlier ++ later } cell (place.next before env) := by
  have quiet : askedCall? env = none := by
    unfold startedCall? at starts
    unfold askedCall?
    grind
  obtain ⟨_, name, args, shown, _⟩ := (sound.listed pending).mp (by simp [split])
  have tools := sound.tools
  have waiting := sound.waiting
  cases place with
  | queued key ahead =>
    obtain ⟨left, queued, right, filtered, length, same⟩ := here
    simp only [split, List.filter_append, List.filter_cons] at filtered
    by_cases claimed : pending.argsKey = key
    · -- the first placeholder of the key is the one that is taken
      subst claimed
      have none : earlier.filter (fun other => other.argsKey = pending.argsKey) = [] := by
        simpa [List.filter_eq_nil_iff] using first
      simp only [none, List.nil_append, decide_true, ↓reduceIte] at filtered
      cases left with
      | nil =>
        obtain ⟨rfl, _⟩ := List.cons.inj filtered
        obtain rfl : 0 = ahead := length
        subst same
        have inside : pending.position < scope.items.length := (List.getElem?_eq_some_iff.mp shown).1
        simp only [Place.next, claims, ↓reduceIte, At]
        exact ⟨pending.position, base, tool, by simp, by simp [inside]⟩
      | cons other left =>
        obtain ⟨_, rest⟩ := List.cons.inj filtered
        obtain rfl : left.length + 1 = ahead := length
        simp only [Place.next, claims, ↓reduceIte, At, List.filter_append, none, List.nil_append]
        exact ⟨left, queued, right, rest, rfl, same⟩
    · simp only [claimed, decide_false] at filtered
      simp only [Place.next, claims, claimed, ↓reduceIte, At, List.filter_append]
      exact ⟨left, queued, right, by simpa using filtered, length, same⟩
  | waiting other | latest other | kept | gone =>
    simp only [At, Place.next, starts, quiet, Scope.held] at *
    grind [At, Scope.held, OrderedMap.get_set, ScopeItem.permission?]

/-- A permission waits for a call from the request that names it until the tool starts. -/
theorem awaited_step (sound : scope.Sound) (env : SessionEnvelope) (call : String) :
    ((scope.step env).pendingPermByCall.get? call).isSome =
      (((scope.pendingPermByCall.get? call).isSome ||
        (!(scope.toolByCall.get? call).isSome && decide (askedCall? env = some call))) &&
        !decide (startedCall? env = some call)) := by
  have waiting := sound.waiting
  unfold step askedCall? startedCall?
  cases env.ev with
  | permRequest reqId named name args modes answerable =>
    cases named with
    | none => simp [requestPermission, Scope.push]
    | some named =>
      simp only [requestPermission]
      split <;> grind [OrderedMap.get_set]
  | permResolve =>
    simp only [resolvePermission]
    split <;> simp
  | toolStart started name title args risk =>
    rcases start_cases sound (baseOf env) ⟨started, name, title, args, risk, .running, none, none⟩ with
      ⟨_, _, equal⟩ | ⟨named, _, _, _, _, _, _, equal⟩ | ⟨named, _, equal⟩
    all_goals
      simp only [equal, pushTool, Scope.push]
      grind [OrderedMap.get_delete]
  | toolEnd =>
    simp only [endTool]
    split <;> simp [Scope.push]
  | text | service | file | turnStart | turnEnd | modeSwitch | permissionMode | subStart | subStop
  | usage | plan => simp [Scope.push, eventItem?]

/-- A scope that has read some envelopes. -/
theorem reads_run (before : List SessionEnvelope) : (before.foldl step empty).Reads before := by
  refine ⟨started_run before, ?_⟩
  intro call
  induction before using List.reverseRecOn with
  | nil => rfl
  | append_singleton before env inductionHypothesis =>
    have snoc : awaited (before ++ [env]) call =
        ((awaited before call || (!startedIn before call && decide (askedCall? env = some call))) &&
          !decide (startedCall? env = some call)) := by
      simp only [awaited, startedIn, List.any_append, List.any_cons, List.any_nil, Bool.or_false]
      grind
    rw [List.foldl_concat, awaited_step (Sound.start.run before), inductionHypothesis,
      started_run, snoc]

/-- A permission goes to its next place. -/
theorem at_step (sound : scope.Sound)
    (reads : scope.Reads before) {place : Place} (here : scope.At cell place)
    (env : SessionEnvelope) : (scope.step env).At cell (place.next before env) := by
  unfold step
  cases kind : env.ev with
  | permRequest reqId call name args modes answerable =>
    simp only [requestPermission]
    cases call with
    | none =>
      rw [next_other place (by simp [askedCall?, kind]) (by simp [startedCall?, kind])]
      exact at_place sound ⟨reqId, modes, none, answerable⟩ (baseOf env) name args place here
    | some call =>
      have asks : askedCall? env = some call := by simp [askedCall?, kind]
      simp only
      split
      · rename_i position found
        exact at_give sound found ⟨reqId, modes, none, answerable⟩ asks place here
      · rename_i found
        exact at_wait sound found ⟨reqId, modes, none, answerable⟩ asks place here
  | permResolve reqId decision =>
    rw [next_other place (by simp [askedCall?, kind]) (by simp [startedCall?, kind])]
    simp only [resolvePermission]
    split
    · cases place with
      | gone => exact ⟨by simpa using here.1, here.2⟩
      | waiting | queued | latest | kept => exact here
    · exact here
  | toolStart call name title args risk =>
    have starts : startedCall? env = some call := by simp [startedCall?, kind]
    have awaits := reads.awaited call
    simp only
    rcases start_cases sound (baseOf env) ⟨call, name, title, args, risk, .running, none, none⟩ with
      ⟨held, named, equal⟩ | ⟨named, earlier, pending, later, split, key, others, equal⟩ |
        ⟨named, others, equal⟩
    · rw [equal]
      apply at_start_awaited sound (baseOf env) _ named starts _ place here
      intro key
      simp [claim?, kind, ← awaits, named]
    · rw [equal]
      apply at_start_placed sound (baseOf env) _ named split _ starts _ place here
      · rw [key]
        exact others
      · intro tested
        simp [claim?, kind, ← awaits, named, key]
    · rw [equal]
      apply at_start_plain sound (baseOf env) _ named starts _ place here
      intro key claimed pending member
      have same : canonicalArgsKey name args = key := by
        simp only [claim?, kind, Option.isSome_ite] at claimed
        exact claimed.1
      rw [← same]
      exact others pending member
  | toolEnd call ok output =>
    rw [next_other place (by simp [askedCall?, kind]) (by simp [startedCall?, kind])]
    simp only [endTool]
    split
    · exact at_finish _ ok output place here
    · exact at_push _ rfl place here
  | text | service | file | turnStart | turnEnd | modeSwitch | permissionMode | subStart | subStop
  | usage | plan =>
    rw [next_other place (by simp [askedCall?, kind]) (by simp [startedCall?, kind])]
    exact at_push _ rfl place here

end Scope

end Kvy.Web.Sync
