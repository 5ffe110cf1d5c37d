import Kvy.General.Slots
import Kvy.Web.Sync.Reducer.Refetch
import Kvy.Web.Sync.Reducer.SubagentOrder

/-!
# Standalone groups and the order of the root items

The root items are sorted by time only when a group stands alone. A tool that has taken the place
of a permission placeholder stands where the placeholder stood, with its own later time; a group
that has nothing to do with it makes it move behind the items in between.
-/

namespace Kvy.Web.Sync

open General Wire Slots

/-! ## What is compared -/

/-- The items that stand in both transcripts stand in the same order. -/
def SameOrder (first second : List RenderItem) : Prop :=
  (first.map RenderItem.base).filter (fun base => base ∈ second.map RenderItem.base) =
    (second.map RenderItem.base).filter (fun base => base ∈ first.map RenderItem.base)

/-- The envelopes without those of a scope: an id belongs to the scope of the envelope that is kept
for it. -/
def withoutScope (subagent : String) (envelopes : List SessionEnvelope) : List SessionEnvelope :=
  envelopes.filter (fun env =>
    env.id ∉ (scopeOf (some subagent) (dedupeById envelopes)).map SessionEnvelope.id)

/-- The place in its scope that an envelope writes, with its time. -/
def Scope.write (scope : Scope) (env : SessionEnvelope) : Write ℚ :=
  match env.ev with
  | .permRequest _ call _ _ _ _ => if call.isNone then .push env.time.toRat else .keep
  | .permResolve _ _ => .keep
  | .toolStart call name _ args _ =>
    match scope.pendingPermByCall.get? call with
    | some _ => .push env.time.toRat
    | none =>
      match scope.pendingPlaceholders.find?
          (fun pending => pending.argsKey = canonicalArgsKey name args) with
      | some pending => .put pending.position env.time.toRat
      | none => .push env.time.toRat
  | .toolEnd call _ _ => if (scope.toolByCall.get? call).isSome then .keep else .push env.time.toRat
  | _ => .push env.time.toRat

/-- The places that envelopes write one after the other. -/
def Scope.writes : Scope → List SessionEnvelope → List (Write ℚ)
  | _, [] => []
  | scope, env :: rest => scope.write env :: (scope.step env).writes rest

/-- A subagent other than the tools of the scopes before it have started stands alone. -/
def SomeStandsAlone (sorted : List SessionEnvelope) : Prop :=
  ∃ subagent, (∃ env ∈ sorted, env.subagent = some subagent) ∧ ¬ StartedBefore sorted subagent

/-! ## Lists -/

/-- A part of a list without repetitions is what the list has in common with it. -/
theorem sublist_filter {α : Type} [DecidableEq α] {items part : List α} (distinct : items.Nodup)
    (sublist : part.Sublist items) : part = items.filter (fun item => item ∈ part) := by
  induction sublist with
  | slnil => rfl
  | cons item sublist inductionHypothesis =>
    obtain ⟨fresh, distinct⟩ := List.nodup_cons.mp distinct
    have absent := fun member => fresh (sublist.subset member)
    rw [List.filter_cons_of_neg (by simpa using absent)]
    exact inductionHypothesis distinct
  | @cons_cons part items item sublist inductionHypothesis =>
    obtain ⟨fresh, distinct⟩ := List.nodup_cons.mp distinct
    rw [List.filter_cons_of_pos (by simp), List.cons.injEq]
    refine ⟨rfl, (inductionHypothesis distinct).trans ?_⟩
    apply List.filter_congr
    intro other member
    have different : other ≠ item := by
      rintro rfl
      exact fresh member
    simp [different]

/-- Two parts of a list without repetitions have their common items in the same order. -/
theorem common_sublists {α : Type} [DecidableEq α] {items first second : List α}
    (distinct : items.Nodup) (firstPart : first.Sublist items) (secondPart : second.Sublist items) :
    first.filter (fun item => item ∈ second) = second.filter (fun item => item ∈ first) := by
  have one := sublist_filter distinct firstPart
  have two := sublist_filter distinct secondPart
  calc first.filter (fun item => item ∈ second)
      = (items.filter (fun item => item ∈ first)).filter (fun item => item ∈ second) := by
        rw [← one]
    _ = (items.filter (fun item => item ∈ second)).filter (fun item => item ∈ first) := by
        rw [List.filter_filter, List.filter_filter]
        simp only [Bool.and_comm]
    _ = second.filter (fun item => item ∈ first) := by rw [← two]

/-- Behind the same items, parts of one list that have none of them. -/
theorem common_append {α : Type} [DecidableEq α] {root items first second : List α}
    (distinct : items.Nodup) (apart : ∀ item ∈ items, item ∉ root) (firstPart : first.Sublist items)
    (secondPart : second.Sublist items) :
    (root ++ first).filter (fun item => item ∈ root ++ second) =
      (root ++ second).filter (fun item => item ∈ root ++ first) := by
  have rooted : ∀ other : List α, root.filter (fun item => item ∈ root ++ other) = root := by
    intro other
    rw [List.filter_eq_self]
    intro item member
    simp [member]
  have behind : ∀ part other : List α, part.Sublist items →
      part.filter (fun item => item ∈ root ++ other) = part.filter (fun item => item ∈ other) := by
    intro part other sublist
    apply List.filter_congr
    intro item member
    simp [apart item (sublist.subset member)]
  rw [List.filter_append, List.filter_append, rooted, rooted, behind first second firstPart,
    behind second first secondPart, common_sublists distinct firstPart secondPart]

/-! ## The scopes without one of them -/

/-- Entries of other keys are set without one key as with it. -/
theorem set_entry_filter
    {β : Type} (removed key : String) (value : β) (entries : List (String × β)) :
    (setEntry key value entries).filter (fun entry => entry.1 ≠ removed) =
      if key = removed then entries.filter (fun entry => entry.1 ≠ removed)
      else setEntry key value (entries.filter (fun entry => entry.1 ≠ removed)) := by
  induction entries with
  | nil =>
    by_cases same : key = removed <;> simp [setEntry, same]
  | cons entry rest inductionHypothesis =>
    obtain ⟨first, held⟩ := entry
    by_cases here : first = key
    · subst here
      by_cases same : first = removed <;> simp [setEntry, same]
    · by_cases same : key = removed
      · subst same
        rw [if_pos rfl] at inductionHypothesis ⊢
        simp only [setEntry, here, ↓reduceIte, List.filter_cons, inductionHypothesis]
      · rw [if_neg same] at inductionHypothesis ⊢
        by_cases removes : first = removed
        · rw [setEntry, if_neg here, List.filter_cons_of_neg (by simp [removes]),
            List.filter_cons_of_neg (by simp [removes]), inductionHypothesis]
        · simp only [setEntry, here, ↓reduceIte, List.filter_cons, removes, inductionHypothesis,
            ne_eq, not_false_eq_true, decide_true]

/-- The scopes of the envelopes without those of one subagent. -/
theorem subagent_scopes_without (subagent : String) (sorted : List SessionEnvelope) :
    (subagentScopes (sorted.filter (fun env => env.subagent ≠ some subagent))).entries =
      (subagentScopes sorted).entries.filter (fun entry => entry.1 ≠ subagent) := by
  induction sorted using List.reverseRecOn with
  | nil => rfl
  | append_singleton sorted env inductionHypothesis =>
    rw [List.filter_append, subagent_scopes_snoc]
    cases tag : env.subagent with
    | none =>
      rw [List.filter_cons_of_pos (by simp [tag]), List.filter_nil, subagent_scopes_snoc, tag]
      exact inductionHypothesis
    | some id =>
      by_cases same : id = subagent
      · subst same
        rw [List.filter_cons_of_neg (by simp [tag]), List.filter_nil, List.append_nil,
          Option.elim_some, OrderedMap.set, set_entry_filter, if_pos rfl]
        exact inductionHypothesis
      · have kept : scopeOf (some id) (sorted.filter (fun env => env.subagent ≠ some subagent)) =
            scopeOf (some id) sorted := by
          rw [scopeOf, scopeOf, List.filter_filter]
          apply List.filter_congr
          intro other _
          by_cases tagged : other.subagent = some id <;> simp [tagged, same]
        have one : [env].filter (fun env => env.subagent ≠ some subagent) = [env] := by
          simp [tag, same]
        rw [one, subagent_scopes_snoc]
        simp only [tag, Option.elim_some, OrderedMap.set, set_entry_filter, if_neg same,
          inductionHypothesis, subagent_scopes_get, kept]

/-- The root keeps its envelopes. -/
theorem root_without (subagent : String) (sorted : List SessionEnvelope) :
    scopeOf none (sorted.filter (fun env => env.subagent ≠ some subagent)) = scopeOf none sorted := by
  rw [scopeOf, scopeOf, List.filter_filter]
  apply List.filter_congr
  intro env _
  by_cases root : env.subagent = none <;> simp [root]

/-! ## The bases of the root items -/

/-- The bases of the first envelopes of the scopes. -/
def firstBases (entries : List (String × List SessionEnvelope)) : List RenderItemBase :=
  entries.filterMap (fun entry => entry.2.head?.map baseOf)

theorem attach_to_item_base
    {call : String} {children : List RenderItem} {item attached : RenderItem}
    (found : attachToItem call children item = some attached) : attached.base = item.base := by
  cases item with
  | event => simp [attachToItem] at found
  | permPlaceholder => simp [attachToItem] at found
  | orphanToolEnd => simp [attachToItem] at found
  | tool base tool permission subagent =>
    cases subagent with
    | none =>
      simp only [attachToItem] at found
      split at found
      · cases found
        rfl
      · contradiction
    | some items =>
      simp only [attachToItem] at found
      split at found
      · cases found
        rfl
      · obtain ⟨_, _, rfl⟩ := Option.map_eq_some_iff.mp found
        rfl
  | subagentGroup base subagentId items =>
    obtain ⟨_, _, rfl⟩ := Option.map_eq_some_iff.mp found
    rfl

/-- Attaching changes no base. -/
theorem attach_bases {call : String} {children items attached : List RenderItem}
    (found : attachToItems call children items = some attached) :
    attached.map RenderItem.base = items.map RenderItem.base := by
  induction items generalizing attached with
  | nil => simp [attachToItems] at found
  | cons item rest inductionHypothesis =>
    simp only [attachToItems] at found
    split at found
    · rename_i changed here
      cases found
      rw [List.map_cons, List.map_cons, attach_to_item_base here]
    · obtain ⟨later, there, rfl⟩ := Option.map_eq_some_iff.mp found
      rw [List.map_cons, List.map_cons, inductionHypothesis there]

/-- What stands alone: some of the scopes, each as a group at its first envelope. -/
structure Stands (root : List RenderItem) (done stood : List (String × List SessionEnvelope))
    (linked : Linked) : Prop where
  root : linked.rootItems.map RenderItem.base = root.map RenderItem.base
  part : stood.Sublist done
  bases : linked.standalone.map RenderItem.base = firstBases stood
  names : (groups linked.standalone).map Prod.fst = stood.map Prod.fst

theorem Stands.link {root : List RenderItem} {done stood : List (String × List SessionEnvelope)}
    {linked : Linked} (stands : Stands root done stood linked) (subagentId : String)
    {envs : List SessionEnvelope} (nonempty : envs ≠ [])
    (fresh : subagentId ∉ (links (linked.rootItems ++ linked.standalone)).map Prod.fst) :
    ∃ more, Stands root (done ++ [(subagentId, envs)]) more (linked.link subagentId envs) := by
  obtain ⟨first, rest, rfl⟩ := List.exists_cons_of_ne_nil nonempty
  have wider := stands.part.trans (List.sublist_append_left done [(subagentId, first :: rest)])
  simp only [Linked.link]
  cases inRoot : attachToItems subagentId (reduceScope (first :: rest)) linked.rootItems with
  | some rootItems =>
    exact ⟨stood, (attach_bases inRoot).trans stands.root, wider, stands.bases, stands.names⟩
  | none =>
    cases inGroups : attachToItems subagentId (reduceScope (first :: rest)) linked.standalone with
    | some standalone =>
      rw [links_append, List.map_append, List.mem_append, not_or] at fresh
      obtain ⟨_, _, grouped⟩ := attach_to_items_grown inGroups fresh.2
      have kept : groups standalone = groups linked.standalone := grouped
      exact ⟨stood, stands.root, wider, (attach_bases inGroups).trans stands.bases,
        kept ▸ stands.names⟩
    | none =>
      refine ⟨stood ++ [(subagentId, first :: rest)], stands.root,
        stands.part.append_right _, ?_, ?_⟩
      · simp [firstBases, stands.bases, RenderItem.base]
      · have names := stands.names
        rw [groups] at names
        rw [groups, List.filterMap_append, List.map_append, List.map_append, names]
        simp [RenderItem.group?]

theorem Stands.run
    {root : List RenderItem} {done stood entries : List (String × List SessionEnvelope)}
    {linked : Linked} (linking : Linking root done linked) (stands : Stands root done stood linked)
    (distinct : ((done ++ entries).map Prod.fst).Nodup) (nonempty : ∀ entry ∈ entries, entry.2 ≠ []) :
    ∃ more, Stands root (done ++ entries) more
      (entries.foldl (fun linked (subagentId, envs) => linked.link subagentId envs) linked) := by
  induction entries generalizing done stood linked with
  | nil => exact ⟨stood, by simpa using stands⟩
  | cons entry rest inductionHypothesis =>
    obtain ⟨subagentId, envs⟩ := entry
    have fresh : subagentId ∉ done.map Prod.fst := by
      intro known
      rw [List.map_append, List.map_cons, List.nodup_append] at distinct
      exact distinct.2.2 subagentId known subagentId List.mem_cons_self rfl
    have unlinked : subagentId ∉ (links (linked.rootItems ++ linked.standalone)).map Prod.fst := by
      have placed := (linking.placed.map Prod.fst).mem_iff (a := subagentId)
      rw [List.map_append, List.mem_append, List.map_map] at placed
      exact fun link => fresh (placed.mp (Or.inl link))
    have filled : envs ≠ [] := nonempty _ List.mem_cons_self
    obtain ⟨more, stepped⟩ := stands.link subagentId filled unlinked
    rw [List.append_cons] at distinct ⊢
    exact inductionHypothesis (linking.step filled fresh) stepped distinct
      (fun later member => nonempty later (List.mem_cons_of_mem _ member))

/-- The time of an item by its base. -/
def baseTime (base : RenderItemBase) : ℚ := base.time.toRat

/-- The bases of the root scope's items. -/
def rootBases (sorted : List SessionEnvelope) : List RenderItemBase :=
  (reduceScope (scopeOf none sorted)).map RenderItem.base

/-- The root items are those of the root scope; they are sorted with the groups when some stand
alone. -/
theorem reduce_sorted_bases (sorted : List SessionEnvelope) :
    ∃ stood, stood.Sublist (subagentScopes sorted).entries ∧
      (reduceSorted sorted).map RenderItem.base =
        (if stood = [] then rootBases sorted
        else sortBy baseTime (rootBases sorted ++ firstBases stood)) ∧
      ∀ subagent, subagent ∈ (groups (reduceSorted sorted)).map Prod.fst ↔
        subagent ∈ stood.map Prod.fst := by
  have flat := reduce_scope_flat (scopeOf none sorted)
  have nonempty : ∀ entry ∈ (subagentScopes sorted).entries, entry.2 ≠ [] :=
    fun entry member => (subagent_scopes_entry member).2
  have linking := (Linking.start flat).run (subagentScopes sorted).distinct nonempty
  obtain ⟨stood, stands⟩ := Stands.run (Linking.start flat)
    ⟨rfl, List.Sublist.refl _, rfl, rfl⟩ (subagentScopes sorted).distinct nonempty
  have rootScope : sorted.filter (fun env => env.subagent.isNone) = scopeOf none sorted := by
    apply List.filter_congr
    intro env _
    cases env.subagent <;> rfl
  rw [reduceSorted, rootScope, linkSubagentScopes]
  simp only [List.nil_append] at linking stands ⊢
  generalize ((subagentScopes sorted).entries.foldl
    (fun linked (subagentId, envs) => linked.link subagentId envs)
    (⟨reduceScope (scopeOf none sorted), []⟩ : Linked)) = linked at linking stands ⊢
  have none : linked.standalone = [] ↔ stood = [] := by
    constructor
    · intro empty
      have names := stands.names
      rw [empty] at names
      exact List.map_eq_nil_iff.mp names.symm
    · rintro rfl
      exact List.map_eq_nil_iff.mp stands.bases
  refine ⟨stood, stands.part, ?_, ?_⟩
  · by_cases empty : stood = []
    · rw [if_pos empty, if_pos (by simpa using none.mpr empty)]
      exact stands.root
    · have some : linked.standalone ≠ [] := fun holds => empty (none.mp holds)
      rw [if_neg empty, if_neg (by simpa using some), stableSortByTime, sort_indexed,
        ← List.filterMap_eq_map,
        filter_map_sort _ _ baseTime (by rintro item base ⟨⟩; rfl), List.filterMap_eq_map,
        List.map_append, stands.root, stands.bases, rootBases]
  · intro subagent
    rw [← stands.names]
    split
    · rename_i empty
      rw [List.isEmpty_iff] at empty
      rw [linking.rootTop, empty]
      rfl
    · rw [stableSortByTime, sort_indexed, groups,
        ((sort_perm _ _).filterMap RenderItem.group?).map Prod.fst |>.mem_iff]
      have top := linking.rootTop
      rw [groups] at top
      rw [List.filterMap_append, top, List.nil_append, groups]

/-! ## The times of the root items -/

/-- The base of an item of a scope. -/
def ScopeItem.base : ScopeItem → RenderItemBase
  | .event base _ => base
  | .permPlaceholder base _ _ _ => base
  | .tool base _ _ => base
  | .orphanToolEnd base _ _ _ => base

@[simp] theorem ScopeItem.base_shown (permissions : List PermissionInfo) (item : ScopeItem) :
    (item.shown permissions).base = item.base := by
  cases item <;> rfl

namespace Scope

/-- The bases of the items so far. -/
def bases (scope : Scope) : List RenderItemBase := scope.items.map ScopeItem.base

/-- A change that keeps the base of every item. -/
theorem bases_modify (items : List ScopeItem) (position : Nat) (change : ScopeItem → ScopeItem)
    (keeps : ∀ item, (change item).base = item.base) :
    (items.modify position change).map ScopeItem.base = items.map ScopeItem.base := by
  induction items generalizing position with
  | nil => cases position <;> rfl
  | cons item rest inductionHypothesis =>
    cases position with
    | zero => simp [keeps]
    | succ position => simp [inductionHypothesis]

variable {scope : Scope}

/-- An envelope writes the place that is said, with its base. -/
theorem step_bases (sound : scope.Sound) (env : SessionEnvelope) :
    (scope.write env = .keep ∧ (scope.step env).bases = scope.bases) ∨
      (scope.write env = .push env.time.toRat ∧
        (scope.step env).bases = scope.bases ++ [baseOf env]) ∨
      ∃ position, scope.write env = .put position env.time.toRat ∧
        (scope.step env).bases = scope.bases.set position (baseOf env) := by
  unfold Scope.step Scope.write
  cases env.ev with
  | permRequest reqId call name args modes answerable =>
    cases call with
    | none =>
      refine Or.inr (Or.inl ⟨rfl, ?_⟩)
      simp [requestPermission, Scope.push, bases, ScopeItem.base]
    | some call =>
      refine Or.inl ⟨rfl, ?_⟩
      simp only [requestPermission]
      split
      · exact bases_modify _ _ _ (by intro item; cases item <;> rfl)
      · rfl
  | permResolve reqId decision =>
    refine Or.inl ⟨rfl, ?_⟩
    simp only [resolvePermission]
    split <;> rfl
  | toolStart call name title args risk =>
    simp only
    rcases start_cases sound (baseOf env) ⟨call, name, title, args, risk, .running, none, none⟩ with
      ⟨cell, named, equal⟩ | ⟨named, before, pending, after, split, key, others, equal⟩ |
        ⟨named, unmatched, equal⟩
    · refine Or.inr (Or.inl ⟨?_, ?_⟩)
      · simp only at named
        rw [named]
      · rw [equal]
        simp [pushTool, Scope.push, bases, ScopeItem.base]
    · refine Or.inr (Or.inr ⟨pending.position, ?_, ?_⟩)
      · simp only at named key others
        have first : scope.pendingPlaceholders.find?
            (fun pending => pending.argsKey = canonicalArgsKey name args) = some pending := by
          rw [split, List.find?_append, List.find?_eq_none.mpr (by simpa using others)]
          simp [key]
        rw [named, first]
      · rw [equal, bases, bases, List.map_set]
        rfl
    · refine Or.inr (Or.inl ⟨?_, ?_⟩)
      · simp only at named unmatched
        rw [named, List.find?_eq_none.mpr (by simpa using unmatched)]
      · rw [equal]
        simp [pushTool, Scope.push, bases, ScopeItem.base]
  | toolEnd call ok output =>
    simp only [endTool]
    cases found : scope.toolByCall.get? call with
    | none =>
      refine Or.inr (Or.inl ⟨rfl, ?_⟩)
      simp [Scope.push, bases, ScopeItem.base]
    | some position =>
      refine Or.inl ⟨rfl, ?_⟩
      exact bases_modify _ _ _ (by intro item; cases item <;> rfl)
  | text | service | file | turnStart | turnEnd | modeSwitch | permissionMode | subStart | subStop
  | usage | plan =>
    refine Or.inr (Or.inl ⟨rfl, ?_⟩)
    simp [eventItem?, Scope.push, bases, ScopeItem.base]

/-- The times of the items are what the envelopes write. -/
theorem run_times (sound : scope.Sound) (envs : List SessionEnvelope) :
    (envs.foldl Scope.step scope).bases.map baseTime =
      (scope.writes envs).foldl Slots.write (scope.bases.map baseTime) := by
  induction envs generalizing scope with
  | nil => rfl
  | cons env rest inductionHypothesis =>
    rw [List.foldl_cons, inductionHypothesis (sound.step env), writes, List.foldl_cons]
    congr 1
    rcases step_bases sound env with ⟨write, bases⟩ | ⟨write, bases⟩ | ⟨position, write, bases⟩
    · rw [write, bases, Slots.write]
    · rw [write, bases, Slots.write, List.map_append]
      rfl
    · rw [write, bases, Slots.write, List.map_set]
      rfl

/-- Each envelope writes at most its time. -/
theorem writes_values (sound : scope.Sound) (envs : List SessionEnvelope) :
    ((scope.writes envs).filterMap Write.value?).Sublist (envs.map (fun env => env.time.toRat)) := by
  induction envs generalizing scope with
  | nil => exact List.Sublist.refl _
  | cons env rest inductionHypothesis =>
    have later := inductionHypothesis (sound.step env)
    rw [writes, List.map_cons]
    rcases step_bases sound env with ⟨write, _⟩ | ⟨write, _⟩ | ⟨position, write, _⟩
    · rw [write, List.filterMap_cons_none (by rfl)]
      exact later.cons _
    · rw [write, List.filterMap_cons_some (by rfl)]
      exact later.cons_cons _
    · rw [write, List.filterMap_cons_some (by rfl)]
      exact later.cons_cons _

/-- Every item has the base of an envelope. -/
theorem run_base (sound : scope.Sound) (envs : List SessionEnvelope) :
    ∀ base ∈ (envs.foldl Scope.step scope).bases, base ∈ scope.bases ∨ base ∈ envs.map baseOf := by
  induction envs generalizing scope with
  | nil => exact fun base member => Or.inl member
  | cons env rest inductionHypothesis =>
    intro base member
    rw [List.map_cons, List.mem_cons]
    rcases inductionHypothesis (sound.step env) base member with before | later
    · rcases step_bases sound env with ⟨_, bases⟩ | ⟨_, bases⟩ | ⟨position, _, bases⟩
      · exact Or.inl (bases ▸ before)
      · rw [bases, List.mem_append, List.mem_singleton] at before
        exact before.imp_right Or.inl
      · rw [bases] at before
        exact (List.mem_or_eq_of_mem_set before).imp_right Or.inl
    · exact Or.inr (Or.inr later)

end Scope

variable {sorted : List SessionEnvelope}

/-- The root items have the bases of root envelopes. -/
theorem mem_root_bases {base : RenderItemBase}
    (member : base ∈ rootBases sorted) : ∃ env ∈ scopeOf none sorted, baseOf env = base := by
  have shown : rootBases sorted =
      ((scopeOf none sorted).foldl Scope.step Scope.empty).bases := by
    simp only [rootBases, reduceScope, List.map_map, Scope.bases]
    apply List.map_congr_left
    intro item _
    exact ScopeItem.base_shown _ item
  rw [shown] at member
  rcases Scope.run_base Scope.Sound.start _ base member with empty | held
  · exact absurd empty List.not_mem_nil
  · exact List.mem_map.mp held

/-- The root items are in order exactly when every place that is taken settles. -/
theorem root_bases_sorted_iff
    (rising : sorted.Pairwise (fun first second => first.time.toRat ≤ second.time.toRat)) :
    (rootBases sorted).Pairwise (fun first second => baseTime first ≤ baseTime second) ↔
      Settled (Scope.empty.writes (scopeOf none sorted)) := by
  have times : (rootBases sorted).map baseTime = slotsOf (Scope.empty.writes (scopeOf none sorted)) := by
    have run := Scope.run_times Scope.Sound.start (scopeOf none sorted)
    rw [rootBases, reduceScope]
    simp only [List.map_map, Function.comp_def, ScopeItem.base_shown]
    simpa [Scope.bases, slotsOf, Scope.empty, Function.comp_def] using run
  have values : Rising (Scope.empty.writes (scopeOf none sorted)) := by
    apply List.Pairwise.sublist (Scope.writes_values Scope.Sound.start _)
    rw [List.pairwise_map]
    exact rising.filter _
  rw [← Slots.sorted_iff values, ← times, List.pairwise_map]

/-! ## With and without a scope -/

/-- The envelopes that are reduced. -/
def sortedOf (envelopes : List SessionEnvelope) : List SessionEnvelope :=
  stableSortByTime SessionEnvelope.time (dedupeById envelopes)

theorem sorted_of_kept (envelopes : List SessionEnvelope) :
    sortedOf envelopes = sortBy (fun env => env.time.toRat) (keepFirst SessionEnvelope.id envelopes) := by
  rw [sortedOf, dedupe_keepFirst, stableSortByTime, sort_indexed]

theorem sorted_of_ids (envelopes : List SessionEnvelope) :
    ((sortedOf envelopes).map SessionEnvelope.id).Nodup := by
  rw [sorted_of_kept, ((sort_perm _ _).map SessionEnvelope.id).nodup_iff]
  exact keepFirst_nodup envelopes

/-- Leaving out a scope leaves out its envelopes. -/
theorem sorted_of_without (subagent : String) (envelopes : List SessionEnvelope) :
    sortedOf (withoutScope subagent envelopes) =
      (sortedOf envelopes).filter (fun env => env.subagent ≠ some subagent) := by
  have kept : keepFirst SessionEnvelope.id (withoutScope subagent envelopes) =
      (keepFirst SessionEnvelope.id envelopes).filter (fun env => env.subagent ≠ some subagent) := by
    rw [withoutScope, dedupe_keepFirst]
    refine (keepFirst_filter_key (fun id => id ∉ (scopeOf (some subagent)
      (keepFirst SessionEnvelope.id envelopes)).map SessionEnvelope.id) envelopes).trans ?_
    apply List.filter_congr
    intro env member
    have inScope : env.id ∈ (scopeOf (some subagent)
        (keepFirst SessionEnvelope.id envelopes)).map SessionEnvelope.id ↔
          env.subagent = some subagent := by
      constructor
      · intro held
        obtain ⟨other, otherMember, same⟩ := List.mem_map.mp held
        obtain ⟨otherKept, tagged⟩ := List.mem_filter.mp otherMember
        have one := List.inj_on_of_nodup_map (keepFirst_nodup envelopes) otherKept member same
        exact one ▸ of_decide_eq_true tagged
      · intro tagged
        exact List.mem_map_of_mem (List.mem_filter.mpr ⟨member, decide_eq_true tagged⟩)
    simp [inScope]
  rw [sorted_of_kept, kept, sorted_of_kept, filter_sort_by]

/-- A scope starts with an envelope of its subagent. -/
theorem first_of_scope {entry : String × List SessionEnvelope}
    {base : RenderItemBase} (member : entry ∈ (subagentScopes sorted).entries)
    (first : base ∈ entry.2.head?.map baseOf) :
    ∃ env ∈ sorted, env.subagent = some entry.1 ∧ baseOf env = base := by
  obtain ⟨env, head, rfl⟩ := Option.map_eq_some_iff.mp first
  have inScope := List.mem_of_head? head
  rw [(subagent_scopes_entry member).1] at inScope
  obtain ⟨envMember, tagged⟩ := List.mem_filter.mp inScope
  exact ⟨env, envMember, of_decide_eq_true tagged, rfl⟩

section
variable {sorted : List SessionEnvelope} (ids : (sorted.map SessionEnvelope.id).Nodup)
include ids

/-- Envelopes are told apart by their bases. -/
theorem base_inj
    {first second : SessionEnvelope} (firstIn : first ∈ sorted) (secondIn : second ∈ sorted)
    (same : baseOf first = baseOf second) : first = second :=
  List.inj_on_of_nodup_map ids firstIn secondIn (congrArg RenderItemBase.id same)

/-- The scopes start with different envelopes. -/
theorem first_bases_nodup : (firstBases (subagentScopes sorted).entries).Nodup := by
  have distinct : (subagentScopes sorted).entries.Nodup := (subagentScopes sorted).distinct.of_map _
  apply List.pairwise_filterMap.mpr
  apply distinct.imp_of_mem
  rintro entry other entryMember otherMember different base first _ otherFirst rfl
  obtain ⟨env, envMember, tagged, same⟩ := first_of_scope entryMember first
  obtain ⟨otherEnv, otherEnvMember, otherTagged, otherSame⟩ := first_of_scope otherMember otherFirst
  obtain rfl := base_inj ids envMember otherEnvMember (same.trans otherSame.symm)
  have names : entry.1 = other.1 := Option.some.inj (tagged.symm.trans otherTagged)
  apply different
  refine Prod.ext names ?_
  rw [(subagent_scopes_entry entryMember).1, (subagent_scopes_entry otherMember).1, names]

/-- A group does not start with an envelope of the root. -/
theorem first_bases_apart :
    ∀ base ∈ firstBases (subagentScopes sorted).entries, base ∉ rootBases sorted := by
  intro base member root
  obtain ⟨entry, entryMember, first⟩ := List.mem_filterMap.mp member
  obtain ⟨env, envMember, tagged, rfl⟩ := first_of_scope entryMember first
  obtain ⟨other, otherMember, same⟩ := mem_root_bases root
  obtain ⟨otherMember, untagged⟩ := List.mem_filter.mp otherMember
  obtain rfl := base_inj ids otherMember envMember same
  exact absurd ((of_decide_eq_true untagged).symm.trans tagged) (by simp)

end

/-- Some subagent stands alone exactly when the groups are not empty. -/
theorem some_stands_alone_iff
    {stood : List (String × List SessionEnvelope)}
    (part : stood.Sublist (subagentScopes sorted).entries)
    (names : ∀ subagent, subagent ∈ (groups (reduceSorted sorted)).map Prod.fst ↔
      subagent ∈ stood.map Prod.fst) : SomeStandsAlone sorted ↔ stood ≠ [] := by
  constructor
  · rintro ⟨subagent, occurs, unstarted⟩ rfl
    have stands := (stands_alone_iff occurs).mpr unstarted
    exact absurd ((names subagent).mp stands) List.not_mem_nil
  · intro some
    obtain ⟨entry, rest, rfl⟩ := List.exists_cons_of_ne_nil some
    have member : entry.1 ∈ (subagentScopes sorted).keys :=
      List.mem_map_of_mem (part.subset List.mem_cons_self)
    have occurs := (subagent_scopes_keys sorted entry.1).mp member
    exact ⟨entry.1, occurs,
      (stands_alone_iff occurs).mp ((names entry.1).mpr (List.mem_map_of_mem List.mem_cons_self))⟩

/-- Sorting alone compares a list with what it holds in the order it came in. -/
theorem sorted_order_iff
    {root behind : List RenderItemBase} (apart : ∀ base ∈ behind, base ∉ root) :
    (sortBy baseTime (root ++ behind)).filter (fun base => base ∈ root) =
        root.filter (fun base => base ∈ sortBy baseTime (root ++ behind)) ↔
      root.Pairwise (fun first second => baseTime first ≤ baseTime second) := by
  have rootPart : (root ++ behind).filter (fun base => base ∈ root) = root := by
    rw [List.filter_append, List.filter_eq_self.mpr (by simp),
      List.filter_eq_nil_iff.mpr (by simpa using apart), List.append_nil]
  have whole : root.filter (fun base => base ∈ sortBy baseTime (root ++ behind)) = root := by
    rw [List.filter_eq_self]
    intro base member
    simp [(sort_perm baseTime (root ++ behind)).mem_iff, member]
  rw [filter_sort_by, rootPart, whole]
  constructor
  · intro same
    have ordered := sort_pairwise baseTime root
    rwa [same] at ordered
  · exact sort_sorted baseTime

/-- A standalone scope leaves the other root items in their order exactly when there is another
standalone group anyway, or no tool of the root scope has taken the place of a placeholder before an
item that is earlier than the tool. -/
theorem standalone_keeps_order_iff (envelopes : List SessionEnvelope) (subagent : String)
    (unlinked : subagent ∈ (groups (reduceEnvelopes envelopes)).map Prod.fst) :
    SameOrder (reduceEnvelopes envelopes) (reduceEnvelopes (withoutScope subagent envelopes)) ↔
      SomeStandsAlone (sortedOf (withoutScope subagent envelopes)) ∨
        Settled (Scope.empty.writes (scopeOf none (sortedOf envelopes))) := by
  have ids := sorted_of_ids envelopes
  have rising : (sortedOf envelopes).Pairwise
      (fun first second => first.time.toRat ≤ second.time.toRat) := by
    rw [sorted_of_kept]
    exact sort_pairwise _ _
  change subagent ∈ (groups (reduceSorted (sortedOf envelopes))).map Prod.fst at unlinked
  change SameOrder (reduceSorted (sortedOf envelopes))
    (reduceSorted (sortedOf (withoutScope subagent envelopes))) ↔ _
  rw [sorted_of_without]
  generalize sortedOf envelopes = sorted at ids rising unlinked ⊢
  obtain ⟨stood, part, bases, names⟩ := reduce_sorted_bases sorted
  obtain ⟨left, leftPart, leftBases, leftNames⟩ :=
    reduce_sorted_bases (sorted.filter (fun env => env.subagent ≠ some subagent))
  have shown : stood ≠ [] := by
    rintro rfl
    exact absurd ((names subagent).mp unlinked) List.not_mem_nil
  have root : rootBases (sorted.filter (fun env => env.subagent ≠ some subagent)) =
      rootBases sorted := by
    rw [rootBases, root_without, rootBases]
  have distinct := first_bases_nodup ids
  have apart := first_bases_apart ids
  have behind : (firstBases stood).Sublist (firstBases (subagentScopes sorted).entries) :=
    part.filterMap _
  rw [some_stands_alone_iff leftPart leftNames, ← root_bases_sorted_iff rising, SameOrder, bases,
    leftBases, if_neg shown, root]
  by_cases none : left = []
  · rw [if_pos none, sorted_order_iff (fun base member => apart base (behind.subset member))]
    simp [none]
  · rw [subagent_scopes_without] at leftPart
    have leftBehind : (firstBases left).Sublist (firstBases (subagentScopes sorted).entries) :=
      (leftPart.trans List.filter_sublist).filterMap _
    rw [if_neg none]
    refine iff_of_true ?_ (Or.inl none)
    simp only [(sort_perm baseTime _).mem_iff]
    rw [filter_sort_by, filter_sort_by, common_append distinct apart behind leftBehind]

/-- A request without a call, a text and the tool that the request was about; then a subagent of
which no tool is known. -/
def movedTool : List SessionEnvelope :=
  [sampleEnvelope "e1" 1 none (.permRequest "r1" none "Bash" none [] none),
    sampleEnvelope "e2" 2 none (.text "thinking" none),
    sampleEnvelope "e3" 3 none (.toolStart "c1" "Bash" none none none),
    sampleEnvelope "e4" 4 (some "other") (.text "working" none)]

/-- The group of a subagent moves the tool behind the text. -/
theorem standalone_moves_tool :
    "other" ∈ (groups (reduceEnvelopes movedTool)).map Prod.fst ∧
      ¬ SameOrder (reduceEnvelopes movedTool) (reduceEnvelopes (withoutScope "other" movedTool)) := by
  constructor
  · decide +kernel
  · unfold SameOrder
    decide +kernel

/-- The tool has taken the place of the placeholder, before a text that is earlier. -/
theorem standalone_moves_tool_iff :
    SameOrder (reduceEnvelopes movedTool) (reduceEnvelopes (withoutScope "other" movedTool)) ↔
      SomeStandsAlone (sortedOf (withoutScope "other" movedTool)) ∨
        Settled (Scope.empty.writes (scopeOf none (sortedOf movedTool))) :=
  standalone_keeps_order_iff movedTool "other" (by decide +kernel)

end Kvy.Web.Sync
