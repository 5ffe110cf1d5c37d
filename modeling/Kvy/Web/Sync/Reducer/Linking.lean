import Kvy.Web.Sync.Reducer.Tree
import Mathlib.Data.List.Induction

/-!
# Linking the scopes of subagents

Scopes are linked in the order of their first envelopes. A scope is attached to the tool whose
call is its subagent when that tool is in the tree by then, and stands alone otherwise; once it
stands alone it stays so. The scopes that are linked lose no items.
-/

namespace Kvy.Web.Sync

open General Wire

/-- The envelopes of one scope, absent for the root. -/
def scopeOf (subagent : Option String) (envelopes : List SessionEnvelope) : List SessionEnvelope :=
  envelopes.filter (fun env => env.subagent = subagent)

theorem scope_of_snoc (subagent : Option String) (envelopes : List SessionEnvelope)
    (env : SessionEnvelope) : scopeOf subagent (envelopes ++ [env]) =
      scopeOf subagent envelopes ++ if env.subagent = subagent then [env] else [] := by
  by_cases same : env.subagent = subagent <;> simp [scopeOf, List.filter_append, same]

/-! ## The scopes -/

theorem subagent_scopes_snoc (envelopes : List SessionEnvelope) (env : SessionEnvelope) :
    subagentScopes (envelopes ++ [env]) = env.subagent.elim (subagentScopes envelopes)
      (fun id => (subagentScopes envelopes).set id
        (((subagentScopes envelopes).get? id).getD [] ++ [env])) := by
  simp [subagentScopes]

/-- The scope of a subagent holds its envelopes in their order. -/
theorem subagent_scopes_get (envelopes : List SessionEnvelope) (subagent : String) :
    (subagentScopes envelopes).get? subagent =
      if scopeOf (some subagent) envelopes = [] then none
      else some (scopeOf (some subagent) envelopes) := by
  induction envelopes using List.reverseRecOn with
  | nil => rfl
  | append_singleton envelopes env inductionHypothesis =>
    rw [subagent_scopes_snoc]
    cases tag : env.subagent with
    | none => simpa [scope_of_snoc, tag] using inductionHypothesis
    | some id =>
      by_cases same : id = subagent
      · subst same
        simp only [Option.elim_some, OrderedMap.get_set, ↓reduceIte, inductionHypothesis, scope_of_snoc,
          tag]
        by_cases empty : scopeOf (some id) envelopes = [] <;> simp [empty]
      · simpa [scope_of_snoc, tag, same, Ne.symm same] using inductionHypothesis

/-- The scopes are those of the subagents that tag an envelope. -/
theorem subagent_scopes_keys (envelopes : List SessionEnvelope) (subagent : String) :
    subagent ∈ (subagentScopes envelopes).keys ↔ ∃ env ∈ envelopes, env.subagent = some subagent := by
  rw [OrderedMap.mem_keys, subagent_scopes_get]
  by_cases empty : scopeOf (some subagent) envelopes = []
  · have none : ¬ ∃ env ∈ envelopes, env.subagent = some subagent := by simpa [scopeOf] using empty
    simp [empty, none]
  · have held : ∃ env ∈ envelopes, env.subagent = some subagent := by simpa [scopeOf] using empty
    simp [empty, held]

/-- The envelopes before the first one of a subagent. -/
def envelopesBefore (envelopes : List SessionEnvelope) (subagent : String) : List SessionEnvelope :=
  envelopes.takeWhile (fun env => env.subagent ≠ some subagent)

/-- What comes after the first envelope of a subagent does not matter. -/
theorem envelopes_before_append {envelopes : List SessionEnvelope} {subagent : String}
    (occurs : ∃ env ∈ envelopes, env.subagent = some subagent) (more : List SessionEnvelope) :
    envelopesBefore (envelopes ++ more) subagent = envelopesBefore envelopes subagent := by
  induction envelopes with
  | nil => simp at occurs
  | cons env rest inductionHypothesis =>
    by_cases here : env.subagent = some subagent
    · simp [envelopesBefore, here]
    · have later : ∃ env ∈ rest, env.subagent = some subagent := by simpa [here] using occurs
      have same := inductionHypothesis later
      simpa [envelopesBefore, here] using same

/-- A scope comes where its first envelope does: the scopes before it are those of the envelopes
before that one. -/
theorem subagent_scopes_first (envelopes : List SessionEnvelope) {before after : List String}
    {subagent : String} (split : (subagentScopes envelopes).keys = before ++ subagent :: after) :
    (subagentScopes (envelopesBefore envelopes subagent)).keys = before := by
  induction envelopes using List.reverseRecOn generalizing after with
  | nil => simp [subagentScopes, OrderedMap.keys, OrderedMap.empty] at split
  | append_singleton envelopes env inductionHypothesis =>
    have known {rest : List String} (held : (subagentScopes envelopes).keys = before ++ subagent :: rest) :
        (subagentScopes (envelopesBefore (envelopes ++ [env]) subagent)).keys = before := by
      have occurs : ∃ other ∈ envelopes, other.subagent = some subagent := by
        rw [← subagent_scopes_keys, held]
        simp
      rw [envelopes_before_append occurs]
      exact inductionHypothesis held
    rw [subagent_scopes_snoc] at split
    cases tag : env.subagent with
    | none => exact known (by simpa [tag] using split)
    | some id =>
      simp only [tag, Option.elim_some, OrderedMap.keys, OrderedMap.set, keys_set_entry] at split
      split at split
      · exact known split
      · -- the key is new: either it is the one asked for, or that one was there before
        rename_i new
        rcases List.eq_nil_or_concat after with rfl | ⟨rest, last, rfl⟩
        · obtain ⟨keys, same⟩ := List.append_inj' split rfl
          obtain rfl : id = subagent := by simpa using same
          have fresh : ∀ other ∈ envelopes, decide (other.subagent ≠ some id) = true := by
            intro other member
            rw [decide_eq_true_eq]
            intro tagged
            exact new ((subagent_scopes_keys envelopes id).mpr ⟨other, member, tagged⟩)
          rw [envelopesBefore, List.takeWhile_append_of_pos fresh]
          simpa [tag, OrderedMap.keys] using keys
        · rw [List.concat_eq_append, ← List.cons_append, ← List.append_assoc] at split
          exact known (List.append_inj' split rfl).1

/-! ## One scope -/

/-- The top items of a tree that stand as groups. -/
def groups (items : List RenderItem) : List (String × List RenderItem) :=
  items.filterMap RenderItem.group?

/-- The items of the root and of the scopes linked so far, without what they hold. -/
def reducedItems (root : List RenderItem) (done : List (String × List SessionEnvelope)) :
    List RenderItem :=
  root ++ done.flatMap (fun entry => reduceScope entry.2)

/-- The tree after some scopes were linked: each scope is linked or stands alone with its items,
and it stands alone when no tool of its call was reduced before it. -/
structure Linking (root : List RenderItem) (done : List (String × List SessionEnvelope))
    (linked : Linked) : Prop where
  pieces : (pieces (linked.rootItems ++ linked.standalone)).Perm (reducedItems root done)
  placed : (links (linked.rootItems ++ linked.standalone) ++ groups linked.standalone).Perm
    (done.map (fun entry => (entry.1, reduceScope entry.2)))
  rootTop : groups linked.rootItems = []
  standing : ∀ before subagentId envs after, done = before ++ (subagentId, envs) :: after →
    (subagentId ∈ (groups linked.standalone).map Prod.fst ↔
      subagentId ∉ (reducedItems root before).filterMap RenderItem.toolCall?)

theorem reduced_items_snoc (root : List RenderItem) (done : List (String × List SessionEnvelope))
    (subagentId : String) (envs : List SessionEnvelope) :
    reducedItems root (done ++ [(subagentId, envs)]) = reducedItems root done ++ reduceScope envs := by
  simp [reducedItems]

/-- Before any scope is linked the tree is the root scope. -/
theorem Linking.start {root : List RenderItem} (flat : Flat root) : Linking root [] ⟨root, []⟩ where
  pieces := by simp [flat.pieces, reducedItems]
  placed := by simp [flat.links, groups]
  rootTop := flat.groups
  standing := by simp

/-- A scope is attached to a tool of its call, or stands alone when there is none. -/
theorem link_cases (linked : Linked) (subagentId : String) (first : SessionEnvelope)
    (rest : List SessionEnvelope)
    (fresh : subagentId ∉ (links (linked.rootItems ++ linked.standalone)).map Prod.fst) :
    (∃ attached, linked.link subagentId (first :: rest) = attached ∧
        subagentId ∈ calls (linked.rootItems ++ linked.standalone) ∧
        Grown subagentId (reduceScope (first :: rest))
          (nodesOf (linked.rootItems ++ linked.standalone))
          (nodesOf (attached.rootItems ++ attached.standalone)) ∧
        groups attached.rootItems = groups linked.rootItems ∧
        groups attached.standalone = groups linked.standalone) ∨
      (subagentId ∉ calls (linked.rootItems ++ linked.standalone) ∧
        linked.link subagentId (first :: rest) =
          ⟨linked.rootItems, linked.standalone ++
            [.subagentGroup (baseOf first) subagentId (reduceScope (first :: rest))]⟩) := by
  simp only [links_append, List.map_append, List.mem_append, not_or] at fresh
  simp only [Linked.link, calls_append, List.mem_append]
  cases inRoot : attachToItems subagentId (reduceScope (first :: rest)) linked.rootItems with
  | some rootItems =>
    left
    obtain ⟨grown, _, grouped⟩ := attach_to_items_grown inRoot fresh.1
    refine ⟨_, rfl, Or.inl ?_, ?_, grouped, rfl⟩
    · by_contra missing
      rw [(attach_to_items_none _ _ _).mpr missing] at inRoot
      contradiction
    · simpa [nodes_of_flat_map] using grown.within [] (nodesOf linked.standalone)
  | none =>
    have missing := (attach_to_items_none _ _ _).mp inRoot
    cases inGroups : attachToItems subagentId (reduceScope (first :: rest)) linked.standalone with
    | some standalone =>
      left
      obtain ⟨grown, _, grouped⟩ := attach_to_items_grown inGroups fresh.2
      refine ⟨_, rfl, Or.inr ?_, ?_, rfl, grouped⟩
      · by_contra absent
        rw [(attach_to_items_none _ _ _).mpr absent] at inGroups
        contradiction
      · simpa [nodes_of_flat_map] using grown.within (nodesOf linked.rootItems) []
    | none =>
      right
      exact ⟨not_or.mpr ⟨missing, (attach_to_items_none _ _ _).mp inGroups⟩, rfl⟩

/-- Linking one more scope keeps the tree as it should be. -/
theorem Linking.step {root : List RenderItem} {done : List (String × List SessionEnvelope)}
    {linked : Linked} (linking : Linking root done linked) {subagentId : String}
    {envs : List SessionEnvelope} (nonempty : envs ≠ []) (fresh : subagentId ∉ done.map Prod.fst) :
    Linking root (done ++ [(subagentId, envs)]) (linked.link subagentId envs) := by
  obtain ⟨first, rest, rfl⟩ := List.exists_cons_of_ne_nil nonempty
  have flat := reduce_scope_flat (first :: rest)
  have placedKeys := (linking.placed.map Prod.fst)
  rw [List.map_append, List.map_map] at placedKeys
  have unplaced := fun placed => fresh (placedKeys.mem_iff.mp placed)
  simp only [List.mem_append] at unplaced
  have called : subagentId ∈ calls (linked.rootItems ++ linked.standalone) ↔
      subagentId ∈ (reducedItems root done).filterMap RenderItem.toolCall? := by
    rw [calls_pieces]
    exact (linking.pieces.filterMap _).mem_iff
  rcases link_cases linked subagentId first rest (fun linked => unplaced (Or.inl linked)) with
    ⟨attached, equal, found, grown, rootKept, standaloneKept⟩ | ⟨missing, equal⟩
  · rw [equal]
    refine ⟨?_, ?_, rootKept.trans linking.rootTop, ?_⟩
    · rw [reduced_items_snoc, ← flat.pieces]
      exact grown.pieces.trans (linking.pieces.append_right _)
    · have added := grown.links
      rw [flat.alone, flat.links, List.append_nil] at added
      rw [List.map_append, standaloneKept]
      exact (added.append_right _).trans ((linking.placed.cons _).trans (List.perm_append_singleton _ _).symm)
    · intro before other envs after split
      rw [standaloneKept]
      rcases List.eq_nil_or_concat after with rfl | ⟨later, last, rfl⟩
      · obtain ⟨rfl, same⟩ := List.append_inj' split rfl
        obtain ⟨rfl, rfl⟩ : subagentId = other ∧ first :: rest = envs := by simpa using same
        exact iff_of_false (fun grouped => unplaced (Or.inr grouped)) (not_not.mpr (called.mp found))
      · rw [List.concat_eq_append, ← List.cons_append, ← List.append_assoc] at split
        exact linking.standing before other envs later (List.append_inj' split rfl).1
  · rw [equal]
    have stands : groups (linked.standalone ++
        [.subagentGroup (baseOf first) subagentId (reduceScope (first :: rest))]) =
        groups linked.standalone ++ [(subagentId, reduceScope (first :: rest))] := by
      simp [groups, RenderItem.group?, flat.alone]
    refine ⟨?_, ?_, linking.rootTop, ?_⟩
    · have added : Sync.pieces [.subagentGroup (baseOf first) subagentId (reduceScope (first :: rest))] =
          reduceScope (first :: rest) := by
        rw [Sync.pieces, nodesOf, nodesOf, List.append_nil, RenderItem.nodes, List.filterMap_cons,
          RenderItem.piece_group]
        exact flat.pieces
      rw [reduced_items_snoc, ← List.append_assoc, pieces_append, added]
      exact linking.pieces.append_right _
    · have added : links [.subagentGroup (baseOf first) subagentId (reduceScope (first :: rest))] = [] := by
        rw [links, nodesOf, nodesOf, List.append_nil, RenderItem.nodes, List.filterMap_cons,
          RenderItem.link_group]
        exact flat.links
      rw [← List.append_assoc, links_append, added, List.append_nil, stands, List.map_append,
        ← List.append_assoc]
      exact linking.placed.append_right _
    · intro before other envs after split
      rw [stands, List.map_append, List.mem_append]
      rcases List.eq_nil_or_concat after with rfl | ⟨later, last, rfl⟩
      · obtain ⟨rfl, same⟩ := List.append_inj' split rfl
        obtain ⟨rfl, rfl⟩ : subagentId = other ∧ first :: rest = envs := by simpa using same
        exact iff_of_true (Or.inr (by simp)) (fun held => missing (called.mpr held))
      · rw [List.concat_eq_append, ← List.cons_append, ← List.append_assoc] at split
        obtain ⟨earlier, same⟩ := List.append_inj' split rfl
        have different : other ≠ subagentId := by
          rintro rfl
          exact fresh (by simp [earlier])
        rw [← linking.standing before other envs later earlier]
        simp [different]

/-- Linking all scopes makes a tree as it should be. -/
theorem Linking.run {root : List RenderItem} {done entries : List (String × List SessionEnvelope)}
    {linked : Linked} (linking : Linking root done linked)
    (distinct : ((done ++ entries).map Prod.fst).Nodup) (nonempty : ∀ entry ∈ entries, entry.2 ≠ []) :
    Linking root (done ++ entries)
      (entries.foldl (fun linked (subagentId, envs) => linked.link subagentId envs) linked) := by
  induction entries generalizing done linked with
  | nil => simpa using linking
  | cons entry rest inductionHypothesis =>
    obtain ⟨subagentId, envs⟩ := entry
    have fresh : subagentId ∉ done.map Prod.fst := by
      intro known
      rw [List.map_append, List.map_cons, List.nodup_append] at distinct
      exact distinct.2.2 subagentId known subagentId List.mem_cons_self rfl
    have stepped := linking.step (nonempty _ List.mem_cons_self) fresh
    rw [List.append_cons] at distinct ⊢
    exact inductionHypothesis stepped distinct (fun entry member => nonempty entry (List.mem_cons_of_mem _ member))

/-- The entries of the scopes hold the envelopes of each. -/
theorem subagent_scopes_entry {sorted : List SessionEnvelope} {entry : String × List SessionEnvelope}
    (member : entry ∈ (subagentScopes sorted).entries) : entry.2 = scopeOf (some entry.1) sorted ∧ entry.2 ≠ [] := by
  obtain ⟨subagentId, envs⟩ := entry
  rw [OrderedMap.mem_entries, subagent_scopes_get] at member
  split at member
  · contradiction
  · rename_i occurs
    cases member
    exact ⟨rfl, occurs⟩

/-- All scopes: the root and those of the subagents that tag an envelope. -/
def scopesOf (sorted : List SessionEnvelope) : List (Option String) :=
  none :: (subagentScopes sorted).keys.map some

/-- Splitting a list by distinct keys keeps its items. -/
theorem split_perm {α κ : Type} [DecidableEq κ] (key : α → κ) {keys : List κ} (distinct : keys.Nodup)
    {items : List α} (covered : ∀ item ∈ items, key item ∈ keys) :
    (keys.flatMap (fun value => items.filter (fun item => key item = value))).Perm items := by
  induction items with
  | nil => simp
  | cons item rest inductionHypothesis =>
    have later := inductionHypothesis (fun other member => covered other (List.mem_cons_of_mem _ member))
    obtain ⟨left, right, rfl⟩ := List.append_of_mem (covered item List.mem_cons_self)
    have apart := List.nodup_middle.mp distinct
    rw [List.nodup_cons, List.mem_append, not_or] at apart
    have others {values : List κ} (missing : key item ∉ values) :
        values.flatMap (fun value => (item :: rest).filter (fun item => key item = value)) =
          values.flatMap (fun value => rest.filter (fun item => key item = value)) := by
      apply List.flatMap_congr
      intro value member
      have different : key item ≠ value := fun same => missing (same ▸ member)
      simp [different]
    rw [List.flatMap_append, List.flatMap_cons, others apart.1.1, others apart.1.2]
    rw [List.flatMap_append, List.flatMap_cons] at later
    simp only [List.filter_cons, decide_true, ↓reduceIte]
    exact List.perm_middle.trans (later.cons item)

/-- Every envelope is in one scope. -/
theorem scopes_perm (sorted : List SessionEnvelope) :
    ((scopesOf sorted).flatMap (fun subagent => scopeOf subagent sorted)).Perm sorted := by
  apply split_perm SessionEnvelope.subagent
  · rw [scopesOf, List.nodup_cons]
    exact ⟨by simp, (subagentScopes sorted).distinct.map (Option.some_injective _)⟩
  · intro env member
    cases tag : env.subagent with
    | none => exact List.mem_cons_self
    | some subagent =>
      apply List.mem_cons_of_mem
      exact List.mem_map_of_mem ((subagent_scopes_keys sorted subagent).mpr ⟨env, member, tag⟩)

/-- A transcript shows the items of every scope once; each subagent is linked or stands alone with
its items, and it stands alone when no tool of its call was reduced before it. -/
structure Linked.Whole (sorted : List SessionEnvelope) (tree : List RenderItem) : Prop where
  pieces : (pieces tree).Perm
    ((scopesOf sorted).flatMap (fun subagent => reduceScope (scopeOf subagent sorted)))
  placed : (links tree ++ groups tree).Perm
    ((subagentScopes sorted).entries.map (fun entry => (entry.1, reduceScope entry.2)))
  standing : ∀ before subagentId envs after,
    (subagentScopes sorted).entries = before ++ (subagentId, envs) :: after →
    (subagentId ∈ (groups tree).map Prod.fst ↔
      subagentId ∉ (reducedItems (reduceScope (scopeOf none sorted)) before).filterMap
        RenderItem.toolCall?)

/-- The order of the top items does not matter. -/
theorem Linking.whole {sorted : List SessionEnvelope} {linked : Linked} {tree : List RenderItem}
    (linking : Linking (reduceScope (scopeOf none sorted)) (subagentScopes sorted).entries linked)
    (same : tree.Perm (linked.rootItems ++ linked.standalone)) : Linked.Whole sorted tree := by
  have nodes := nodes_of_perm same
  have grouped : (groups tree).Perm (groups linked.standalone) := by
    have split := same.filterMap RenderItem.group?
    have top := linking.rootTop
    rw [groups] at top
    rwa [List.filterMap_append, top] at split
  have scopes : reducedItems (reduceScope (scopeOf none sorted)) (subagentScopes sorted).entries =
      (scopesOf sorted).flatMap (fun subagent => reduceScope (scopeOf subagent sorted)) := by
    simp only [reducedItems, scopesOf, List.flatMap_cons, OrderedMap.keys, List.map_map, List.flatMap_map]
    congr 1
    apply List.flatMap_congr
    intro entry member
    rw [(subagent_scopes_entry member).1]
    rfl
  refine ⟨scopes ▸ (nodes.filterMap _).trans linking.pieces, ?_, ?_⟩
  · exact ((nodes.filterMap _).append grouped).trans linking.placed
  · intro before subagentId envs after split
    rw [(grouped.map Prod.fst).mem_iff, linking.standing before subagentId envs after split]

/-- The reducer makes a whole transcript. -/
theorem reduce_sorted_whole (sorted : List SessionEnvelope) : Linked.Whole sorted (reduceSorted sorted) := by
  have linking := (Linking.start (reduce_scope_flat (scopeOf none sorted))).run
    (subagentScopes sorted).distinct (fun entry member => (subagent_scopes_entry member).2)
  apply linking.whole
  have root : sorted.filter (fun env => env.subagent.isNone) = scopeOf none sorted := by
    apply List.filter_congr
    intro env _
    cases env.subagent <;> rfl
  rw [reduceSorted, root, linkSubagentScopes]
  simp only [List.isEmpty_iff]
  split
  · rename_i none
    rw [none, List.append_nil]
  · rw [stableSortByTime, sort_indexed]
    exact sort_perm _ _

end Kvy.Web.Sync
