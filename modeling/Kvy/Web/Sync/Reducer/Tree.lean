import Kvy.Web.Sync.Reducer.Reduce
import Mathlib.Data.List.Perm.Basic

/-!
# The items of a tree

A transcript is a tree: tools hold the items of the subagent they spawned, and groups hold
those of a subagent without a tool. Attaching the items of one subagent to a tool that holds
none adds them to the tree and drops nothing.
-/

namespace Kvy.Web.Sync

open General Wire

mutual
/-- An item and all items below it. -/
def RenderItem.nodes : RenderItem → List RenderItem
  | .tool base started permission (some items) => .tool base started permission (some items) :: nodesOf items
  | .subagentGroup base subagentId items => .subagentGroup base subagentId items :: nodesOf items
  | item => [item]
/-- All items of a tree. -/
def nodesOf : List RenderItem → List RenderItem
  | [] => []
  | item :: rest => item.nodes ++ nodesOf rest
end

/-- An item without what it holds. -/
def RenderItem.alone : RenderItem → RenderItem
  | .tool base started permission _ => .tool base started permission none
  | .subagentGroup base subagentId _ => .subagentGroup base subagentId []
  | item => item

/-- An item that is not a group, without what it holds. -/
def RenderItem.piece? : RenderItem → Option RenderItem
  | .subagentGroup .. => none
  | item => some item.alone

/-- The call of a tool. -/
def RenderItem.toolCall? : RenderItem → Option String
  | .tool _ started _ _ => some started.call
  | _ => none

/-- The call of a tool with the items of its subagent, each without what it holds. -/
def RenderItem.link? : RenderItem → Option (String × List RenderItem)
  | .tool _ started _ (some items) => some (started.call, items.map alone)
  | _ => none

/-- The subagent of a group with its items, each without what it holds. -/
def RenderItem.group? : RenderItem → Option (String × List RenderItem)
  | .subagentGroup _ subagentId items => some (subagentId, items.map alone)
  | _ => none

@[simp] theorem RenderItem.link_unlinked (base : RenderItemBase) (started : ToolCall)
    (permission : Option PermissionInfo) :
    (RenderItem.tool base started permission none).link? = none := rfl

@[simp] theorem RenderItem.link_linked (base : RenderItemBase) (started : ToolCall)
    (permission : Option PermissionInfo) (items : List RenderItem) :
    (RenderItem.tool base started permission (some items)).link? =
      some (started.call, items.map alone) := rfl

@[simp] theorem RenderItem.link_group (base : RenderItemBase) (subagentId : String)
    (items : List RenderItem) : (RenderItem.subagentGroup base subagentId items).link? = none := rfl

@[simp] theorem RenderItem.piece_group (base : RenderItemBase) (subagentId : String)
    (items : List RenderItem) : (RenderItem.subagentGroup base subagentId items).piece? = none := rfl

/-- The items of a tree that are not groups. -/
def pieces (items : List RenderItem) : List RenderItem := (nodesOf items).filterMap RenderItem.piece?

/-- The subagents that a tree links to tools. -/
def links (items : List RenderItem) : List (String × List RenderItem) :=
  (nodesOf items).filterMap RenderItem.link?

/-- The calls of the tools of a tree. -/
def calls (items : List RenderItem) : List String := (nodesOf items).filterMap RenderItem.toolCall?

/-! ## Trees as lists -/

theorem nodes_of_flat_map
    (items : List RenderItem) : nodesOf items = items.flatMap RenderItem.nodes := by
  induction items with
  | nil => rfl
  | cons item rest inductionHypothesis => simp [nodesOf, inductionHypothesis]

theorem pieces_append (first second : List RenderItem) :
    pieces (first ++ second) = pieces first ++ pieces second := by
  simp [pieces, nodes_of_flat_map]

theorem links_append (first second : List RenderItem) :
    links (first ++ second) = links first ++ links second := by
  simp [links, nodes_of_flat_map]

theorem calls_append (first second : List RenderItem) :
    calls (first ++ second) = calls first ++ calls second := by
  simp [calls, nodes_of_flat_map]

/-- Trees with the same items in another order have the same items below. -/
theorem nodes_of_perm {first second : List RenderItem} (same : first.Perm second) :
    (nodesOf first).Perm (nodesOf second) := by
  rw [nodes_of_flat_map, nodes_of_flat_map]
  exact same.flatMap_right _

/-- The calls of a tree are those of its pieces. -/
theorem calls_pieces (items : List RenderItem) :
    calls items = (pieces items).filterMap RenderItem.toolCall? := by
  simp only [calls, pieces, List.filterMap_filterMap]
  congr 1
  funext item
  cases item <;> rfl

/-- Items that hold nothing are the pieces of their tree. -/
def Flat (items : List RenderItem) : Prop := ∀ item ∈ items, item.nodes = [item] ∧ item.piece? = some item

variable {items : List RenderItem}

theorem Flat.nodes (flat : Flat items) : nodesOf items = items := by
  induction items with
  | nil => rfl
  | cons item rest inductionHypothesis =>
    have here := (flat item List.mem_cons_self).1
    have later := inductionHypothesis (fun other member => flat other (List.mem_cons_of_mem _ member))
    simp [nodesOf, here, later]

theorem Flat.pieces (flat : Flat items) : pieces items = items := by
  rw [Sync.pieces, flat.nodes]
  have shown : ∀ item ∈ items, item.piece? = some item := fun item member => (flat item member).2
  rw [List.filterMap_congr shown, List.filterMap_some]

theorem Flat.links (flat : Flat items) : links items = [] := by
  rw [Sync.links, flat.nodes, List.filterMap_eq_nil_iff]
  intro item member
  have shown := (flat item member).2
  cases item with
  | tool base started permission subagent =>
    cases subagent with
    | none => rfl
    | some items => simp [RenderItem.piece?, RenderItem.alone] at shown
  | event | permPlaceholder | orphanToolEnd | subagentGroup => rfl

theorem Flat.alone (flat : Flat items) : items.map RenderItem.alone = items := by
  have shown : ∀ item ∈ items, item.alone = item := by
    intro item member
    have shown := (flat item member).2
    cases item with
    | subagentGroup => simp [RenderItem.piece?] at shown
    | event | permPlaceholder | tool | orphanToolEnd => simpa [RenderItem.piece?] using shown
  rw [List.map_congr_left shown, List.map_id']

theorem Flat.groups (flat : Flat items) : items.filterMap RenderItem.group? = [] := by
  rw [List.filterMap_eq_nil_iff]
  intro item member
  have shown := (flat item member).2
  cases item with
  | subagentGroup => simp [RenderItem.piece?] at shown
  | event | permPlaceholder | tool | orphanToolEnd => rfl

/-- The items of a reduced scope hold nothing. -/
theorem reduce_scope_flat (envs : List SessionEnvelope) : Flat (reduceScope envs) := by
  intro item member
  simp only [reduceScope, List.mem_map] at member
  obtain ⟨held, _, rfl⟩ := member
  cases held <;> exact ⟨rfl, rfl⟩

/-! ## Attaching -/

/-- What attaching children to a tool of a call makes of the items below. -/
structure Grown (call : String) (children before after : List RenderItem) : Prop where
  pieces : (after.filterMap RenderItem.piece?).Perm (before.filterMap RenderItem.piece? ++ pieces children)
  links : (after.filterMap RenderItem.link?).Perm
    ((call, children.map RenderItem.alone) :: (before.filterMap RenderItem.link? ++ links children))

/-- Growth of a part is growth of the whole. -/
theorem Grown.within {call : String} {children before after : List RenderItem}
    (grown : Grown call children before after) (left right : List RenderItem) :
    Grown call children (left ++ before ++ right) (left ++ after ++ right) where
  pieces := by
    simp only [List.filterMap_append]
    have inner := ((grown.pieces.append_left (left.filterMap RenderItem.piece?)).append_right
      (right.filterMap RenderItem.piece?))
    refine inner.trans ?_
    simp only [List.append_assoc]
    exact ((List.perm_append_comm).append_left _).append_left _
  links := by
    simp only [List.filterMap_append]
    have inner := ((grown.links.append_left (left.filterMap RenderItem.link?)).append_right
      (right.filterMap RenderItem.link?))
    refine inner.trans ?_
    simp only [List.append_assoc, List.cons_append]
    refine List.perm_middle.trans (List.Perm.cons _ ?_)
    exact ((List.perm_append_comm).append_left _).append_left _

mutual
/-- A tool that is given its first children grows by them. -/
theorem attach_to_item_grown
    {call : String} {children : List RenderItem} {item attached : RenderItem}
    (found : attachToItem call children item = some attached)
    (fresh : call ∉ (item.nodes.filterMap RenderItem.link?).map Prod.fst) :
    Grown call children item.nodes attached.nodes ∧ attached.alone = item.alone ∧
      attached.group? = item.group? := by
  match item with
  | .tool base started permission none =>
    simp only [attachToItem, Option.ite_none_right_eq_some, Option.some.injEq] at found
    obtain ⟨rfl, rfl⟩ := found
    refine ⟨⟨?_, ?_⟩, rfl, rfl⟩
    · simp [RenderItem.nodes, RenderItem.piece?, RenderItem.alone, pieces]
    · simp [RenderItem.nodes, List.filterMap_cons, links]
  | .tool base started permission (some items) =>
    have other : started.call ≠ call := by
      rintro rfl
      exact fresh (by simp [RenderItem.nodes])
    simp only [attachToItem, if_neg other] at found
    obtain ⟨changed, below, rfl⟩ := Option.map_eq_some_iff.mp found
    have freshBelow : call ∉ (links items).map Prod.fst := by
      intro linked
      apply fresh
      simp only [RenderItem.nodes, List.filterMap_cons, RenderItem.link_linked, List.map_cons]
      exact List.mem_cons_of_mem _ linked
    obtain ⟨grown, kept, _⟩ := attach_to_items_grown below freshBelow
    refine ⟨⟨?_, ?_⟩, rfl, rfl⟩
    · simpa [RenderItem.nodes, RenderItem.piece?, RenderItem.alone] using grown.pieces
    · simp only [RenderItem.nodes, List.filterMap_cons, RenderItem.link_linked, kept]
      exact (grown.links.cons _).trans (List.Perm.swap _ _ _)
  | .subagentGroup base subagentId items =>
    simp only [attachToItem] at found
    obtain ⟨changed, below, rfl⟩ := Option.map_eq_some_iff.mp found
    have freshBelow : call ∉ (links items).map Prod.fst := by
      simpa only [RenderItem.nodes, List.filterMap_cons, RenderItem.link_group, links] using fresh
    obtain ⟨grown, kept, _⟩ := attach_to_items_grown below freshBelow
    refine ⟨⟨?_, ?_⟩, rfl, by simp only [RenderItem.group?, kept]⟩
    · simpa only [RenderItem.nodes, List.filterMap_cons, RenderItem.piece_group] using grown.pieces
    · simpa only [RenderItem.nodes, List.filterMap_cons, RenderItem.link_group] using grown.links
  | .event .. | .permPlaceholder .. | .orphanToolEnd .. => simp [attachToItem] at found
/-- A tree whose tool is given its first children grows by them. -/
theorem attach_to_items_grown {call : String} {children items attached : List RenderItem}
    (found : attachToItems call children items = some attached)
    (fresh : call ∉ (links items).map Prod.fst) :
    Grown call children (nodesOf items) (nodesOf attached) ∧
      attached.map RenderItem.alone = items.map RenderItem.alone ∧
      attached.filterMap RenderItem.group? = items.filterMap RenderItem.group? := by
  match items with
  | [] => simp [attachToItems] at found
  | item :: rest =>
    simp only [links, nodesOf, List.filterMap_append, List.map_append, List.mem_append, not_or] at fresh
    simp only [attachToItems] at found
    split at found
    · rename_i changed here
      cases found
      obtain ⟨grown, kept, grouped⟩ := attach_to_item_grown here fresh.1
      refine ⟨?_, by simp [kept], by simp [List.filterMap_cons, grouped]⟩
      simpa [nodesOf] using grown.within [] (nodesOf rest)
    · obtain ⟨changed, later, rfl⟩ := Option.map_eq_some_iff.mp found
      obtain ⟨grown, kept, grouped⟩ := attach_to_items_grown later fresh.2
      refine ⟨?_, by simp [kept], by simp [List.filterMap_cons, grouped]⟩
      simpa [nodesOf] using grown.within item.nodes []
end

mutual
/-- No tool of the call is found in an item exactly when there is none. -/
theorem attach_to_item_none (call : String) (children : List RenderItem) (item : RenderItem) :
    attachToItem call children item = none ↔ call ∉ item.nodes.filterMap RenderItem.toolCall? := by
  match item with
  | .tool base started permission none =>
    simp [attachToItem, RenderItem.nodes, RenderItem.toolCall?, eq_comm]
  | .tool base started permission (some items) =>
    have below := attach_to_items_none call children items
    by_cases same : started.call = call
    · simp [attachToItem, RenderItem.nodes, RenderItem.toolCall?, same]
    · simp [attachToItem, RenderItem.nodes, RenderItem.toolCall?, same, below, calls, Ne.symm same]
  | .subagentGroup base subagentId items =>
    have below := attach_to_items_none call children items
    simp [attachToItem, RenderItem.nodes, RenderItem.toolCall?, below, calls]
  | .event .. | .permPlaceholder .. | .orphanToolEnd .. =>
    simp [attachToItem, RenderItem.nodes, RenderItem.toolCall?]
/-- No tool of the call is found in a tree exactly when there is none. -/
theorem attach_to_items_none (call : String) (children items : List RenderItem) :
    attachToItems call children items = none ↔ call ∉ calls items := by
  match items with
  | [] => simp [attachToItems, calls, nodesOf]
  | item :: rest =>
    have here := attach_to_item_none call children item
    have later := attach_to_items_none call children rest
    simp only [attachToItems, calls, nodesOf, List.filterMap_append, List.mem_append, not_or, ← here]
    cases found : attachToItem call children item with
    | some changed => simp
    | none => simp [later, calls]
end

end Kvy.Web.Sync
