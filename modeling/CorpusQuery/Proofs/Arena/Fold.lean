import CorpusQuery.Proofs.Arena.Cells

/-! Reading an arena from the leaves up comes to reading the tree that it holds. -/

namespace CorpusQuery

variable (label : Connective → Text) {α : Type} (leaf : NodeId → Constraint → α)
  (group : NodeId → GroupCell → List α → α)

namespace Node

mutual

def fold : Node → α
  | .leaf id c => leaf id c
  | .group id operator children =>
    group id (Group.cell label false ⟨id, operator, children⟩) (foldAll children)

def foldAll : List Node → List α
  | [] => []
  | n :: rest => fold n :: foldAll rest

end

end Node

def Group.fold (g : Group) : α :=
  group g.id (g.cell label true) (Node.foldAll label leaf group g.children)

mutual

theorem Node.arena_fold {n : NodeId} : (m : Node) → (parent : Option NodeId) → (h : Heap) →
    (a : Arena) → a.Holds n (m.cells label parent + h) →
    a.fold leaf group m.id = .ok (m.fold label leaf group)
  | .leaf id c, parent, h, a, ha => by
    rw [Node.id, Arena.fold, ha.cell?]
    rfl
  | .group id operator children, parent, h, a, ha => by
    rw [Node.cells, add_assoc] at ha
    have hchildren := Node.arena_foldAll children (some id) h _ ha.remove
    rw [Node.id, Arena.fold, ha.cell?]
    simp only [Group.cell, hchildren]
    rfl

theorem Node.arena_foldAll {n : NodeId} : (ms : List Node) → (parent : Option NodeId) →
    (h : Heap) → (a : Arena) → a.Holds n (Node.cellsAll label parent ms + h) →
    (ms.map Node.id).mapM (a.fold leaf group) = .ok (Node.foldAll label leaf group ms)
  | [], _, _, _, _ => rfl
  | m :: rest, parent, h, a, ha => by
    rw [Node.cellsAll_cons, add_assoc] at ha
    have hfirst := Node.arena_fold m parent _ a ha
    have hrest := Node.arena_foldAll rest parent _ a (ha.reorder (add_left_comm ..))
    rw [List.map_cons, List.mapM_cons, hfirst, hrest]
    rfl

end

/-- A group is read off the arena wherever it stands. -/
theorem Group.arena_fold_placed {n : NodeId} {parent : Option NodeId} {isRoot : Bool} {h : Heap}
    {a : Arena} (g : Group) (ha : a.Holds n (g.placed label parent isRoot + h)) :
    a.fold leaf group g.id =
      .ok (group g.id (g.cell label isRoot) (Node.foldAll label leaf group g.children)) := by
  rw [Group.placed, add_assoc] at ha
  have hchildren := Node.arena_foldAll label leaf group g.children (some g.id) h _ ha.remove
  rw [Arena.fold, ha.cell?]
  simp only [Group.cell, hchildren]
  rfl

/-- A whole tree is read off the arena without a failure. -/
theorem Group.arena_fold {n : NodeId} {h : Heap} {a : Arena} (g : Group)
    (ha : a.Holds n (g.cells label + h)) :
    a.fold leaf group g.id = .ok (g.fold label leaf group) :=
  g.arena_fold_placed label leaf group ha

mutual

theorem Node.fold_ids : (m : Node) →
    m.fold label (fun id _ => [id]) (fun id _ parts => id :: parts.flatten) = m.ids
  | .leaf _ _ => rfl
  | .group id operator children => by
    rw [Node.fold, Node.ids, Node.flatten_foldAll_ids children]

theorem Node.flatten_foldAll_ids : (ms : List Node) →
    (Node.foldAll label (fun id _ => [id]) (fun id _ parts => id :: parts.flatten) ms).flatten =
      Node.idsAll ms
  | [] => rfl
  | m :: rest => by
    rw [Node.foldAll, List.flatten_cons, Node.fold_ids m, Node.flatten_foldAll_ids rest,
      Node.idsAll]

end

/-- The nodes from the root of a tree downwards are those of the tree. -/
theorem Group.arena_below {n : NodeId} {h : Heap} {a : Arena} (g : Group)
    (ha : a.Holds n (g.cells label + h)) : a.below g.id = .ok g.node.ids := by
  rw [Arena.below, Group.arena_fold label _ _ g ha, Group.fold, Node.flatten_foldAll_ids]
  rfl

end CorpusQuery
