import CorpusQuery.Proofs.Arena.Triple

/-! The cells that a tree takes up in an arena, where `label` names connectives. -/

namespace CorpusQuery

variable (label : Connective → Text)

def Group.cell (isRoot : Bool) (g : Group) : GroupCell :=
  ⟨g.operator, label g.operator, isRoot, g.children.map Node.id⟩

namespace Node

def entry : Node → Entry
  | .leaf _ c => .leaf c
  | .group id operator children => .group (Group.cell label false ⟨id, operator, children⟩)

mutual

/-- The cells of a node in the group `parent`, and of all below it. -/
def cells (parent : Option NodeId) : Node → Heap
  | .leaf id c => {(id, ⟨parent, .leaf c⟩)}
  | .group id operator children =>
    {(id, ⟨parent, .group (Group.cell label false ⟨id, operator, children⟩)⟩)} +
      cellsAll (some id) children

def cellsAll (parent : Option NodeId) : List Node → Heap
  | [] => 0
  | n :: rest => n.cells parent + cellsAll parent rest

end

theorem cells_group (parent : Option NodeId) (id : NodeId) (operator : Connective)
    (children : List Node) :
    (group id operator children).cells label parent =
      {(id, ⟨parent, .group ⟨operator, label operator, false, children.map Node.id⟩⟩)} +
        cellsAll label (some id) children := rfl

/-- The cells below a node. -/
def inner : Node → Heap
  | .leaf _ _ => 0
  | .group id _ children => cellsAll label (some id) children

theorem cells_eq (parent : Option NodeId) (n : Node) :
    n.cells label parent = {(n.id, ⟨parent, n.entry label⟩)} + n.inner label := by
  cases n with
  | leaf id c => simp [cells, inner, entry, Node.id]
  | group id operator children => simp [cells, inner, entry, Node.id]

@[simp] theorem cellsAll_nil (parent : Option NodeId) : cellsAll label parent [] = 0 := rfl

@[simp] theorem cellsAll_cons (parent : Option NodeId) (n : Node) (rest : List Node) :
    cellsAll label parent (n :: rest) = n.cells label parent + cellsAll label parent rest := rfl

@[simp] theorem cellsAll_append (parent : Option NodeId) (ms ns : List Node) :
    cellsAll label parent (ms ++ ns) = cellsAll label parent ms + cellsAll label parent ns := by
  induction ms with
  | nil => simp
  | cons m ms ih => simp [ih, add_assoc]

mutual

theorem ids_cells (parent : Option NodeId) : (n : Node) → (n.cells label parent).ids = n.ids
  | .leaf _ _ => rfl
  | .group id operator children => by
    rw [cells, Heap.ids_add, ids_cellsAll (some id) children]
    rfl

theorem ids_cellsAll (parent : Option NodeId) :
    (ns : List Node) → (cellsAll label parent ns).ids = idsAll ns
  | [] => rfl
  | n :: rest => by
    rw [cellsAll_cons, Heap.ids_add, ids_cells parent n, ids_cellsAll parent rest]
    rfl

end

theorem map_id_sublist : (ns : List Node) → (ns.map Node.id).Sublist (idsAll ns)
  | [] => .slnil
  | .leaf _ _ :: rest => .cons_cons _ (map_id_sublist rest)
  | .group _ _ _ :: rest => .cons_cons _ ((map_id_sublist rest).trans (List.sublist_append_right ..))

/-- Siblings have ids of their own. -/
theorem nodup_map_id {parent : Option NodeId} {ns : List Node}
    (h : (cellsAll label parent ns).ids.Nodup) : (ns.map Node.id).Nodup := by
  rw [ids_cellsAll, Multiset.coe_nodup] at h
  exact h.sublist (map_id_sublist ns)

end Node

namespace Group

/-- The cells of a group and of all below it. -/
def placed (parent : Option NodeId) (isRoot : Bool) (g : Group) : Heap :=
  {(g.id, ⟨parent, .group (g.cell label isRoot)⟩)} + Node.cellsAll label (some g.id) g.children

theorem cells_node (parent : Option NodeId) (g : Group) :
    g.node.cells label parent = g.placed label parent false := rfl

/-- The cells of the tree of a token. -/
def cells (root : Group) : Heap := root.placed label none true

theorem ids_cells (root : Group) : (root.cells label).ids = root.node.ids := by
  rw [cells, placed, Heap.ids_add, Node.ids_cellsAll]
  rfl

end Group

namespace Context

/-- The cells around a group with the number `hole`. -/
def rest (hole : NodeId) : Context → Heap
  | top => 0
  | under outer id operator left right =>
    {(id, ⟨outer.parent?, .group ⟨operator, label operator, outer.isRoot,
      left.map Node.id ++ hole :: right.map Node.id⟩⟩)} +
      Node.cellsAll label (some id) left + Node.cellsAll label (some id) right + outer.rest id

theorem cells_fill (k : Context) (g : Group) :
    (k.fill g).cells label = g.placed label k.parent? k.isRoot + k.rest label g.id := by
  induction k generalizing g with
  | top => simp [fill, rest, Group.cells, parent?, isRoot]
  | under outer id operator left right ih =>
    -- The group in the hole is a child of the group around it, which the induction puts into the
    -- outer hole.
    rw [fill, ih, rest]
    simp only [Group.placed, Group.cell, Node.cellsAll_append, Node.cellsAll_cons,
      Group.cells_node, List.map_append, List.map_cons, Group.id_node]
    simp only [parent?, isRoot]
    abel

/-- The cells of a tree, seen from a place between two children. -/
theorem cells_fill_append (k : Context) (id : NodeId) (operator : Connective)
    (left right : List Node) :
    (k.fill ⟨id, operator, left ++ right⟩).cells label =
      {(id, ⟨k.parent?, .group ⟨operator, label operator, k.isRoot,
        left.map Node.id ++ right.map Node.id⟩⟩)} + Node.cellsAll label (some id) left +
        Node.cellsAll label (some id) right + k.rest label id := by
  rw [cells_fill, Group.placed, Group.cell, List.map_append, Node.cellsAll_append, ← add_assoc]

/-- The cells of a tree, seen from a group and one of its subgroups. -/
theorem cells_fill_sub (k : Context) (id sub : NodeId) (around operator : Connective)
    (left ms right : List Node) :
    (k.fill ⟨id, around, left ++ .group sub operator ms :: right⟩).cells label =
      {(id, ⟨k.parent?, .group ⟨around, label around, k.isRoot,
        left.map Node.id ++ sub :: right.map Node.id⟩⟩)} +
        {(sub, ⟨some id, .group ⟨operator, label operator, false, ms.map Node.id⟩⟩)} +
        Node.cellsAll label (some sub) ms + (Node.cellsAll label (some id) left +
        Node.cellsAll label (some id) right + k.rest label id) := by
  rw [cells_fill_append, Node.cellsAll_cons, Node.cells_group, List.map_cons]
  simp only [Node.id]
  abel

end Context

end CorpusQuery
