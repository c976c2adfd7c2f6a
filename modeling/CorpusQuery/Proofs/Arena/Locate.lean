import CorpusQuery.Draft.Step
import CorpusQuery.Proofs.Arena.Cells

/-! Whatever cell an arena holds belongs to a place in the tree of a token. -/

namespace CorpusQuery

variable (label : Connective → Text)

/-- The number and the cell of a child of some group in the tree. -/
def Context.Child (x : NodeId × Cell) (root : Group) : Prop :=
  ∃ k id operator left m right, root = Context.fill k ⟨id, operator, left ++ m :: right⟩ ∧
    x = (Node.id m, ⟨some id, m.entry label⟩)

mutual

theorem Node.child_of_mem_cells {x : NodeId × Cell} : (m : Node) → (k : Context) → (id : NodeId) →
    (operator : Connective) → (left right : List Node) → x ∈ m.cells label (some id) →
    Context.Child label x (k.fill ⟨id, operator, left ++ m :: right⟩)
  | .leaf i c, k, id, operator, left, right, hx =>
    ⟨k, id, operator, left, .leaf i c, right, rfl, Multiset.mem_singleton.mp hx⟩
  | .group sub inner children, k, id, operator, left, right, hx => by
    rw [Node.cells, Multiset.mem_add, Multiset.mem_singleton] at hx
    rcases hx with rfl | hx
    · exact ⟨k, id, operator, left, .group sub inner children, right, rfl, rfl⟩
    · exact Node.child_of_mem_cellsAll children (.under k id operator left right) sub inner [] hx

theorem Node.child_of_mem_cellsAll {x : NodeId × Cell} : (ms : List Node) → (k : Context) →
    (id : NodeId) → (operator : Connective) → (left : List Node) →
    x ∈ Node.cellsAll label (some id) ms →
    Context.Child label x (k.fill ⟨id, operator, left ++ ms⟩)
  | [], _, _, _, _, hx => absurd hx (Multiset.notMem_zero x)
  | m :: rest, k, id, operator, left, hx => by
    rw [Node.cellsAll_cons, Multiset.mem_add] at hx
    rcases hx with hx | hx
    · exact Node.child_of_mem_cells m k id operator left rest hx
    · rw [List.append_cons]
      exact Node.child_of_mem_cellsAll rest k id operator (left ++ [m]) hx

end

namespace Group

/-- A cell is that of the root or of a child. -/
theorem root_or_child {root : Group} {x : NodeId × Cell} (hx : x ∈ root.cells label) :
    x = (root.id, ⟨none, .group (root.cell label true)⟩) ∨ Context.Child label x root := by
  rw [cells, placed, Multiset.mem_add, Multiset.mem_singleton] at hx
  exact hx.imp_right (Node.child_of_mem_cellsAll label root.children .top root.id root.operator [])

/-- The cell of a group is that of a subtree. -/
theorem exists_fill_of_mem_cells {root : Group} {id : NodeId} {parent : Option NodeId}
    {cell : GroupCell} (hx : (id, ⟨parent, .group cell⟩) ∈ root.cells label) :
    ∃ k g, root = Context.fill k g ∧ id = g.id ∧ cell = g.cell label k.isRoot := by
  rcases root_or_child label hx with heq | hchild
  · cases heq
    exact ⟨.top, root, rfl, rfl, rfl⟩
  · obtain ⟨k, around, operator, left, m, right, rfl, heq⟩ := hchild
    cases m with
    | leaf leaf c => cases heq
    | group sub inner children =>
      cases heq
      exact ⟨.under k around operator left right, ⟨sub, inner, children⟩, rfl, rfl, rfl⟩

end Group

namespace Draft

/-- The cells of all tokens. -/
def cells (d : Draft) : Heap := (d.slots.map (·.root.cells label)).sum

theorem cells_append (left : List (Slot Group)) (t : Slot Group) (right : List (Slot Group))
    (within : Option Text) :
    (Draft.mk (left ++ t :: right) within).cells label =
      t.root.cells label + (Draft.mk (left ++ right) within).cells label := by
  simp only [cells, List.map_append, List.map_cons, List.sum_append, List.sum_cons]
  abel

theorem exists_slot_of_mem_cells {d : Draft} {x : NodeId × Cell} (hx : x ∈ d.cells label) :
    ∃ left t right, d.slots = left ++ t :: right ∧ x ∈ t.root.cells label := by
  obtain ⟨slots, within⟩ := d
  induction slots with
  | nil => exact absurd hx (Multiset.notMem_zero x)
  | cons t rest ih =>
    rw [cells, List.map_cons, List.sum_cons, Multiset.mem_add] at hx
    rcases hx with hx | hx
    · exact ⟨[], t, rest, rfl, hx⟩
    · obtain ⟨left, u, right, heq, hu⟩ := ih hx
      exact ⟨t :: left, u, right, congrArg (t :: ·) heq, hu⟩

end Draft

end CorpusQuery
