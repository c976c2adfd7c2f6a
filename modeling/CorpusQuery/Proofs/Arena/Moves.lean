import CorpusQuery.Proofs.Arena.Cells

/-! Moving nodes from one group to another. -/

namespace CorpusQuery

namespace GroupCell

variable {operator : Connective} {label : Text} {isRoot : Bool} {l r : List NodeId} {id : NodeId}

theorem withChild_length :
    withChild ⟨operator, label, isRoot, l ++ r⟩ (some l.length) id =
      ⟨operator, label, isRoot, l ++ id :: r⟩ := by
  simp only [withChild, List.length_append, Nat.le_add_right, Nat.min_eq_left]
  congr 1
  induction l with
  | nil => rfl
  | cons x l ih => simp [List.insertIdx_succ_cons, ih]

theorem withChild_none (g : GroupCell) (id : NodeId) :
    g.withChild none id = { g with children := g.children ++ [id] } := by
  simp [withChild, List.insertIdx_length_self]

theorem without_eq (hl : id ∉ l) (hr : id ∉ r) :
    without ⟨operator, label, isRoot, l ++ id :: r⟩ id = ⟨operator, label, isRoot, l ++ r⟩ := by
  have hfilter : ∀ ids : List NodeId, id ∉ ids → ids.filter (· != id) = ids := fun ids hid =>
    List.filter_eq_self.mpr fun x hx => by
      simp only [bne_iff_ne, ne_eq]
      exact fun heq => hid (heq ▸ hx)
  simp [without, hfilter l hl, hfilter r hr]

theorem without_cons (hr : id ∉ r) :
    without ⟨operator, label, isRoot, id :: r⟩ id = ⟨operator, label, isRoot, r⟩ :=
  without_eq (l := []) (by simp) hr

end GroupCell

namespace ArenaM.Does

variable {n : NodeId} {h : Heap} {t q child : NodeId} {p o : Option NodeId} {g k : GroupCell}
  {e : Entry}

/-- A node that is in no group yet. -/
theorem attach_loose (index : Option Nat) :
    Does (attach t child index) n ({(t, ⟨p, .group g⟩)} + {(child, ⟨none, e⟩)} + h) () n
      ({(t, ⟨p, .group (g.withChild index child)⟩)} + {(child, ⟨some t, e⟩)} + h) := by
  refine bind (group (p := p) (g := g) (by simp)) ?_
  refine bind (entry (p := none) (e := e) (by simp)) ?_
  refine bind (bind (parent? (p := none) (e := e) (by simp)) pure) ?_
  refine bind ((modifyGroup (p := p) (g := g) (h := {(child, ⟨none, e⟩)} + h)
    (·.withChild index child)).reorder (by abel) rfl) ?_
  exact (setParent (p := none) (e := e)
    (h := {(t, ⟨p, .group (g.withChild index child)⟩)} + h)).reorder (by abel) (by abel)

/-- A node that is in the group `q`. -/
theorem attach_from (index : Option Nat) :
    Does (attach t child index) n
      ({(t, ⟨p, .group g⟩)} + {(q, ⟨o, .group k⟩)} + {(child, ⟨some q, e⟩)} + h) () n
      ({(t, ⟨p, .group (g.withChild index child)⟩)} + {(q, ⟨o, .group (k.without child)⟩)} +
        {(child, ⟨some t, e⟩)} + h) := by
  refine bind (group (p := p) (g := g) (by simp)) ?_
  refine bind (entry (p := some q) (e := e) (by simp)) ?_
  -- The child leaves its old group before it enters the new one: both lists change, then the link.
  refine bind (bind (parent? (p := some q) (e := e) (by simp))
    ((modifyGroup (p := o) (g := k) (h := {(t, ⟨p, .group g⟩)} + {(child, ⟨some q, e⟩)} + h)
      (·.without child)).reorder (by abel) rfl)) ?_
  refine bind ((modifyGroup (p := p) (g := g)
    (h := {(q, ⟨o, .group (k.without child)⟩)} + {(child, ⟨some q, e⟩)} + h)
    (·.withChild index child)).reorder (by abel) rfl) ?_
  exact (setParent (p := some q) (e := e)
    (h := {(t, ⟨p, .group (g.withChild index child)⟩)} +
      {(q, ⟨o, .group (k.without child)⟩)} + h)).reorder (by abel) (by abel)

variable (label : Connective → Text)

theorem attach_node (m : Node) (index : Option Nat) :
    Does (attach t m.id index) n
      ({(t, ⟨p, .group g⟩)} + {(q, ⟨o, .group k⟩)} + m.cells label (some q) + h) () n
      ({(t, ⟨p, .group (g.withChild index m.id)⟩)} + {(q, ⟨o, .group (k.without m.id)⟩)} +
        m.cells label (some t) + h) := by
  simpa only [Node.cells_eq, add_assoc] using attach_from (h := m.inner label + h) index

theorem attach_loose_node (m : Node) (index : Option Nat) :
    Does (attach t m.id index) n ({(t, ⟨p, .group g⟩)} + m.cells label none + h) () n
      ({(t, ⟨p, .group (g.withChild index m.id)⟩)} + m.cells label (some t) + h) := by
  simpa only [Node.cells_eq, add_assoc] using attach_loose (h := m.inner label + h) index

/-- All nodes of a group, into another one from a place between its children on. -/
theorem attachAll (ms : List Node) (l r : List NodeId) :
    Does (ArenaM.attachAll t (ms.map Node.id) l.length) n
      ({(t, ⟨p, .group { g with children := l ++ r }⟩)} +
        {(q, ⟨o, .group { k with children := ms.map Node.id }⟩)} +
        Node.cellsAll label (some q) ms + h) () n
      ({(t, ⟨p, .group { g with children := l ++ ms.map Node.id ++ r }⟩)} +
        {(q, ⟨o, .group { k with children := [] }⟩)} + Node.cellsAll label (some t) ms + h) := by
  induction ms generalizing l h with
  | nil => simpa [ArenaM.attachAll] using pure
  | cons m ms ih =>
    refine of_nodup fun hnodup => ?_
    have hm : m.id ∉ ms.map Node.id := by
      have := Node.nodup_map_id label (Heap.nodup_right (Heap.nodup_left hnodup))
      exact (List.nodup_cons.mp this).1
    -- The old group loses its first child each time, so what is left of it fits the induction.
    have hfirst := attach_node (t := t) (p := p) (q := q) (o := o) (n := n)
      (g := { g with children := l ++ r }) (k := { k with children := m.id :: ms.map Node.id })
      (h := Node.cellsAll label (some q) ms + h) label m (some l.length)
    rw [GroupCell.withChild_length, GroupCell.without_cons hm] at hfirst
    refine bind (hfirst.reorder (by simp only [Node.cellsAll_cons, List.map_cons]; abel) rfl) ?_
    have hrest := ih (l ++ [m.id]) (h := m.cells label (some t) + h)
    rw [List.length_append] at hrest
    exact hrest.reorder (by simp; abel) (by simp; abel)

/-- All nodes of a group, to the end of another one. -/
theorem appendAll (ms : List Node) :
    Does (ArenaM.appendAll t (ms.map Node.id)) n
      ({(t, ⟨p, .group g⟩)} + {(q, ⟨o, .group { k with children := ms.map Node.id }⟩)} +
        Node.cellsAll label (some q) ms + h) () n
      ({(t, ⟨p, .group { g with children := g.children ++ ms.map Node.id }⟩)} +
        {(q, ⟨o, .group { k with children := [] }⟩)} + Node.cellsAll label (some t) ms + h) := by
  induction ms generalizing g h with
  | nil => simpa [ArenaM.appendAll] using pure
  | cons m ms ih =>
    refine of_nodup fun hnodup => ?_
    have hm : m.id ∉ ms.map Node.id := by
      have := Node.nodup_map_id label (Heap.nodup_right (Heap.nodup_left hnodup))
      exact (List.nodup_cons.mp this).1
    have hfirst := attach_node (t := t) (p := p) (q := q) (o := o) (n := n) (g := g)
      (k := { k with children := m.id :: ms.map Node.id })
      (h := Node.cellsAll label (some q) ms + h) label m none
    rw [GroupCell.withChild_none, GroupCell.without_cons hm] at hfirst
    refine bind (hfirst.reorder (by simp only [Node.cellsAll_cons, List.map_cons]; abel) rfl) ?_
    have hrest := ih (g := { g with children := g.children ++ [m.id] })
      (h := m.cells label (some t) + h)
    exact hrest.reorder (by simp; abel) (by simp; abel)

end ArenaM.Does

end CorpusQuery
