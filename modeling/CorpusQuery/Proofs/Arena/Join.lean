import CorpusQuery.Draft.Regroup
import CorpusQuery.Proofs.Arena.Moves

/-! A new node is joined to its neighbours in an arena as it is in the tree. -/

namespace CorpusQuery

variable (label : Connective → Text)

namespace Context

theorem mem_cells_fill (k : Context) (g : Group) :
    (g.id, ⟨k.parent?, .group (g.cell label k.isRoot)⟩) ∈ (k.fill g).cells label := by
  simp [cells_fill, Group.placed]

theorem mem_cells_child (k : Context) (id : NodeId) (operator : Connective) (left : List Node)
    (child : Node) (right : List Node) :
    (child.id, ⟨some id, child.entry label⟩) ∈
      (k.fill ⟨id, operator, left ++ child :: right⟩).cells label := by
  simp [cells_fill, Group.placed, Node.cells_eq label _ child]

theorem nodup_children {k : Context} {g : Group} {h : Heap}
    (hnodup : ((k.fill g).cells label + h).ids.Nodup) : (g.children.map Node.id).Nodup := by
  rw [cells_fill, Group.placed] at hnodup
  exact Node.nodup_map_id label
    (Heap.nodup_right (Heap.nodup_left (Heap.nodup_left hnodup)))

/-- No child of a group stands among its siblings once more. -/
theorem not_mem_siblings {k : Context} {id : NodeId} {operator : Connective} {l : List Node}
    {m : Node} {r : List Node} {h : Heap}
    (hnodup : ((k.fill ⟨id, operator, l ++ m :: r⟩).cells label + h).ids.Nodup) :
    m.id ∉ l.map Node.id ∧ m.id ∉ r.map Node.id := by
  have hchildren := nodup_children label hnodup
  rw [List.map_append, List.map_cons, List.nodup_append, List.nodup_cons] at hchildren
  obtain ⟨-, ⟨hr, -⟩, hdisjoint⟩ := hchildren
  exact ⟨fun hl => hdisjoint m.id hl m.id List.mem_cons_self rfl, hr⟩

end Context

theorem idxOf?_append_cons {x : NodeId} {l : List NodeId} (hl : x ∉ l) (r : List NodeId) :
    (l ++ x :: r).idxOf? x = some l.length := by
  induction l with
  | nil => simp [List.idxOf?_cons]
  | cons y l ih =>
    have hne : y ≠ x := fun heq => hl (heq ▸ List.mem_cons_self)
    simp [List.idxOf?_cons, hne, ih fun hmem => hl (List.mem_cons_of_mem y hmem)]

theorem Arena.Holds.isGroupWith_child {a : Arena} {n : NodeId} {k : Context} {id : NodeId}
    {around : Connective} {left : List Node} {child : Node} {right : List Node} {h : Heap}
    {operator : Connective}
    (ha : a.Holds n ((k.fill ⟨id, around, left ++ child :: right⟩).cells label + h)) :
    a.isGroupWith child.id operator = child.isGroupWith operator := by
  have hchild : a.cell? child.id = _ := (ha.cell?_eq_some_iff _ _).mpr (Multiset.mem_add.mpr
    (.inl (k.mem_cells_child label id around left child right)))
  simp only [Arena.isGroupWith, hchild]
  cases child <;> rfl

namespace ArenaM.Does

variable {n : NodeId} {h : Heap} {p : Option NodeId} {operator : Connective}

theorem group_fill (k : Context) (g : Group) :
    Does (EditM.look (·.group g.id)) n ((k.fill g).cells label + h) (g.cell label k.isRoot) n
      ((k.fill g).cells label + h) :=
  group (Multiset.mem_add.mpr (.inl (k.mem_cells_fill label g)))

theorem isGroupWith (k : Context) (id : NodeId) (around : Connective) (left : List Node)
    (child : Node) (right : List Node) :
    Does (EditM.peek (·.isGroupWith child.id operator)) n
      ((k.fill ⟨id, around, left ++ child :: right⟩).cells label + h)
      (child.isGroupWith operator) n
      ((k.fill ⟨id, around, left ++ child :: right⟩).cells label + h) :=
  peek fun _ ha => ha.isGroupWith_child label

theorem parentWith (k : Context) (g : Group) :
    Does (ArenaM.parentWith g.id operator) n ((k.fill g).cells label + h)
      (if k.operator? = some operator then k.parent? else none) n
      ((k.fill g).cells label + h) :=
  peek fun a ha => by
    have hg : a.cell? g.id = _ :=
      (ha.cell?_eq_some_iff _ _).mpr (Multiset.mem_add.mpr (.inl (k.mem_cells_fill label g)))
    cases k with
    | top => simp [Arena.parent?, hg, Context.parent?, Context.operator?]
    | under outer id around left right =>
      have hid : a.cell? id = _ :=
        (ha.cell?_eq_some_iff _ _).mpr (Multiset.mem_add.mpr
          (.inl (outer.mem_cells_fill label ⟨id, around, left ++ g.node :: right⟩)))
      simp [Arena.parent?, hg, Context.parent?, Context.operator?, Arena.isGroupWith, hid,
        Group.cell, Option.filter]

theorem childIndex (k : Context) (id : NodeId) (around : Connective) (left : List Node)
    (child : Node) (right : List Node) :
    Does (ArenaM.childIndex id child.id) n
      ((k.fill ⟨id, around, left ++ child :: right⟩).cells label + h) left.length n
      ((k.fill ⟨id, around, left ++ child :: right⟩).cells label + h) := by
  refine of_nodup fun hnodup => look fun a ha => ?_
  have hchild := (Context.not_mem_siblings label hnodup).1
  have hid : a.cell? id = _ := (ha.cell?_eq_some_iff _ _).mpr (Multiset.mem_add.mpr
    (.inl (k.mem_cells_fill label ⟨id, around, left ++ child :: right⟩)))
  have hindex := idxOf?_append_cons hchild (right.map Node.id)
  simp only [Arena.group, hid, Group.cell, List.map_append, List.map_cons, Bind.bind,
    Except.bind, hindex, List.length_map]

theorem retype (k : Context) (g : Group) (operator : Connective) :
    Does (ArenaM.retype label g.id operator) n ((k.fill g).cells label + h) () n
      ((k.fill { g with operator }).cells label + h) := by
  rw [Context.cells_fill, Context.cells_fill]
  have hmodify := modifyGroup (i := g.id) (p := k.parent?) (g := g.cell label k.isRoot) (n := n)
    (h := Node.cellsAll label (some g.id) g.children + k.rest label g.id + h)
    ({ · with operator, label := label operator })
  exact hmodify.reorder (by simp only [Group.placed]; abel)
    (by simp only [Group.placed, Group.cell]; abel)

/-- A loose node comes between the children of a group. -/
theorem attach_fill (k : Context) (id : NodeId) (around : Connective) (left : List Node) (m : Node)
    (right : List Node) :
    Does (attach id m.id (some left.length)) n
      ((k.fill ⟨id, around, left ++ right⟩).cells label + m.cells label none + h) () n
      ((k.fill ⟨id, around, left ++ m :: right⟩).cells label + h) := by
  rw [Context.cells_fill, Context.cells_fill]
  have hattach := attach_loose_node (n := n) (t := id) (p := k.parent?)
    (g := Group.cell label k.isRoot ⟨id, around, left ++ right⟩)
    (h := Node.cellsAll label (some id) (left ++ right) + k.rest label id + h) label m
    (some left.length)
  rw [Group.cell, List.map_append, ← List.length_map (f := Node.id),
    GroupCell.withChild_length] at hattach
  rw [← List.length_map (f := Node.id)]
  exact hattach.reorder (by simp only [Group.placed, Group.cell, List.map_append]; abel)
    (by simp only [Group.placed, Group.cell, List.map_append, List.map_cons,
      Node.cellsAll_append, Node.cellsAll_cons]; abel)

theorem attach_behind (k : Context) (id : NodeId) (around : Connective) (left : List Node)
    (child : Node) (right : List Node) (m : Node) :
    Does (attach id m.id (some (left.length + 1))) n
      ((k.fill ⟨id, around, left ++ child :: right⟩).cells label + m.cells label none + h) () n
      ((k.fill ⟨id, around, left ++ child :: m :: right⟩).cells label + h) := by
  have hattach := attach_fill (n := n) (h := h) label k id around (left ++ [child]) m right
  simpa only [List.length_append, List.length_singleton, List.append_assoc, List.singleton_append]
    using hattach

/-- A loose node comes behind the children of a group. -/
theorem append_fill (k : Context) (g : Group) (m : Node) :
    Does (attach g.id m.id none) n ((k.fill g).cells label + m.cells label none + h) () n
      ((k.fill { g with children := g.children ++ [m] }).cells label + h) := by
  rw [Context.cells_fill, Context.cells_fill]
  have hattach := attach_loose_node (n := n) (t := g.id) (p := k.parent?)
    (g := g.cell label k.isRoot)
    (h := Node.cellsAll label (some g.id) g.children + k.rest label g.id + h) label m none
  rw [GroupCell.withChild_none] at hattach
  exact hattach.reorder (by simp only [Group.placed]; abel)
    (by simp only [Group.placed, Group.cell, List.map_append, List.map_cons, List.map_nil,
      Node.cellsAll_append, Node.cellsAll_cons, Node.cellsAll_nil]; abel)

/-- A child moves into the empty subgroup before it. -/
theorem attach_sibling (k : Context) (id sub : NodeId) (around operator : Connective)
    (left : List Node) (child : Node) (right : List Node) :
    Does (attach sub child.id none) n
      ((k.fill ⟨id, around, left ++ .group sub operator [] :: child :: right⟩).cells label + h) () n
      ((k.fill ⟨id, around, left ++ .group sub operator [child] :: right⟩).cells label + h) := by
  refine of_nodup fun hnodup => ?_
  rw [List.append_cons] at hnodup
  obtain ⟨hl, hr⟩ := Context.not_mem_siblings label hnodup
  rw [List.map_append] at hl
  have hattach := attach_node (n := n) (t := sub) (p := some id) (q := id) (o := k.parent?)
    (g := Group.cell label false ⟨sub, operator, []⟩)
    (k := ⟨around, label around, k.isRoot,
      (left.map Node.id ++ [Node.group sub operator []].map Node.id) ++
        child.id :: right.map Node.id⟩)
    (h := Node.cellsAll label (some id) left + Node.cellsAll label (some id) right +
      k.rest label id + h) label child none
  -- The child occurs once among its siblings, so taking its id out leaves the others as they are.
  rw [GroupCell.without_eq hl hr, GroupCell.withChild_none] at hattach
  rw [Context.cells_fill_sub, Context.cells_fill_sub]
  refine hattach.reorder ?_ ?_
  · simp only [Group.cell, Node.id, List.map_cons, List.map_nil, List.append_assoc,
      List.singleton_append, Node.cellsAll_cons, Node.cellsAll_nil]
    abel
  · simp only [Group.cell, Node.id, List.map_cons, List.map_nil, List.append_assoc,
      List.singleton_append, List.nil_append, Node.cellsAll_cons, Node.cellsAll_nil]
    abel

theorem wrap (k : Context) (id : NodeId) (around operator : Connective) (left : List Node)
    (child : Node) (right : List Node) (m : Node) :
    Does (ArenaM.wrap label id operator child.id left.length m.id) n
      ((k.fill ⟨id, around, left ++ child :: right⟩).cells label + m.cells label none + h) () (n + 1)
      ((k.fill ⟨id, around, left ++ .group n operator [child, m] :: right⟩).cells label + h) := by
  refine bind (new _) ?_
  -- The new group stands empty before the child, takes the child in, and then the node.
  refine bind ((attach_fill (h := m.cells label none + h) label k id around left
    (.group n operator []) (child :: right)).reorder ?_ rfl) ?_
  · simp only [Node.cells, Node.cellsAll_nil, Group.cell, List.map_nil]
    abel
  refine bind (attach_sibling label k id n around operator left child right) ?_
  exact (append_fill label (.under k id around left right) ⟨n, operator, [child]⟩ m).reorder
    (add_assoc ..).symm rfl

theorem pushDown (k : Context) (g : Group) (operator : Connective) (m : Node) :
    Does (ArenaM.pushDown label g.id operator m.id) n
      ((k.fill g).cells label + m.cells label none + h) () (n + 1)
      ((k.fill ⟨g.id, operator, [.group n g.operator g.children, m]⟩).cells label + h) := by
  refine bind ((group_fill (h := m.cells label none + h) label k g).reorder
    (add_assoc ..) rfl) ?_
  refine bind (new _) ?_
  -- The new group is loose while the children move into it. It goes under the old group once that
  -- is empty and has its new connective.
  have happend := appendAll (n := n + 1) (t := n) (p := none) (q := g.id) (o := k.parent?)
    (g := Group.cell label false ⟨n, g.operator, []⟩) (k := g.cell label k.isRoot)
    (h := k.rest label g.id + m.cells label none + h) label g.children
  refine bind (happend.reorder ?_ rfl) ?_
  · rw [Context.cells_fill]
    simp only [Group.placed, Group.cell, List.map_nil]
    abel
  have hretype := retype (n := n + 1) (h := Node.cells label none (.group n g.operator g.children) +
    m.cells label none + h) label k ⟨g.id, g.operator, []⟩ operator
  refine bind (hretype.reorder ?_ rfl) ?_
  · rw [Context.cells_fill]
    simp only [Group.placed, Group.cell, List.map_nil, Node.cellsAll_nil, Node.cells,
      List.nil_append]
    abel
  refine bind ((append_fill (h := m.cells label none + h) label k ⟨g.id, operator, []⟩
    (.group n g.operator g.children)).reorder (by simp only [add_assoc]) rfl) ?_
  exact (append_fill label k ⟨g.id, operator, [.group n g.operator g.children]⟩ m).reorder
    (add_assoc ..).symm rfl

/-- The group takes the connective over and the node in. -/
theorem join_here {k : Context} {g g' : Group} {m : Node} {origin : Option (NodeId × Nat)}
    (hg : g.children.length ≤ 1 ∨ g.operator = operator)
    (hattach : Does (attach g.id m.id (origin.map (·.2 + 1))) n
      ((k.fill { g with operator }).cells label + m.cells label none + h) () n
      ((k.fill g').cells label + h)) :
    Does (ArenaM.join label g.id operator origin m.id) n
      ((k.fill g).cells label + m.cells label none + h) () n ((k.fill g').cells label + h) := by
  refine bind ((group_fill (h := m.cells label none + h) label k g).reorder
    (by rw [add_assoc]) rfl) ?_
  split
  · refine bind (retype (h := m.cells label none + h) label k g operator) ?_
    exact hattach.reorder (by rw [add_assoc]) rfl
  next hlen =>
    rw [Group.cell, List.length_map] at hlen
    -- With two children or more the connective is the one at hand, and retyping changes nothing.
    have hoperator := hg.resolve_left hlen
    rw [if_pos (show (g.cell label k.isRoot).operator = operator from hoperator)]
    exact hattach.reorder (by rw [← hoperator, add_assoc]) rfl

theorem join_apart {k : Context} {g : Group} {m : Node} {origin : Option (NodeId × Nat)}
    {n' : NodeId} {h' : Heap} (hne : g.operator ≠ operator) (hlen : 1 < g.children.length)
    (hapart : Does (ArenaM.joinApart label g.id operator origin m.id) n
      ((k.fill g).cells label + m.cells label none + h) () n' h') :
    Does (ArenaM.join label g.id operator origin m.id) n
      ((k.fill g).cells label + m.cells label none + h) () n' h' := by
  refine bind ((group_fill (h := m.cells label none + h) label k g).reorder
    (by rw [add_assoc]) rfl) ?_
  split
  next hle =>
    rw [Group.cell, List.length_map] at hle
    omega
  · rw [if_neg (show (g.cell label k.isRoot).operator ≠ operator from hne)]
    exact hapart.reorder (by rw [add_assoc]) rfl

/-- A new node is joined as the rule for its neighbours says. -/
theorem join {m : Node} {group : NodeId} {origin : Option (NodeId × Nat)} {root root' : Group}
    (hjoins : Joins operator m n group origin root root') :
    ∃ n', Does (ArenaM.join label group operator origin m.id) n
      (root.cells label + m.cells label none + h) () n' (root'.cells label + h) := by
  cases hjoins with
  | atEnd k g hg => exact ⟨n, join_here label hg (append_fill label k { g with operator } m)⟩
  | behind k _ inner left child right hg =>
    exact ⟨n, join_here label (g := ⟨group, inner, left ++ child :: right⟩) hg
      (attach_behind label k group operator left child right m)⟩
  | inside k _ inner left sub children right hne hlen =>
    refine ⟨n, join_apart label hne hlen ?_⟩
    refine bind ((isGroupWith (h := m.cells label none + h) label k group inner left
      (.group sub operator children) right).reorder (by rw [add_assoc]) rfl) ?_
    rw [Node.isGroupWith, beq_self_eq_true, if_pos rfl]
    exact (append_fill label (.under k group inner left right) ⟨sub, operator, children⟩ m).reorder
      (by rw [add_assoc]; rfl) rfl
  | around k _ inner left child right hne hlen hchild =>
    refine ⟨n + 1, join_apart label hne hlen ?_⟩
    refine bind ((isGroupWith (h := m.cells label none + h) label k group inner left child
      right).reorder (by rw [add_assoc]) rfl) ?_
    rw [hchild, if_neg Bool.false_ne_true]
    exact (wrap label k group inner operator left child right m).reorder (by rw [add_assoc]) rfl
  | beside outer id left g right hne hlen =>
    refine ⟨n, join_apart (k := .under outer id operator left right) label hne hlen ?_⟩
    refine bind ((parentWith (h := m.cells label none + h) label
      (.under outer id operator left right) g).reorder (by rw [add_assoc]) rfl) ?_
    rw [Context.operator?, if_pos rfl]
    refine bind (childIndex label outer id operator left g.node right) ?_
    exact (attach_behind label outer id operator left g.node right m).reorder
      (by rw [add_assoc]) rfl
  | above k g hne hlen hk =>
    refine ⟨n + 1, join_apart label hne hlen ?_⟩
    refine bind ((parentWith (h := m.cells label none + h) label k g).reorder
      (by rw [add_assoc]) rfl) ?_
    rw [if_neg hk]
    exact (pushDown label k g operator m).reorder (by rw [add_assoc]) rfl

end ArenaM.Does

end CorpusQuery
