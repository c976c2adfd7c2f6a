import CorpusQuery.Proofs.Arena.Join

/-! A node is taken out of an arena with the groups that it leaves sparse, as it is from the tree. -/

namespace CorpusQuery

variable (label : Connective → Text)

/- The ids of a group come before the ones that were waiting, the last child first. -/

mutual

theorem Node.removeAll_cells {n : NodeId} (parent : Option NodeId) : (m : Node) → (h : Heap) →
    (pending : List NodeId) → (a : Arena) → a.Holds n (m.cells label parent + h) →
    ∃ a', a'.Holds n h ∧ Arena.removeAll (m.id :: pending) a = Arena.removeAll pending a'
  | .leaf id c, h, pending, a, ha => by
    refine ⟨a.remove id, ha.remove, ?_⟩
    rw [Node.id, Arena.removeAll, ha.cell?]
  | .group id operator children, h, pending, a, ha => by
    rw [Node.cells, add_assoc] at ha
    obtain ⟨a', ha', heq⟩ := Node.removeAll_cellsAll (some id) children h pending _ ha.remove
    refine ⟨a', ha', ?_⟩
    rw [← heq, Node.id, Arena.removeAll, ha.cell?]
    rfl

theorem Node.removeAll_cellsAll {n : NodeId} (parent : Option NodeId) : (ms : List Node) →
    (h : Heap) → (pending : List NodeId) → (a : Arena) →
    a.Holds n (Node.cellsAll label parent ms + h) →
    ∃ a', a'.Holds n h ∧
      Arena.removeAll ((ms.map Node.id).reverse ++ pending) a = Arena.removeAll pending a'
  | [], h, pending, a, ha => ⟨a, by simpa using ha, rfl⟩
  | m :: rest, h, pending, a, ha => by
    -- The last child is on top of the stack, so the first one waits until all others are gone.
    rw [Node.cellsAll_cons, add_comm (m.cells _ _), add_assoc] at ha
    obtain ⟨a₁, ha₁, heq₁⟩ := Node.removeAll_cellsAll parent rest _ (m.id :: pending) a ha
    obtain ⟨a₂, ha₂, heq₂⟩ := Node.removeAll_cells parent m h pending a₁ ha₁
    refine ⟨a₂, ha₂, ?_⟩
    rw [List.map_cons, List.reverse_cons, List.append_assoc, List.singleton_append, heq₁, heq₂]

end

@[simp] theorem Arena.removeAll_nil (a : Arena) : Arena.removeAll [] a = a := by
  rw [Arena.removeAll]

namespace ArenaM.Does

variable {n : NodeId} {h : Heap} {p q : Option NodeId} {P G : GroupCell}

theorem removeAll (m : Node) (parent : Option NodeId) :
    Does (modify (Arena.removeAll [m.id])) n (m.cells label parent + h) () n h :=
  step fun a ha => by
    obtain ⟨a', ha', heq⟩ := m.removeAll_cells label parent h [] a ha
    rw [heq, Arena.removeAll_nil]
    exact ha'

theorem removeAll_group (g : Group) (parent : Option NodeId) (isRoot : Bool) :
    Does (modify (Arena.removeAll [g.id])) n (g.placed label parent isRoot + h) () n h :=
  step fun a ha => by
    rw [Group.placed, add_assoc] at ha
    obtain ⟨a', ha', heq⟩ := Node.removeAll_cellsAll label (some g.id) g.children h [] _ ha.remove
    rw [Arena.removeAll, ha.cell?]
    change (Arena.removeAll ((g.children.map Node.id).reverse ++ []) (a.remove g.id)).Holds n h
    rw [heq, Arena.removeAll_nil]
    exact ha'

/-- A subgroup that has lost its children goes. -/
theorem drop_fill (k : Context) (id sub : NodeId) (around operator : Connective)
    (left right : List Node) :
    Does (ArenaM.drop id sub) n
      ((k.fill ⟨id, around, left ++ .group sub operator [] :: right⟩).cells label + h) () n
      ((k.fill ⟨id, around, left ++ right⟩).cells label + h) := by
  refine of_nodup fun hnodup => ?_
  obtain ⟨hl, hr⟩ := Context.not_mem_siblings label hnodup
  simp only [Node.id] at hl hr
  have hdrop := drop (n := n) (o := id) (i := sub) (p := k.parent?)
    (g := ⟨around, label around, k.isRoot, left.map Node.id ++ sub :: right.map Node.id⟩)
    (d := ⟨some id, .group ⟨operator, label operator, false, []⟩⟩)
    (h := Node.cellsAll label (some id) left + Node.cellsAll label (some id) right +
      k.rest label id + h)
  rw [GroupCell.without_eq hl hr] at hdrop
  rw [Context.cells_fill_sub, Context.cells_fill_append, List.map_nil, Node.cellsAll_nil]
  exact hdrop.reorder (by abel) (by abel)

/-- Children of a subgroup come to stand before it. -/
theorem attachAll_fill (k : Context) (id sub : NodeId) (around operator : Connective)
    (left ms right : List Node) :
    Does (ArenaM.attachAll id (ms.map Node.id) left.length) n
      ((k.fill ⟨id, around, left ++ .group sub operator ms :: right⟩).cells label + h) () n
      ((k.fill ⟨id, around, left ++ ms ++ .group sub operator [] :: right⟩).cells label + h) := by
  have hall := attachAll (n := n) (t := id) (p := k.parent?) (q := sub) (o := some id)
    (g := ⟨around, label around, k.isRoot, []⟩) (k := ⟨operator, label operator, false, []⟩)
    (h := Node.cellsAll label (some id) left + Node.cellsAll label (some id) right +
      k.rest label id + h) label ms (left.map Node.id) (sub :: right.map Node.id)
  rw [List.length_map] at hall
  rw [Context.cells_fill_sub, Context.cells_fill_sub, List.map_append, List.map_nil,
    Node.cellsAll_append, Node.cellsAll_nil]
  exact hall.reorder (by abel) (by abel)

/-- The first child of a subgroup comes to stand before the subgroup. -/
theorem attach_above (k : Context) (id sub : NodeId) (around operator : Connective)
    (left : List Node) (m : Node) (rest right : List Node) :
    Does (attach id m.id (some left.length)) n
      ((k.fill ⟨id, around, left ++ .group sub operator (m :: rest) :: right⟩).cells label + h) () n
      ((k.fill ⟨id, around, left ++ [m] ++ .group sub operator rest :: right⟩).cells label + h) := by
  refine of_nodup fun hnodup => ?_
  have hrest := (Context.not_mem_siblings (k := .under k id around left right) (l := [])
    label hnodup).2
  have hattach := attach_node (n := n) (t := id) (p := k.parent?) (q := sub) (o := some id)
    (g := ⟨around, label around, k.isRoot, left.map Node.id ++ sub :: right.map Node.id⟩)
    (k := ⟨operator, label operator, false, m.id :: rest.map Node.id⟩)
    (h := Node.cellsAll label (some id) left + Node.cellsAll label (some id) right +
      Node.cellsAll label (some sub) rest + k.rest label id + h) label m
    (some (left.map Node.id).length)
  rw [GroupCell.withChild_length, GroupCell.without_cons hrest, List.length_map] at hattach
  rw [Context.cells_fill_sub, Context.cells_fill_sub]
  refine hattach.reorder ?_ ?_
  · rw [Node.cellsAll_cons, List.map_cons]
    abel
  · simp only [Node.cellsAll_append, Node.cellsAll_cons, Node.cellsAll_nil, List.map_append,
      List.map_cons, List.map_nil, List.append_assoc, List.singleton_append]
    abel

/-- The children of the first subgroup of a subgroup come to stand before the latter. -/
theorem attachAll_above (k : Context) (id sub inner : NodeId) (around operator within : Connective)
    (left ms rest right : List Node) :
    Does (ArenaM.attachAll id (ms.map Node.id) left.length) n
      ((k.fill ⟨id, around,
        left ++ .group sub operator (.group inner within ms :: rest) :: right⟩).cells label + h) () n
      ((k.fill ⟨id, around,
        left ++ ms ++ .group sub operator (.group inner within [] :: rest) :: right⟩).cells label +
          h) := by
  have hall := attachAll (n := n) (t := id) (p := k.parent?) (q := inner) (o := some sub)
    (g := ⟨around, label around, k.isRoot, []⟩) (k := ⟨within, label within, false, []⟩)
    (h := {(sub, ⟨some id, .group ⟨operator, label operator, false,
        inner :: rest.map Node.id⟩⟩)} + Node.cellsAll label (some id) left +
      Node.cellsAll label (some id) right + Node.cellsAll label (some sub) rest +
      k.rest label id + h) label ms (left.map Node.id) (sub :: right.map Node.id)
  rw [List.length_map] at hall
  rw [Context.cells_fill_sub, Context.cells_fill_sub]
  refine hall.reorder ?_ ?_
  · simp only [Node.cellsAll_cons, Node.cells_group, List.map_cons, Node.id]
    abel
  · simp only [Node.cellsAll_cons, Node.cells_group, List.map_cons, Node.id, Node.cellsAll_append,
      List.map_append, List.map_nil, Node.cellsAll_nil]
    abel

/-- The children of an only subgroup come to stand behind it. -/
theorem appendAll_out (k : Context) (id sub : NodeId) (around operator : Connective)
    (left ms : List Node) :
    Does (ArenaM.appendAll id (ms.map Node.id)) n
      ((k.fill ⟨id, around, left ++ [.group sub operator ms]⟩).cells label + h) () n
      ((k.fill ⟨id, around, left ++ .group sub operator [] :: ms⟩).cells label + h) := by
  have hall := appendAll (n := n) (t := id) (p := k.parent?) (q := sub) (o := some id)
    (g := ⟨around, label around, k.isRoot, left.map Node.id ++ [sub]⟩)
    (k := ⟨operator, label operator, false, []⟩)
    (h := Node.cellsAll label (some id) left + k.rest label id + h) label ms
  rw [Context.cells_fill_sub, Context.cells_fill_sub]
  refine hall.reorder ?_ ?_
  · rw [List.map_nil, Node.cellsAll_nil]
    abel
  · simp only [List.map_nil, Node.cellsAll_nil, List.append_assoc, List.singleton_append]
    abel

theorem hoist (k : Context) (id sub : NodeId) (around operator : Connective) (left : List Node)
    (m : Node) (rest right : List Node) :
    Does (ArenaM.hoist sub id around m.id left.length) n
      ((k.fill ⟨id, around, left ++ .group sub operator (m :: rest) :: right⟩).cells label + h)
      (left.length + (m.unnest around).length) n
      ((k.fill ⟨id, around,
        left ++ m.unnest around ++ .group sub operator rest :: right⟩).cells label + h) := by
  have hentry := Context.mem_cells_child label (.under k id around left right) sub operator [] m rest
  refine bind (entry (e := m.entry label) (p := some sub) (Multiset.mem_add.mpr (.inl hentry))) ?_
  have hwhole := bind (f := fun _ => Pure.pure (left.length + 1))
    (attach_above (n := n) (h := h) label k id sub around operator left m rest right) pure
  cases m with
  | leaf leaf c => exact hwhole
  | group inner within ms =>
    simp only [Node.entry, Group.cell, Node.unnest]
    split
    next heq =>
      -- A subgroup with the connective around is not moved: its children pass it, then it goes.
      refine bind (attachAll_above label k id sub inner around operator within left ms rest right) ?_
      refine bind (drop_fill label (.under k id around (left ++ ms) right) sub inner operator within
        [] rest) ?_
      rw [List.length_map]
      exact pure
    next hne => exact hwhole

theorem hoistAll (k : Context) (id sub : NodeId) (around operator : Connective)
    (left ms right : List Node) :
    Does (ArenaM.hoistAll sub id around (ms.map Node.id) left.length) n
      ((k.fill ⟨id, around, left ++ .group sub operator ms :: right⟩).cells label + h) () n
      ((k.fill ⟨id, around,
        left ++ Node.unnestAll around ms ++ .group sub operator [] :: right⟩).cells label + h) := by
  induction ms generalizing left with
  | nil => simpa [ArenaM.hoistAll, Node.unnestAll] using pure
  | cons m rest ih =>
    refine bind (hoist label k id sub around operator left m rest right) ?_
    simpa only [Node.unnestAll, List.flatMap_cons, List.append_assoc, List.length_append]
      using ih (left ++ m.unnest around)

theorem dissolve (k : Context) (id : NodeId) (around : Connective) (left : List Node) (g : Group)
    (right : List Node) :
    Does (ArenaM.dissolve g.id id (g.children.map Node.id)) n
      ((k.fill ⟨id, around, left ++ g.node :: right⟩).cells label + h) () n
      ((k.fill ⟨id, around, left ++ Node.unnestAll around g.children ++ right⟩).cells label + h) := by
  refine bind (childIndex label k id around left g.node right) ?_
  refine bind (group_fill label k _) ?_
  refine bind (hoistAll label k id g.id around g.operator left g.children right) ?_
  exact drop_fill label k id g.id around g.operator _ right

/-- A root keeps its place. -/
theorem absorbOnlySubgroup (g : Group) :
    Does (ArenaM.absorbOnlySubgroup label g.id) n (g.cells label + h) () n
      (g.absorb.cells label + h) := by
  refine bind (group_fill label .top g) ?_
  obtain ⟨id, operator, children⟩ := g
  match children with
  | [] => exact pure (x := ())
  | _ :: _ :: _ =>
    -- Nothing is absorbed but an only subgroup.
    rw [Group.absorb_eq_self (by simp)]
    exact pure (x := ())
  | [.leaf leaf c] =>
    have hleaf := Context.mem_cells_child label .top id operator [] (.leaf leaf c) []
    exact bind (entry (Multiset.mem_add.mpr (.inl hleaf))) pure
  | [.group sub inner ms] =>
    have hsub := Context.mem_cells_child label .top id operator [] (.group sub inner ms) []
    refine bind (entry (Multiset.mem_add.mpr (.inl hsub))) ?_
    refine bind (appendAll_out label .top id sub operator inner [] ms) ?_
    refine bind (drop_fill label .top id sub operator inner [] ms) ?_
    exact retype label .top ⟨id, operator, ms⟩ inner

theorem dissolveIfSparse_root (g : Group) :
    Does (ArenaM.dissolveIfSparse label g.id) n (g.cells label + h) none n
      (g.absorb.cells label + h) := by
  refine bind (group_fill label .top g) ?_
  split
  next hlen =>
    rw [Group.cell, List.length_map] at hlen
    rw [Group.absorb_eq_self fun _ _ _ heq => by simp [heq] at hlen]
    exact pure
  · rw [if_pos (show (g.cell label Context.top.isRoot).isRoot = true from rfl)]
    exact bind (absorbOnlySubgroup label g) pure

theorem dissolveIfSparse_full (k : Context) (g : Group) (hfull : 1 < g.children.length) :
    Does (ArenaM.dissolveIfSparse label g.id) n ((k.fill g).cells label + h) none n
      ((k.fill g).cells label + h) := by
  refine bind (group_fill label k g) ?_
  rw [if_pos (by rwa [Group.cell, List.length_map])]
  exact pure

/-- A sparse group gives way, and the group around comes next. -/
theorem dissolveIfSparse_sparse (k : Context) (id : NodeId) (around : Connective)
    (left : List Node) (g : Group) (right : List Node) (hsparse : g.children.length ≤ 1) :
    Does (ArenaM.dissolveIfSparse label g.id) n
      ((k.fill ⟨id, around, left ++ g.node :: right⟩).cells label + h) (some id) n
      ((k.fill ⟨id, around, left ++ Node.unnestAll around g.children ++ right⟩).cells label + h) := by
  refine bind (group_fill label (.under k id around left right) g) ?_
  split
  next hlen =>
    rw [Group.cell, List.length_map] at hlen
    omega
  · rw [if_neg (show (g.cell label (Context.under k id around left right).isRoot).isRoot ≠ true
      from Bool.false_ne_true)]
    have hparent := Context.mem_cells_fill label (.under k id around left right) g
    refine bind (parent? (Multiset.mem_add.mpr (.inl hparent))) ?_
    exact bind (dissolve label k id around left g right) pure

theorem dissolveUp (k : Context) (g : Group) :
    Does (ArenaM.dissolveUp label g.id) n ((k.fill g).cells label + h) () n
      ((k.settle g).cells label + h) := by
  induction k generalizing g with
  | top =>
    intro a ha
    obtain ⟨a', hx, ha'⟩ := dissolveIfSparse_root label g a ha
    exact ⟨a', by rw [ArenaM.dissolveUp, hx], ha'⟩
  | under k id around left right ih =>
    rw [Context.settle]
    split
    next hsparse =>
      intro a ha
      -- The loop follows the link to the group around, which is where the induction is next.
      obtain ⟨a', hx, ha'⟩ := dissolveIfSparse_sparse label k id around left g right hsparse a ha
      obtain ⟨a'', hy, ha''⟩ := ih _ a' ha'
      exact ⟨a'', by rw [ArenaM.dissolveUp, hx]; exact hy, ha''⟩
    next hfull =>
      intro a ha
      obtain ⟨a', hx, ha'⟩ := dissolveIfSparse_full label (.under k id around left right) g
        (Nat.lt_of_not_le hfull) a ha
      exact ⟨a', by rw [ArenaM.dissolveUp, hx], ha'⟩

theorem detach_child (k : Context) (id : NodeId) (operator : Connective) (left : List Node)
    (m : Node) (right : List Node) :
    Does (ArenaM.modifyGroup id (·.without m.id)) n
      ((k.fill ⟨id, operator, left ++ m :: right⟩).cells label + h) () n
      ((k.fill ⟨id, operator, left ++ right⟩).cells label + m.cells label (some id) + h) := by
  refine of_nodup fun hnodup => ?_
  obtain ⟨hl, hr⟩ := Context.not_mem_siblings label hnodup
  have hmodify := modifyGroup (n := n) (i := id) (p := k.parent?)
    (g := ⟨operator, label operator, k.isRoot, left.map Node.id ++ m.id :: right.map Node.id⟩)
    (h := Node.cellsAll label (some id) left + Node.cellsAll label (some id) right +
      m.cells label (some id) + k.rest label id + h) (·.without m.id)
  rw [GroupCell.without_eq hl hr] at hmodify
  rw [Context.cells_fill_append, Context.cells_fill_append]
  refine hmodify.reorder ?_ ?_
  · rw [Node.cellsAll_cons, List.map_cons]
    abel
  · abel

theorem removeChild (k : Context) (id : NodeId) (operator : Connective) (left : List Node)
    (m : Node) (right : List Node) :
    Does (ArenaM.removeChild label id m.id) n
      ((k.fill ⟨id, operator, left ++ m :: right⟩).cells label + h) () n
      ((k.settle ⟨id, operator, left ++ right⟩).cells label + h) := by
  refine bind (detach_child label k id operator left m right) ?_
  -- The node is out of its group by now, and its tree lies apart from the cells that are kept.
  have hremove := removeAll (n := n)
    (h := (k.fill ⟨id, operator, left ++ right⟩).cells label + h) label m (some id)
  refine bind (hremove.reorder (by abel) rfl) ?_
  exact dissolveUp label k ⟨id, operator, left ++ right⟩

/-- A node that is no root is taken out as the rule says. -/
theorem removeNode {id : NodeId} {root root' : Group} (hremoves : Removes id root root') :
    Does (ArenaM.removeNode label id) n (root.cells label + h) () n (root'.cells label + h) := by
  cases hremoves with
  | child k parent operator left m right =>
    have hchild := Multiset.mem_add.mpr (.inl (b := (m.id, _) ∈ h)
      (Context.mem_cells_child label k parent operator left m right))
    refine bind (entry hchild) ?_
    cases m <;>
      exact bind (parent? hchild) (removeChild label k parent operator left _ right)

end ArenaM.Does

end CorpusQuery
