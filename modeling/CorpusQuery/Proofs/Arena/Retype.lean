import CorpusQuery.Proofs.Arena.Remove

/-! Groups take another connective in an arena, and merge there as they do in the tree. -/

namespace CorpusQuery

variable (label : Connective → Text)

namespace ArenaM.Does

variable {n : NodeId} {h : Heap}

theorem spliceIntoParent (k : Context) (id sub : NodeId) (around operator : Connective)
    (left ms right : List Node) :
    Does (ArenaM.spliceIntoParent sub) n
      ((k.fill ⟨id, around, left ++ .group sub operator ms :: right⟩).cells label + h) () n
      ((k.fill ⟨id, around, left ++ ms ++ right⟩).cells label + h) := by
  have hsub := Context.mem_cells_child label k id around left (.group sub operator ms) right
  refine bind (parent? (Multiset.mem_add.mpr (.inl hsub))) ?_
  refine bind (childIndex label k id around left (.group sub operator ms) right) ?_
  refine bind (group_fill label (.under k id around left right) ⟨sub, operator, ms⟩) ?_
  refine bind (attachAll_fill label k id sub around operator left ms right) ?_
  exact drop_fill label k id sub around operator (left ++ ms) right

theorem spliceAll (k : Context) (id : NodeId) (operator : Connective) (left ms : List Node) :
    Does (ArenaM.spliceAll ((ms.filter (·.isGroupWith operator)).map Node.id)) n
      ((k.fill ⟨id, operator, left ++ ms⟩).cells label + h) () n
      ((k.fill ⟨id, operator, left ++ Node.unnestAll operator ms⟩).cells label + h) := by
  induction ms generalizing left with
  | nil => exact pure
  | cons m rest ih =>
    by_cases hm : m.isGroupWith operator
    · obtain _ | ⟨sub, inner, ms⟩ := m
      · cases hm
      have hinner : inner = operator := by simpa [Node.isGroupWith] using hm
      subst hinner
      rw [List.filter_cons_of_pos hm, List.map_cons]
      refine bind (spliceIntoParent label k id sub inner inner left ms rest) ?_
      simpa [Node.unnestAll, Node.unnest] using ih (left ++ ms)
    · have hunnest : m.unnest operator = [m] := by
        cases m with
        | leaf leaf c => rfl
        | group sub inner ms => exact if_neg (by simpa [Node.isGroupWith] using hm)
      rw [List.filter_cons_of_neg hm]
      simpa [Node.unnestAll, hunnest] using ih (left ++ [m])

theorem spliceSubgroups (k : Context) (g : Group) (operator : Connective) :
    Does (ArenaM.spliceSubgroups g.id operator) n ((k.fill { g with operator }).cells label + h) ()
      n ((k.fill (g.retype operator)).cells label + h) := by
  obtain ⟨id, around, children⟩ := g
  refine bind (group_fill label k ⟨id, operator, children⟩) ?_
  refine bind (peek fun a ha => ?_) (spliceAll label k id operator [] children)
  -- Which children are merged is read off before the first of them moves.
  have hchildren : ∀ m ∈ children,
      a.isGroupWith m.id operator = m.isGroupWith operator := fun m hm => by
    obtain ⟨left, right, rfl⟩ := List.append_of_mem hm
    exact ha.isGroupWith_child label
  rw [Group.cell, List.filter_map]
  exact congrArg (List.map Node.id) (List.filter_congr hchildren)

theorem spliceInto (k : Context) (g : Group) :
    Does (ArenaM.spliceInto g.id g.operator) n ((k.fill g).cells label + h) () n
      ((k.merge g).cells label + h) := by
  refine bind (parentWith label k g) ?_
  cases k with
  | top => exact pure
  | under k id around left right =>
    rw [Context.operator?, Context.parent?, Context.merge, Group.node, Node.unnest]
    by_cases heq : around = g.operator
    · rw [if_pos (congrArg some heq), if_pos heq.symm]
      exact spliceIntoParent label k id g.id around g.operator left g.children right
    · rw [if_neg (by simpa using heq), if_neg (Ne.symm heq)]
      exact pure.reorder (by simp [Context.fill, Group.node]) rfl

/-- A group gets its connective as the rule says. -/
theorem setGroupOperator {id : NodeId} {operator : Connective} {root root' : Group}
    (hretypes : Retypes operator id root root') :
    Does (ArenaM.setGroupOperator label id operator) n (root.cells label + h) () n
      (root'.cells label + h) := by
  cases hretypes with
  | group k g =>
    refine bind (retype label k g operator) ?_
    refine bind (spliceSubgroups label k g operator) ?_
    exact spliceInto label k (g.retype operator)

/-- A leaf changes as the rule says. -/
theorem modifyLeaf {f : Constraint → Constraint} {id : NodeId} {root root' : Group}
    (hupdates : Updates f id root root') :
    Does (ArenaM.modifyConstraint id f) n (root.cells label + h) () n
      (root'.cells label + h) := by
  cases hupdates with
  | leaf k parent operator left _ c right =>
    rw [Context.cells_fill_append, Context.cells_fill_append]
    have hmodify := modifyConstraint (n := n) (i := id) (p := some parent) (c := c)
      (h := {(parent, ⟨k.parent?, .group ⟨operator, label operator, k.isRoot,
          left.map Node.id ++ id :: right.map Node.id⟩⟩)} + Node.cellsAll label (some parent) left +
        Node.cellsAll label (some parent) right + k.rest label parent + h) f
    refine hmodify.reorder ?_ ?_
    · simp only [Node.cellsAll_cons, Node.cells, List.map_cons, Node.id]
      abel
    · simp only [Node.cellsAll_cons, Node.cells, List.map_cons, Node.id]
      abel

end ArenaM.Does

end CorpusQuery
