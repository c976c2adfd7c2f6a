import CorpusQuery.Draft.Context

/-!
What edits make of the tree of a token. Each rule shows the tree before and after, with whatever
lies around the group concerned left alone.
-/

namespace CorpusQuery

/-- A group `group` takes in the node `new`, joined by `operator` to its child `origin`, given with
its index, or to all children without one. A group that has to be made is numbered `fresh`. -/
inductive Joins (operator : Connective) (new : Node) (fresh : NodeId) :
    NodeId → Option (NodeId × Nat) → Group → Group → Prop where
  /-- Where there is nothing to separate, the group takes the connective over. -/
  | atEnd (k : Context) (g : Group) (h : g.children.length ≤ 1 ∨ g.operator = operator) :
    Joins operator new fresh g.id none (k.fill g) (k.fill ⟨g.id, operator, g.children ++ [new]⟩)
  | behind (k : Context) (id : NodeId) (inner : Connective) (left : List Node) (child : Node)
      (right : List Node) (h : (left ++ child :: right).length ≤ 1 ∨ inner = operator) :
    Joins operator new fresh id (some (child.id, left.length))
      (k.fill ⟨id, inner, left ++ child :: right⟩)
      (k.fill ⟨id, operator, left ++ child :: new :: right⟩)
  /-- A subgroup that is joined so already takes the node in. -/
  | inside (k : Context) (id : NodeId) (inner : Connective) (left : List Node) (sub : NodeId)
      (children right : List Node) (hne : inner ≠ operator)
      (hlen : 1 < (left ++ .group sub operator children :: right).length) :
    Joins operator new fresh id (some (sub, left.length))
      (k.fill ⟨id, inner, left ++ .group sub operator children :: right⟩)
      (k.fill ⟨id, inner, left ++ .group sub operator (children ++ [new]) :: right⟩)
  /-- Any other child is wrapped in a new group together with the node. -/
  | around (k : Context) (id : NodeId) (inner : Connective) (left : List Node) (child : Node)
      (right : List Node) (hne : inner ≠ operator) (hlen : 1 < (left ++ child :: right).length)
      (hchild : child.isGroupWith operator = false) :
    Joins operator new fresh id (some (child.id, left.length))
      (k.fill ⟨id, inner, left ++ child :: right⟩)
      (k.fill ⟨id, inner, left ++ .group fresh operator [child, new] :: right⟩)
  /-- To join the whole group is to join it in its parent, if that is joined so. -/
  | beside (outer : Context) (id : NodeId) (left : List Node) (g : Group) (right : List Node)
      (hne : g.operator ≠ operator) (hlen : 1 < g.children.length) :
    Joins operator new fresh g.id none
      (outer.fill ⟨id, operator, left ++ g.node :: right⟩)
      (outer.fill ⟨id, operator, left ++ g.node :: new :: right⟩)
  /-- Else the group becomes what joins its old self and the node. -/
  | above (k : Context) (g : Group) (hne : g.operator ≠ operator) (hlen : 1 < g.children.length)
      (hk : k.operator? ≠ some operator) :
    Joins operator new fresh g.id none (k.fill g)
      (k.fill ⟨g.id, operator, [.group fresh g.operator g.children, new]⟩)

/-- A group takes nodes in behind any of its children, and at its end. -/
inductive Joins.Place : NodeId → Option (NodeId × Nat) → Group → Prop where
  | atEnd (k : Context) (g : Group) : Place g.id none (k.fill g)
  | behind (k : Context) (id : NodeId) (operator : Connective) (left : List Node) (child : Node)
      (right : List Node) :
    Place id (some (child.id, left.length)) (k.fill ⟨id, operator, left ++ child :: right⟩)

theorem Joins.place {operator : Connective} {new : Node} {fresh group : NodeId}
    {origin : Option (NodeId × Nat)} {root root' : Group}
    (h : Joins operator new fresh group origin root root') : Joins.Place group origin root := by
  cases h with
  | atEnd k g => exact .atEnd k g
  | behind k _ inner left child right => exact .behind k group inner left child right
  | inside k _ inner left sub children right =>
    exact .behind k group inner left (.group sub operator children) right
  | around k _ inner left child right => exact .behind k group inner left child right
  | beside outer id left g right => exact .atEnd (.under outer id operator left right) g
  | above k g => exact .atEnd k g

/-- At each place one of the rules applies. -/
theorem Joins.exists_of_place {operator : Connective} {new : Node} {fresh group : NodeId}
    {origin : Option (NodeId × Nat)} {root : Group} (h : Joins.Place group origin root) :
    ∃ root', Joins operator new fresh group origin root root' := by
  cases h with
  | atEnd k g =>
    by_cases hg : g.children.length ≤ 1 ∨ g.operator = operator
    · exact ⟨_, .atEnd k g hg⟩
    rw [not_or] at hg
    by_cases hk : k.operator? = some operator
    · obtain _ | ⟨outer, id, around, left, right⟩ := k
      · cases hk
      · cases hk
        exact ⟨_, .beside outer id left g right hg.2 (by omega)⟩
    · exact ⟨_, .above k g hg.2 (by omega) hk⟩
  | behind k _ inner left child right =>
    by_cases hg : (left ++ child :: right).length ≤ 1 ∨ inner = operator
    · exact ⟨_, .behind k group inner left child right hg⟩
    rw [not_or] at hg
    cases hchild : child.isGroupWith operator with
    | false => exact ⟨_, .around k group inner left child right hg.2 (by omega) hchild⟩
    | true =>
      obtain _ | ⟨sub, within, children⟩ := child
      · cases hchild
      · have hwithin : within = operator := by simpa [Node.isGroupWith] using hchild
        subst hwithin
        exact ⟨_, .inside k group inner left sub children right hg.2 (by omega)⟩

namespace Group

/-- A group with another connective. Subgroups that have it already are merged into the group. -/
def retype (g : Group) (operator : Connective) : Group :=
  ⟨g.id, operator, Node.unnestAll operator g.children⟩

/-- A root left with nothing but a subgroup takes its place. -/
def absorb (g : Group) : Group :=
  match g.children with
  | [.group _ operator children] => ⟨g.id, operator, children⟩
  | _ => g

theorem absorb_eq_self {g : Group} (h : ∀ id operator children,
    g.children ≠ [.group id operator children]) : g.absorb = g := by
  unfold absorb
  split
  next heq => exact absurd heq (h _ _ _)
  next => rfl

end Group

/-- Puts a group in and, if the group around is joined as it is, merges it into that. -/
def Context.merge : Context → Group → Group
  | top, g => g
  | under outer id around left right, g =>
    outer.fill ⟨id, around, left ++ g.node.unnest around ++ right⟩

/-- A group gets another connective. -/
inductive Retypes (operator : Connective) : NodeId → Group → Group → Prop where
  | group (k : Context) (g : Group) :
    Retypes operator g.id (k.fill g) (k.merge (g.retype operator))

/-- Puts a group in that has lost a child. If one child is left at most, it stands for the group,
and the group around has to be seen to in turn. -/
def Context.settle : Context → Group → Group
  | top, g => g.absorb
  | under outer id operator left right, g =>
    if g.children.length ≤ 1 then
      outer.settle ⟨id, operator, left ++ Node.unnestAll operator g.children ++ right⟩
    else outer.fill ⟨id, operator, left ++ g.node :: right⟩

/-- A node goes with all below it. -/
inductive Removes : NodeId → Group → Group → Prop where
  | child (k : Context) (id : NodeId) (operator : Connective) (left : List Node) (n : Node)
      (right : List Node) :
    Removes n.id (k.fill ⟨id, operator, left ++ n :: right⟩)
      (k.settle ⟨id, operator, left ++ right⟩)

/-- A constraint changes in its place. -/
inductive Updates (f : Constraint → Constraint) : NodeId → Group → Group → Prop where
  | leaf (k : Context) (id : NodeId) (operator : Connective) (left : List Node) (leaf : NodeId)
      (c : Constraint) (right : List Node) :
    Updates f leaf (k.fill ⟨id, operator, left ++ .leaf leaf c :: right⟩)
      (k.fill ⟨id, operator, left ++ .leaf leaf (f c) :: right⟩)

/-! ### Roots keep their numbers -/

theorem Group.id_absorb (g : Group) : g.absorb.id = g.id := by
  unfold Group.absorb
  split <;> rfl

namespace Context

theorem id_fill (k : Context) {g g' : Group} (h : g'.id = g.id) : (k.fill g').id = (k.fill g).id := by
  induction k generalizing g g' with
  | top => exact h
  | under outer id operator left right ih => exact ih rfl

theorem id_merge (k : Context) {g g' : Group} (h : g'.id = g.id) :
    (k.merge g').id = (k.fill g).id := by
  cases k with
  | top => exact h
  | under outer id operator left right => exact outer.id_fill rfl

theorem id_settle (k : Context) {g g' : Group} (h : g'.id = g.id) :
    (k.settle g').id = (k.fill g).id := by
  induction k generalizing g g' with
  | top => exact g'.id_absorb.trans h
  | under outer id operator left right ih =>
    rw [settle]
    split
    · exact ih rfl
    · exact outer.id_fill rfl

end Context

theorem Joins.id_eq {operator : Connective} {new : Node} {fresh group : NodeId}
    {origin : Option (NodeId × Nat)} {root root' : Group}
    (h : Joins operator new fresh group origin root root') : root'.id = root.id := by
  cases h <;> exact Context.id_fill _ rfl

theorem Retypes.id_eq {operator : Connective} {id : NodeId} {root root' : Group}
    (h : Retypes operator id root root') : root'.id = root.id := by
  cases h
  exact Context.id_merge _ rfl

theorem Removes.id_eq {id : NodeId} {root root' : Group} (h : Removes id root root') :
    root'.id = root.id := by
  cases h
  exact Context.id_settle _ rfl

theorem Updates.id_eq {f : Constraint → Constraint} {id : NodeId} {root root' : Group}
    (h : Updates f id root root') : root'.id = root.id := by
  cases h
  exact Context.id_fill _ rfl

end CorpusQuery
