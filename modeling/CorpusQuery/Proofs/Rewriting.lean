import CorpusQuery.Proofs.Formula
import CorpusQuery.Proofs.WellFormed

/-!
Each edit of a tree comes to what was asked for: one node gives way to others, and whatever else is
regrouped on the way is regrouped by associativity alone.
-/

namespace CorpusQuery

namespace Node

variable {id : NodeId} {f : Node → List Node}

theorem substituteAll_append (ms ns : List Node) :
    substituteAll id f (ms ++ ns) = substituteAll id f ms ++ substituteAll id f ns := by
  induction ms with
  | nil => rfl
  | cons m rest ih =>
    rw [List.cons_append, substituteAll, substituteAll, ih, List.append_assoc]

theorem substitute_self (n : Node) : n.substitute n.id f = f n := by
  cases n with
  | leaf i c => rw [Node.id, substitute, if_pos rfl]
  | group i operator children => rw [Node.id, substitute, if_pos rfl]

theorem idsAll_append (ms ns : List Node) : idsAll (ms ++ ns) = idsAll ms ++ idsAll ns := by
  induction ms with
  | nil => rfl
  | cons m rest ih => rw [List.cons_append, idsAll, idsAll, ih, List.append_assoc]

theorem id_mem_ids (n : Node) : n.id ∈ n.ids := by
  cases n <;> exact List.mem_cons_self

mutual

theorem substitute_of_notMem : (n : Node) → id ∉ n.ids → n.substitute id f = [n]
  | .leaf i c, h => by
    have hne : i ≠ id := fun heq => h (heq ▸ List.mem_cons_self)
    rw [substitute, if_neg hne]
  | .group i operator children, h => by
    rw [ids, List.mem_cons, not_or] at h
    rw [substitute, if_neg (Ne.symm h.1), substituteAll_of_notMem children h.2]

theorem substituteAll_of_notMem : (ns : List Node) → id ∉ idsAll ns → substituteAll id f ns = ns
  | [], _ => rfl
  | n :: rest, h => by
    rw [idsAll, List.mem_append, not_or] at h
    rw [substituteAll, substitute_of_notMem n h.1, substituteAll_of_notMem rest h.2]
    rfl

end

end Node

open Node (Equivalent operands)

theorem Group.ids_node_child (i : NodeId) (operator : Connective) (left : List Node) (m : Node)
    (right : List Node) : (Group.node ⟨i, operator, left ++ m :: right⟩).ids =
      i :: (Node.idsAll left ++ (m.ids ++ Node.idsAll right)) := by
  rw [Group.node, Node.ids, Node.idsAll_append, Node.idsAll]

namespace Context

/-- The number is not in use around the missing group. -/
def Avoids (id : NodeId) : Context → Prop
  | top => True
  | under outer i _ left right =>
    i ≠ id ∧ id ∉ Node.idsAll left ∧ id ∉ Node.idsAll right ∧ outer.Avoids id

/-- Numbers in a group are not in use around it. -/
theorem avoids_of_nodup {k : Context} {g : Group} (h : (k.fill g).node.ids.Nodup) :
    g.node.ids.Nodup ∧ ∀ id ∈ g.node.ids, k.Avoids id := by
  induction k generalizing g with
  | top => exact ⟨h, fun _ _ => trivial⟩
  | under outer i operator left right ih =>
    obtain ⟨hgroup, houter⟩ := ih h
    rw [Group.ids_node_child] at hgroup houter
    rw [List.nodup_cons, List.nodup_append, List.nodup_append] at hgroup
    obtain ⟨hi, -, ⟨hg, -, hright⟩, hleft⟩ := hgroup
    refine ⟨hg, fun id hid => ⟨?_, ?_, ?_, houter id (by simp [hid])⟩⟩
    · rintro rfl
      exact hi (by simp [hid])
    · exact fun hmem => hleft id hmem id (by simp [hid]) rfl
    · exact fun hmem => hright id hid id hmem rfl

theorem ids_subset_fill (k : Context) (g : Group) : g.node.ids ⊆ (k.fill g).node.ids := by
  induction k generalizing g with
  | top => exact List.Subset.refl _
  | under outer i operator left right ih =>
    refine List.Subset.trans (fun id hid => ?_) (ih _)
    rw [Group.ids_node_child]
    simp [hid]

theorem id_child_mem_fill (k : Context) {i : NodeId} {operator : Connective}
    {left right : List Node} {m : Node} :
    m.id ∈ (k.fill ⟨i, operator, left ++ m :: right⟩).node.ids := by
  refine k.ids_subset_fill _ ?_
  rw [Group.ids_node_child]
  simp [m.id_mem_ids]

variable {id : NodeId} {f : Node → List Node}

theorem substitute_fill {k : Context} (hk : k.Avoids id) {g g' : Group}
    (h : g.node.substitute id f = [g'.node]) :
    (k.fill g).node.substitute id f = [(k.fill g').node] := by
  induction k generalizing g g' with
  | top => exact h
  | under outer i operator left right ih =>
    obtain ⟨hi, hleft, hright, houter⟩ := hk
    refine ih houter ?_
    rw [Group.node, Node.substitute, if_neg hi, Node.substituteAll_append, Node.substituteAll,
      Node.substituteAll_of_notMem left hleft, Node.substituteAll_of_notMem right hright, h]
    rfl

/-- What comes in place of a child comes between its siblings. -/
theorem substitute_child {k : Context} {i : NodeId} {operator : Connective} {left right : List Node}
    {m : Node} (h : (k.fill ⟨i, operator, left ++ m :: right⟩).node.ids.Nodup) :
    (k.fill ⟨i, operator, left ++ m :: right⟩).node.substitute m.id f =
      [(k.fill ⟨i, operator, left ++ f m ++ right⟩).node] := by
  obtain ⟨hgroup, hk⟩ := avoids_of_nodup h
  have hm := m.id_mem_ids
  refine substitute_fill (hk m.id (by simp [Group.ids_node_child, hm])) ?_
  rw [Group.ids_node_child, List.nodup_cons, List.nodup_append, List.nodup_append] at hgroup
  obtain ⟨hi, -, ⟨-, -, hright⟩, hleft⟩ := hgroup
  have hne : i ≠ m.id := by
    rintro rfl
    exact hi (by simp [hm])
  rw [Group.node, Node.substitute, if_neg hne, Node.substituteAll_append, Node.substituteAll,
    Node.substitute_self, Node.substituteAll_of_notMem left fun hmem => hleft _ hmem _ (by simp [hm]) rfl,
    Node.substituteAll_of_notMem right fun hmem => hright _ hm _ hmem rfl]
  simp [Group.node]

/-- A change of the group around a child, seen as one of the child. -/
theorem equivalent_child {k : Context} {i : NodeId} {operator inner : Connective}
    {ms left right : List Node} {m : Node}
    (hnodup : (k.fill ⟨i, inner, left ++ m :: right⟩).node.ids.Nodup)
    (h : Equivalent [.group i operator ms] [.group i inner (left ++ f m ++ right)]) :
    Equivalent [(k.fill ⟨i, operator, ms⟩).node]
      ((k.fill ⟨i, inner, left ++ m :: right⟩).node.substitute m.id f) := by
  rw [substitute_child hnodup]
  exact k.equivalent_fill h

theorem equivalent_group {k : Context} {g g' : Group} (hnodup : (k.fill g).node.ids.Nodup)
    (h : Equivalent [g'.node] (f g.node)) :
    Equivalent [(k.fill g').node] ((k.fill g).node.substitute g.id f) := by
  cases k with
  | top =>
    have hself : g.node.substitute g.id f = f g.node := g.node.substitute_self
    rw [fill, fill, hself]
    exact h
  | under outer i operator left right =>
    refine equivalent_child (m := g.node) hnodup (.group ?_)
    simpa using h.append (l := left) (r := right)

end Context

variable {operator : Connective} {root root' : Group}

/-- The children of a group can take another one in as they are. -/
theorem Group.operands_children {g : Group} (h : g.children.length ≤ 1 ∨ g.operator = operator) :
    operands operator g.children = operands operator [g.node] := by
  rcases h with hlength | rfl
  · have hsparse : Equivalent [g.node] g.children := Node.formulas_sparse g.id hlength
    exact hsparse.symm.operands_eq
  · exact (Node.operands_group g.id g.children).symm

/-- Whichever way a new node is joined to another, it ends up right behind it. -/
theorem Joins.equivalent {new : Node} {fresh group : NodeId} {origin : Option (NodeId × Nat)}
    (h : Joins operator new fresh group origin root root') (hnodup : root.node.ids.Nodup)
    (wrapper : NodeId) :
    Equivalent [root'.node] (root.node.substitute ((origin.map (·.1)).getD group)
      (Node.joinedWith wrapper operator new)) := by
  -- Between siblings that are joined by the operator, no group is needed around the two.
  have hbeside : ∀ (left : List Node) (child : Node) (right : List Node),
      operands operator (left ++ child :: new :: right) =
        operands operator (left ++ Node.joinedWith wrapper operator new child ++ right) := by
    intro left child right
    rw [Node.joinedWith, Node.operands_append, Node.operands_append, Node.operands_append,
      Node.operands_group, List.append_assoc, ← Node.operands_append (m := [child, new])]
    rfl
  cases h with
  | atEnd k g h =>
    refine Context.equivalent_group hnodup (.of_operands ?_)
    rw [Node.operands_append, Group.operands_children h, ← Node.operands_append]
    rfl
  | behind k _ inner left child right h =>
    refine Context.equivalent_child hnodup ?_
    rcases h with hlength | rfl
    · -- An only child leaves nothing else to join.
      obtain ⟨rfl, rfl⟩ : left = [] ∧ right = [] := by
        simp only [List.length_append, List.length_cons] at hlength
        exact ⟨List.eq_nil_of_length_eq_zero (by omega), List.eq_nil_of_length_eq_zero (by omega)⟩
      have hsparse : Equivalent [.group group inner (Node.joinedWith wrapper operator new child)]
        (Node.joinedWith wrapper operator new child) := Node.formulas_sparse group (Nat.le_refl 1)
      simpa using Equivalent.trans (.group (.refl [child, new])) hsparse.symm
    · exact .of_operands (hbeside left child right)
  | inside k _ inner left sub children right hne hlen =>
    refine Context.equivalent_child (m := .group sub operator children) hnodup (.group ?_)
    have hsub : Equivalent [.group sub operator (children ++ [new])]
        (Node.joinedWith wrapper operator new (.group sub operator children)) := by
      refine .of_operands ?_
      rw [Node.operands_append, ← Node.operands_group sub, ← Node.operands_append]
      rfl
    simpa using hsub.append (l := left) (r := right)
  | around k _ inner left child right hne hlen hchild =>
    refine Context.equivalent_child hnodup (.group ?_)
    have hchild : Equivalent [.group fresh operator [child, new]]
      (Node.joinedWith wrapper operator new child) := .group (.refl _)
    simpa using hchild.append (l := left) (r := right)
  | beside outer id left g right hne hlen =>
    exact Context.equivalent_child (m := g.node) hnodup (.of_operands (hbeside left g.node right))
  | above k g hne hlen hk =>
    refine Context.equivalent_group hnodup (.group ?_)
    have hself : Equivalent [.group fresh g.operator g.children] [g.node] := .group (.refl _)
    simpa using hself.append (l := []) (r := [new])

theorem Joins.Place.mem_ids {group : NodeId} {origin : Option (NodeId × Nat)}
    (h : Joins.Place group origin root) : (origin.map (·.1)).getD group ∈ root.node.ids := by
  cases h with
  | atEnd k g => exact k.ids_subset_fill g g.node.id_mem_ids
  | behind k _ inner left child right => exact k.id_child_mem_fill

theorem Removes.mem_ids {id : NodeId} (h : Removes id root root') : id ∈ root.node.ids := by
  cases h with
  | child k i operator left n right => exact k.id_child_mem_fill

theorem Retypes.mem_ids {id : NodeId} (h : Retypes operator id root root') :
    id ∈ root.node.ids := by
  cases h with
  | group k g => exact k.ids_subset_fill g g.node.id_mem_ids

theorem Removes.equivalent {id : NodeId} (h : Removes id root root')
    (hnodup : root.node.ids.Nodup) :
    Equivalent [root'.node] (root.node.substitute id fun _ => []) := by
  cases h with
  | child k i operator left n right =>
    refine (k.equivalent_settle _).trans (Context.equivalent_child hnodup ?_)
    simpa using Equivalent.refl _

theorem Retypes.equivalent {id : NodeId} (h : Retypes operator id root root')
    (hnodup : root.node.ids.Nodup) :
    Equivalent [root'.node] (root.node.substitute id fun n => [n.withOperator operator]) := by
  cases h with
  | group k g =>
    exact (k.equivalent_merge _).trans
      (Context.equivalent_group hnodup (g.equivalent_retype operator))

/-! ### Builders -/

mutual

theorem Node.fold_group (label : Connective → Text) : (n : Node) →
    n.fold label .leaf (fun id g children => .group id g.operator children) = n
  | .leaf _ _ => rfl
  | .group id operator children => by
    rw [Node.fold, Node.foldAll_group label children]
    rfl

theorem Node.foldAll_group (label : Connective → Text) : (ns : List Node) →
    Node.foldAll label .leaf (fun id g children => .group id g.operator children) ns = ns
  | [] => rfl
  | n :: rest => by rw [Node.foldAll, Node.fold_group label n, Node.foldAll_group label rest]

end

namespace Builder.Shows

variable {b b' : Builder} {s : Settings} {n n' : NodeId} {d : Draft}

theorem tree_eq (hb : b.Shows s n d) {t : Slot Group} (ht : t ∈ d.slots) :
    b.tree t.root.id = .ok t.root.node := by
  obtain ⟨h, ha⟩ := hb.holds_token ht
  rw [Builder.tree, Group.arena_fold s.operatorLabel _ _ t.root ha, Group.fold, Node.foldAll_group]
  rfl

theorem nodup_ids (hb : b.Shows s n d) : (d.slots.map (·.root.node.ids)).flatten.Nodup := by
  have hnodup := hb.holds.nodup
  rwa [Draft.ids_cells, Multiset.coe_nodup] at hnodup

/-- A token's tree gives way to what `f` asks for; the other trees are left alone. -/
theorem rewrites {left right : List (Slot Group)} {t : Slot Group} {within : Option Text}
    {root : Group} {id : NodeId} {f : Node → List Node}
    (hb : b.Shows s n ⟨left ++ t :: right, within⟩)
    (hb' : b'.Shows s n' ⟨left ++ { t with root } :: right, within⟩) (hroot : root.id = t.root.id)
    (hid : id ∈ t.root.node.ids)
    (h : t.root.node.ids.Nodup → Equivalent [root.node] (t.root.node.substitute id f)) :
    b.Rewrites id f b' := by
  have ht : t ∈ left ++ t :: right := by simp
  have hnodup := hb.nodup_ids
  simp only [List.map_append, List.map_cons, List.flatten_append, List.flatten_cons] at hnodup
  rw [List.nodup_append, List.nodup_append] at hnodup
  obtain ⟨-, ⟨htree, -, hright⟩, hleft⟩ := hnodup
  refine ⟨hb'.settings_eq.trans hb.settings_eq.symm, ?_, hb'.within_eq.trans hb.within_eq.symm,
    ⟨_, hb.mapRoot_mem ht, _, hb.tree_eq ht, hid⟩, fun u hu => ?_⟩
  · rw [hb.slots_eq, hb'.slots_eq]
    simp [Slot.mapRoot, hroot]
  obtain ⟨v, hv, rfl⟩ := hb.mem_slots hu
  by_cases hvt : v = t
  · subst hvt
    have hv' : { v with root } ∈ left ++ { v with root } :: right := by simp
    have htree' : b'.tree v.root.id = .ok root.node := hroot ▸ hb'.tree_eq hv'
    exact ⟨_, _, hb.tree_eq ht, htree', h htree, fun hnot => absurd hid hnot⟩
  · -- A number in one tree is in no other.
    have hother : v ∈ left ∨ v ∈ right := by simpa [hvt] using hv
    have hnot : id ∉ v.root.node.ids := by
      intro hmem
      rcases hother with hmemv | hmemv
      · exact hleft id (List.mem_flatten_of_mem (List.mem_map_of_mem hmemv) hmem) id
          (List.mem_append_left _ hid) rfl
      · exact hright id hid id (List.mem_flatten_of_mem (List.mem_map_of_mem hmemv) hmem) rfl
    have hv' : v ∈ left ++ { t with root } :: right := by
      simp only [List.mem_append, List.mem_cons]
      exact hother.imp_right .inr
    refine ⟨_, _, hb.tree_eq hv, hb'.tree_eq hv', ?_, fun _ => rfl⟩
    rw [Node.substitute_of_notMem _ hnot]

/-- An edit that is asked for in the tree of one token. -/
theorem rewrites_of_reshapes {left right : List (Slot Group)} {t : Slot Group}
    {within : Option Text} {root : Group} {e : Edit} {o : Outcome} {id : NodeId}
    {f : Node → List Node} (hb : b.Shows s n ⟨left ++ t :: right, within⟩)
    (hb' : b'.Shows s n' ⟨left ++ { t with root } :: right, within⟩)
    (hreshapes : Draft.Reshapes s n e o t.root root) (hasks : e.Asks s o id f) :
    b.Rewrites id f b' := by
  have hroot := hreshapes.id_eq
  cases hasks with
  | createConstraint group operator origin new wrapper =>
    -- The child to join comes with its index in the rule, which the edit does not mention.
    generalize heq : Edit.createConstraint group operator origin = e at hreshapes
    cases hreshapes with
    | createConstraint _ _ place _ _ hjoins =>
      cases heq
      have hmem : (Option.map (·.1) place).getD group ∈ t.root.node.ids := hjoins.place.mem_ids
      exact hb.rewrites hb' hroot hmem fun hnodup => hjoins.equivalent hnodup wrapper
  | removeNode id =>
    cases hreshapes with
    | removeNode _ _ _ hremoves => exact hb.rewrites hb' hroot hremoves.mem_ids hremoves.equivalent
  | setGroupOperator id operator =>
    cases hreshapes with
    | setGroupOperator _ _ _ _ hretypes =>
      exact hb.rewrites hb' hroot hretypes.mem_ids hretypes.equivalent

end Builder.Shows

/-- Whatever a builder has been through, an edit of a tree puts in place of one node what was asked
for, and regroups the rest by associativity alone. -/
theorem Builder.run_rewrites (s : Settings) (edits : List Edit) {e : Edit} {o : Outcome}
    {id : NodeId} {f : Node → List Node} (hasks : e.Asks s o id f)
    (hok : (((Builder.new s).run edits).apply e).1 = .ok o) :
    ((Builder.new s).run edits).Rewrites id f (((Builder.new s).run edits).step e) ∧
      ∀ new, o = .node new → ¬ ((Builder.new s).run edits).contains new := by
  obtain ⟨n, d, hb, -⟩ := Builder.run_shows (s := s) (P := fun _ => True) (Q := fun _ => True)
    trivial (fun _ _ _ _ _ _ _ _ => trivial) edits (by simp)
  generalize (Builder.new s).run edits = b at hb hok
  rcases BuilderM.apply_follows hb e with ⟨error, h⟩ | ⟨o', n', d', b', hstep, h, hb'⟩
  · simp only [apply, h] at hok
    cases hok
  have ho : o' = o := by simpa [apply, h] using hok
  have hnext : b.step e = b' := by simp only [step, apply, h]
  subst ho
  rw [hnext]
  cases hstep with
  | reshape e o left t right root within hreshapes =>
    refine ⟨hb.rewrites_of_reshapes hb' hreshapes hasks, ?_⟩
    rintro new rfl
    cases hreshapes
    intro hcontains
    exact Nat.lt_irrefl _ (hb.holds.next_eq ▸ Arena.lt_next_of_contains hcontains)
  -- No other edit asks for anything in a tree.
  | load _ _ _ hloads => cases hloads <;> cases hasks
  | rearrange _ _ _ _ hrearranges => cases hrearranges <;> cases hasks
  | createToken => cases hasks
  | removeToken => cases hasks
  | setWithin => cases hasks

/-- The first of two constraints gets an alternative, in a group of their own. -/
theorem Builder.run_rewrites_wrapping :
    let b := (Builder.new .standard).run [.createConstraint 1 .and none]
    (b.apply (.createConstraint 1 .or (some 0))).1 = .ok (.node 3) ∧
      b.Rewrites 0 (Node.joinedWith 4 .or (.leaf 3 (.blank Settings.standard.defaultAttribute)))
        (b.step (.createConstraint 1 .or (some 0))) := by
  have hok : (((Builder.new .standard).run [.createConstraint 1 .and none]).apply
      (.createConstraint 1 .or (some 0))).1 = .ok (.node 3) := by decide +kernel
  exact ⟨hok, (Builder.run_rewrites .standard _ (.createConstraint 1 .or (some 0) 3 4) hok).1⟩

end CorpusQuery
