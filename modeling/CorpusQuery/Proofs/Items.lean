import CorpusQuery.Proofs.Rewriting
import CorpusQuery.Proofs.Undo

/-!
What edits carry along. A step of a draft brings in nodes with new numbers; all others it has from
before, each in its token, and it looks into no token that it is not about.
-/

namespace CorpusQuery

namespace Edit

/-- The edit puts a query in place of all there is, and nodes are numbered anew. -/
def startsOver : Edit → Bool
  | .parse _ | .populate _ | .reset => true
  | _ => false

/-- The node that the edit is about. -/
def node? : Edit → Option NodeId
  | .createConstraint group _ _ => some group
  | .removeNode id | .setGroupOperator id _ | .setField id _ => some id
  | _ => none

/-- The token that the edit changes from outside its tree. -/
def token? : Edit → Option Nat
  | .removeToken index | .setMark index _ _ | .setRepeats index _ => some index
  | _ => none

theorem token?_of_node? {e : Edit} {id : NodeId} (h : e.node? = some id) : e.token? = none := by
  cases e <;> cases h <;> rfl

end Edit

/-! ### The nodes of a draft -/

/-- A node with the root of its token and, if it is no group, the constraint that it holds. -/
structure Item where
  root : NodeId
  id : NodeId
  constraint? : Option Constraint

def Entry.constraint? : Entry → Option Constraint
  | .leaf c => some c
  | .group _ => none

def Item.ofCell (root : NodeId) (x : NodeId × Cell) : Item := ⟨root, x.1, x.2.entry.constraint?⟩

namespace Node

mutual

def items (root : NodeId) : Node → List Item
  | .leaf id c => [⟨root, id, some c⟩]
  | .group id _ children => ⟨root, id, none⟩ :: itemsAll root children

def itemsAll (root : NodeId) : List Node → List Item
  | [] => []
  | n :: rest => n.items root ++ itemsAll root rest

end

variable {root : NodeId}

theorem itemsAll_append (ms ns : List Node) :
    itemsAll root (ms ++ ns) = itemsAll root ms ++ itemsAll root ns := by
  induction ms with
  | nil => rfl
  | cons m rest ih => rw [List.cons_append, itemsAll, itemsAll, ih, List.append_assoc]

mutual

theorem ids_items : (n : Node) → (n.items root).map (·.id) = n.ids
  | .leaf _ _ => rfl
  | .group id operator children => by
    rw [items, List.map_cons, ids_itemsAll children, ids]

theorem ids_itemsAll : (ns : List Node) → (itemsAll root ns).map (·.id) = idsAll ns
  | [] => rfl
  | n :: rest => by
    rw [itemsAll, List.map_append, ids_items n, ids_itemsAll rest, idsAll]

end

variable (label : Connective → Text)

mutual

/-- The items are what the cells hold. -/
theorem map_cells (parent : Option NodeId) : (n : Node) →
    (n.cells label parent).map (Item.ofCell root) = n.items root
  | .leaf id c => rfl
  | .group id operator children => by
    rw [cells, Multiset.map_add, map_cellsAll (some id) children]
    rfl

theorem map_cellsAll (parent : Option NodeId) : (ns : List Node) →
    (cellsAll label parent ns).map (Item.ofCell root) = itemsAll root ns
  | [] => rfl
  | n :: rest => by
    rw [cellsAll_cons, Multiset.map_add, map_cells parent n, map_cellsAll parent rest]
    rfl

end

end Node

theorem Group.mem_items_iff (label : Connective → Text) {root : NodeId} (g : Group) {x : Item} :
    x ∈ g.node.items root ↔ ∃ p ∈ g.cells label, Item.ofCell root p = x := by
  have hcells : (g.cells label).map (Item.ofCell root) = g.node.items root := by
    rw [cells, placed, Multiset.map_add, Node.map_cellsAll]
    rfl
  rw [← Multiset.mem_coe, ← hcells, Multiset.mem_map]

theorem Group.mem_ids_iff (label : Connective → Text) (g : Group) {id : NodeId} :
    id ∈ g.node.ids ↔ ∃ c, (id, c) ∈ g.cells label := by
  rw [← Multiset.mem_coe, ← g.ids_cells label, Heap.ids, Multiset.mem_map]
  constructor
  · rintro ⟨⟨_, c⟩, hc, rfl⟩
    exact ⟨c, hc⟩
  · rintro ⟨c, hc⟩
    exact ⟨(id, c), hc, rfl⟩

/-! ### What the rules make of them -/

namespace Node

variable {P : Item → Prop} {root : NodeId} {ms ns ls : List Node}

/-- From the nodes `ms` to the nodes `ns` nothing is new but what `P` says. -/
def Gains (P : Item → Prop) (root : NodeId) (ms ns : List Node) : Prop :=
  ∀ x ∈ itemsAll root ns, x ∈ itemsAll root ms ∨ P x

namespace Gains

theorem refl (ms : List Node) : Gains P root ms ms := fun _ hx => .inl hx

theorem mem {m m' : Node} (h : Gains P root [m] [m']) {x : Item} (hx : x ∈ m'.items root) :
    x ∈ m.items root ∨ P x := by
  simpa [itemsAll] using h x (by simpa [itemsAll] using hx)

theorem trans (h : Gains P root ls ms) (h' : Gains P root ms ns) : Gains P root ls ns := by
  intro x hx
  rcases h' x hx with hmem | hP
  · exact h x hmem
  · exact .inr hP

theorem insert {m : Node} (h : ∀ x ∈ m.items root, P x) (left right : List Node) :
    Gains P root (left ++ right) (left ++ m :: right) := by
  intro x hx
  rw [itemsAll_append, itemsAll, List.mem_append, List.mem_append] at hx
  rw [itemsAll_append, List.mem_append]
  rcases hx with hleft | hm | hright
  · exact .inl (.inl hleft)
  · exact .inr (h x hm)
  · exact .inl (.inr hright)

theorem append {m : Node} (h : ∀ x ∈ m.items root, P x) (ms : List Node) :
    Gains P root ms (ms ++ [m]) := by
  have hms := insert h ms []
  rwa [List.append_nil] at hms

theorem between (h : Gains P root ms ns) (left right : List Node) :
    Gains P root (left ++ ms ++ right) (left ++ ns ++ right) := by
  intro x hx
  simp only [itemsAll_append, List.mem_append] at hx ⊢
  rcases hx with (hleft | hns) | hright
  · exact .inl (.inl (.inl hleft))
  · exact (h x hns).imp_left fun hms => .inl (.inr hms)
  · exact .inl (.inr hright)

theorem group (id : NodeId) {operator operator' : Connective} (h : Gains P root ms ns) :
    Gains P root [.group id operator ms] [.group id operator' ns] := by
  intro x hx
  simp only [itemsAll, items, List.append_nil, List.mem_cons] at hx ⊢
  rcases hx with heq | hns
  · exact .inl (.inl heq)
  · exact (h x hns).imp_left .inr

theorem wrap {id : NodeId} (hid : P ⟨root, id, none⟩) {operator : Connective}
    (h : Gains P root ms ns) : Gains P root ms [.group id operator ns] := by
  intro x hx
  simp only [itemsAll, items, List.append_nil, List.mem_cons] at hx
  rcases hx with rfl | hns
  · exact .inr hid
  · exact h x hns

/-- A group that is there may give way to its children. -/
theorem ungroup (id : NodeId) (operator : Connective) (ms : List Node) :
    Gains P root [.group id operator ms] ms := by
  intro x hx
  simp [itemsAll, items, hx]

theorem unnest (around : Connective) (m : Node) : Gains P root [m] (m.unnest around) := by
  cases m with
  | leaf id c => exact refl _
  | group id operator children =>
    rw [Node.unnest]
    split
    · exact ungroup id operator children
    · exact refl _

theorem unnestAll (around : Connective) (ms : List Node) :
    Gains P root ms (unnestAll around ms) := by
  induction ms with
  | nil => exact refl _
  | cons m rest ih =>
    rw [Node.unnestAll, List.flatMap_cons]
    have hm : Gains P root [m] (m.unnest around) := unnest around m
    have hfirst := hm.between [] rest
    have hrest := ih.between (m.unnest around) []
    simp only [List.nil_append, List.append_nil] at hfirst hrest
    exact hfirst.trans hrest

end Gains

end Node

open Node (Gains)

theorem Group.items_node_child (root i : NodeId) (operator : Connective) (left : List Node)
    (m : Node) (right : List Node) : (Group.node ⟨i, operator, left ++ m :: right⟩).items root =
      ⟨root, i, none⟩ ::
        (Node.itemsAll root left ++ (m.items root ++ Node.itemsAll root right)) := by
  rw [Group.node, Node.items, Node.itemsAll_append, Node.itemsAll]

theorem Group.gains_absorb {P : Item → Prop} {root : NodeId} (g : Group) :
    Gains P root [g.node] [g.absorb.node] := by
  unfold absorb
  split
  next id operator children heq =>
    rw [node, heq]
    exact .group g.id (.ungroup id operator children)
  next => exact .refl _

namespace Context

variable {P : Item → Prop} {root : NodeId} {g g' : Group}

theorem items_subset_fill (k : Context) (g : Group) :
    g.node.items root ⊆ (k.fill g).node.items root := by
  induction k generalizing g with
  | top => exact List.Subset.refl _
  | under outer id operator left right ih =>
    refine List.Subset.trans (fun x hx => ?_) (ih _)
    rw [Group.items_node_child]
    simp [hx]

theorem gains_fill (k : Context) (h : Gains P root [g.node] [g'.node]) :
    Gains P root [(k.fill g).node] [(k.fill g').node] := by
  induction k generalizing g g' with
  | top => exact h
  | under outer id operator left right ih =>
    refine ih (.group id ?_)
    simpa using h.between left right

theorem gains_merge (k : Context) (h : Gains P root [g.node] [g'.node]) :
    Gains P root [(k.fill g).node] [(k.merge g').node] := by
  cases k with
  | top => exact h
  | under outer id around left right =>
    refine outer.gains_fill (.group id ?_)
    simpa using (h.trans (.unnest around g'.node)).between left right

theorem gains_settle (k : Context) (h : Gains P root [g.node] [g'.node]) :
    Gains P root [(k.fill g).node] [(k.settle g').node] := by
  induction k generalizing g g' with
  | top => exact h.trans g'.gains_absorb
  | under outer id operator left right ih =>
    rw [settle]
    split
    · refine ih (.group id ?_)
      have hchildren := h.trans (.ungroup g'.id g'.operator g'.children)
      simpa using (hchildren.trans (.unnestAll operator g'.children)).between left right
    · refine outer.gains_fill (.group id ?_)
      simpa using h.between left right

end Context

variable {P : Item → Prop} {token : NodeId} {operator : Connective} {root root' : Group}

/-- A rule for joining brings in the new node and at most one group. -/
theorem Joins.gains {new : Node} {fresh group : NodeId} {origin : Option (NodeId × Nat)}
    (h : Joins operator new fresh group origin root root') (hnew : ∀ x ∈ new.items token, P x)
    (hfresh : P ⟨token, fresh, none⟩) : Gains P token [root.node] [root'.node] := by
  cases h with
  | atEnd k g => exact k.gains_fill (.group g.id (.append hnew g.children))
  | behind k _ inner left child right =>
    refine k.gains_fill (.group group ?_)
    simpa using Gains.insert hnew (left ++ [child]) right
  | inside k _ inner left sub children right =>
    refine k.gains_fill (.group group ?_)
    have hsub : Gains P token [.group sub operator children]
        [.group sub operator (children ++ [new])] := .group sub (.append hnew children)
    simpa using hsub.between left right
  | around k _ inner left child right =>
    refine k.gains_fill (.group group ?_)
    have hchild : Gains P token [child] [.group fresh operator [child, new]] :=
      .wrap hfresh (.append hnew [child])
    simpa using hchild.between left right
  | beside outer id left g right =>
    refine outer.gains_fill (.group id ?_)
    simpa using Gains.insert hnew (left ++ [g.node]) right
  | above k g =>
    have hold : Gains P token g.children [.group fresh g.operator g.children] :=
      .wrap hfresh (.refl g.children)
    exact k.gains_fill (.group g.id (hold.trans (.append hnew _)))

theorem Joins.new_mem_ids {new : Node} {fresh group : NodeId} {origin : Option (NodeId × Nat)}
    (h : Joins operator new fresh group origin root root') : new.id ∈ root'.node.ids := by
  have hbetween : ∀ (k : Context) (id : NodeId) (inner : Connective) (left right : List Node),
      new.id ∈ (k.fill ⟨id, inner, left ++ new :: right⟩).node.ids :=
    fun k id inner left right => k.id_child_mem_fill
  cases h with
  | atEnd k g => exact hbetween k g.id operator g.children []
  | behind k _ inner left child right =>
    simpa using hbetween k group operator (left ++ [child]) right
  | inside k _ inner left sub children right =>
    exact hbetween (.under k group inner left right) sub operator children []
  | around k _ inner left child right =>
    exact hbetween (.under k group inner left right) fresh operator [child] []
  | beside outer id left g right =>
    simpa using hbetween outer id operator (left ++ [g.node]) right
  | above k g => exact hbetween k g.id operator [.group fresh g.operator g.children] []

theorem Removes.gains {id : NodeId} (h : Removes id root root') :
    Gains P token [root.node] [root'.node] := by
  cases h with
  | child k i around left n right =>
    -- The group loses a child, and what settles after that only takes groups away.
    refine k.gains_settle (.group i ?_)
    intro x hx
    refine .inl ?_
    simp only [Node.itemsAll_append, Node.itemsAll, List.mem_append] at hx ⊢
    exact hx.imp_right .inr

theorem Retypes.gains {id : NodeId} (h : Retypes operator id root root') :
    Gains P token [root.node] [root'.node] := by
  cases h with
  | group k g => exact k.gains_merge (.group g.id (.unnestAll operator g.children))

/-- Only the constraint that is named changes. -/
theorem Updates.gains {f : Constraint → Constraint} {id : NodeId} (h : Updates f id root root') :
    ∃ c, ⟨token, id, some c⟩ ∈ root.node.items token ∧
      Gains (· = ⟨token, id, some (f c)⟩) token [root.node] [root'.node] := by
  cases h with
  | leaf k parent inner left _ c right =>
    refine ⟨c, k.items_subset_fill _ ?_, k.gains_fill (.group parent ?_)⟩
    · rw [Group.items_node_child]
      simp [Node.items]
    · have hleaf : Gains (· = ⟨token, id, some (f c)⟩) token [.leaf id c] [.leaf id (f c)] :=
        fun x hx => .inr (by simpa [Node.itemsAll, Node.items] using hx)
      simpa using hleaf.between left right

theorem Updates.mem_ids {f : Constraint → Constraint} {id : NodeId} (h : Updates f id root root') :
    id ∈ root.node.ids := by
  cases h with
  | leaf k parent inner left _ c right => exact k.id_child_mem_fill (m := .leaf id c)

/-! ### Steps of a draft -/

/-- What an edit may make of a node. -/
inductive Edit.Carries (e : Edit) : Item → Item → Prop where
  | same (x : Item) : Carries e x x
  | setField (root id : NodeId) (c : Constraint) (field : Constraint.Field)
      (he : e = .setField id field) : Carries e ⟨root, id, some c⟩ ⟨root, id, some (c.set field)⟩

namespace Draft

def items (d : Draft) : List Item := d.slots.flatMap fun t => t.root.node.items t.root.id

theorem mem_items {d : Draft} {x : Item} :
    x ∈ d.items ↔ ∃ t ∈ d.slots, x ∈ t.root.node.items t.root.id := List.mem_flatMap

theorem ids_items (d : Draft) : d.items.map (·.id) = (d.slots.map (·.root.node.ids)).flatten := by
  rw [items, List.map_flatMap, List.flatMap_def]
  simp only [Node.ids_items]

variable {s : Settings} {n : NodeId} {e : Edit} {o : Outcome} {d d' : Draft}

theorem Reshapes.carries {g g' : Group} (h : Reshapes s n e o g g') (token : NodeId) :
    ∀ y ∈ g'.node.items token, n ≤ y.id ∨ ∃ x ∈ g.node.items token, e.Carries x y := by
  intro y hy
  cases h with
  | createConstraint group operator origin g g' hjoins =>
    have hgains : Gains (n ≤ ·.id) token [g.node] [g'.node] :=
      hjoins.gains (by simp [Node.items]) (Nat.le_succ n)
    rcases hgains.mem hy with hmem | hnew
    · exact .inr ⟨y, hmem, .same y⟩
    · exact .inl hnew
  | removeNode id g g' hremoves =>
    have hgains : Gains (fun _ => False) token [g.node] [g'.node] := hremoves.gains
    have hmem := hgains.mem hy
    exact .inr ⟨y, hmem.resolve_right not_false, .same y⟩
  | setGroupOperator id operator g g' hretypes =>
    have hgains : Gains (fun _ => False) token [g.node] [g'.node] := hretypes.gains
    have hmem := hgains.mem hy
    exact .inr ⟨y, hmem.resolve_right not_false, .same y⟩
  | setField id field g g' hupdates =>
    obtain ⟨c, hc, hgains⟩ : ∃ c, ⟨token, id, some c⟩ ∈ g.node.items token ∧
      Gains (· = ⟨token, id, some (c.set field)⟩) token [g.node] [g'.node] := hupdates.gains
    rcases hgains.mem hy with hmem | rfl
    · exact .inr ⟨y, hmem, .same y⟩
    · exact .inr ⟨_, hc, .setField token id c field rfl⟩

theorem Reshapes.exists_node? {g g' : Group} (h : Reshapes s n e o g g') :
    ∃ id ∈ g.node.ids, e.node? = some id := by
  cases h with
  | createConstraint group operator origin g g' hjoins =>
    obtain ⟨k, inner, rfl, rfl⟩ := hjoins.place.exists_fill
    exact ⟨inner.id, k.ids_subset_fill inner inner.node.id_mem_ids, rfl⟩
  | removeNode id g g' hremoves => exact ⟨id, hremoves.mem_ids, rfl⟩
  | setGroupOperator id operator g g' hretypes => exact ⟨id, hretypes.mem_ids, rfl⟩
  | setField id field g g' hupdates => exact ⟨id, hupdates.mem_ids, rfl⟩

/-- A step that does not start over carries nodes along, each in its token, and numbers new ones
from `n` on. -/
theorem Step.carries (h : Step s n e o d d') (he : e.startsOver = false) :
    ∀ y ∈ d'.items, n ≤ y.id ∨ ∃ x ∈ d.items, e.Carries x y := by
  intro y hy
  obtain ⟨u, hu, hy⟩ := mem_items.mp hy
  -- A tree that was there before is there with all its nodes.
  have hkept : ∀ {d : Draft}, (∃ t ∈ d.slots, t.root = u.root) →
      n ≤ y.id ∨ ∃ x ∈ d.items, e.Carries x y := by
    rintro d ⟨t, ht, heq⟩
    exact .inr ⟨y, mem_items.mpr ⟨t, ht, heq ▸ hy⟩, .same y⟩
  cases h with
  | load e q d hloads => cases hloads <;> cases he
  | createToken slots within =>
    rcases List.mem_append.mp hu with hmem | hblank
    · exact hkept ⟨u, hmem, rfl⟩
    · obtain rfl := List.mem_singleton.mp hblank
      refine .inl ?_
      simp only [Slot.blank, Slot.ofRoot, Group.node, Node.items, Node.itemsAll, List.append_nil,
        List.mem_cons, List.not_mem_nil, or_false] at hy
      rcases hy with rfl | rfl
      · exact Nat.le_succ n
      · exact Nat.le_refl n
  | removeToken left t right within =>
    refine hkept ⟨u, ?_, rfl⟩
    simpa using (List.mem_append.mp hu).imp_right .inr
  | rearrange e slots slots' within hrearranges =>
    refine hkept ?_
    exact hrearranges.forall_roots (P := fun root => ∃ t ∈ slots, t.root = root)
      (fun t ht => ⟨t, ht, rfl⟩) u hu
  | setWithin name slots within => exact hkept ⟨u, hu, rfl⟩
  | reshape e o left t right root within hreshapes =>
    simp only [List.mem_append, List.mem_cons] at hu
    rcases hu with hleft | rfl | hright
    · exact hkept ⟨u, by simp [hleft], rfl⟩
    · have hroot : root.id = t.root.id := hreshapes.id_eq
      refine (hreshapes.carries root.id y hy).imp_right ?_
      rintro ⟨x, hx, hcarries⟩
      exact ⟨x, mem_items.mpr ⟨t, by simp, hroot ▸ hx⟩, hcarries⟩
    · exact hkept ⟨u, by simp [hright], rfl⟩

theorem mem_of_getElem?_ne {α : Type} {left right : List α} {t u : α} {index : Nat}
    (h : (left ++ t :: right)[index]? = some u) (hne : index ≠ left.length) :
    u ∈ left ∨ u ∈ right := by
  have hmem : u ∈ (left ++ t :: right).eraseIdx left.length :=
    List.mem_eraseIdx_iff_getElem?.mpr ⟨index, hne, h⟩
  rw [List.eraseIdx_append_of_length_le (Nat.le_refl _)] at hmem
  simpa using hmem

/-- A token stays as it is unless the edit is about it or about a node in its tree. -/
theorem Step.mem_slots (h : Step s n e o d d') (he : e.startsOver = false) {index : Nat}
    {u : Slot Group} (hu : d.slots[index]? = some u) (htoken : e.token? ≠ some index)
    (hnode : ∀ id ∈ e.node?, id ∉ u.root.node.ids) : u ∈ d'.slots := by
  have hset : ∀ {slots slots' : List (Slot Group)} {i : Nat} {f : Slot Group → Slot Group},
      slots[index]? = some u → some i ≠ some index → Slot.set slots i f = .ok slots' →
      u ∈ slots' := by
    intro slots slots' i f hu hne hset
    obtain ⟨left, t, right, rfl, rfl, rfl⟩ := Slot.set_eq_ok.mp hset
    have hother := mem_of_getElem?_ne hu fun heq => hne (congrArg some heq.symm)
    simpa using hother.imp_right .inr
  cases h with
  | load e q d hloads => cases hloads <;> cases he
  | createToken slots within => exact List.mem_append_left _ (List.mem_of_getElem? hu)
  | removeToken left t right within =>
    have hother := mem_of_getElem?_ne hu fun heq => htoken (congrArg some heq.symm)
    exact List.mem_append.mpr hother
  | rearrange e slots slots' within hrearranges =>
    cases hrearranges with
    | moveToken source target _ _ hmove =>
      exact (Slot.move_perm hmove).mem_iff.mpr (List.mem_of_getElem? hu)
    | setMark i mark value _ _ hmark => exact hset hu htoken hmark
    | setRepeats i r _ _ hrepeats => exact hset hu htoken (Slot.setRepeats_eq_ok.mp hrepeats).2
  | setWithin name slots within => exact List.mem_of_getElem? hu
  | reshape e o left t right root within hreshapes =>
    obtain ⟨id, hid, hasks⟩ := hreshapes.exists_node?
    by_cases hindex : index = left.length
    · subst hindex
      simp only [List.getElem?_append_right (Nat.le_refl _), Nat.sub_self,
        List.getElem?_cons_zero, Option.some.injEq] at hu
      exact absurd (hu ▸ hid) (hnode id hasks)
    · simpa using (mem_of_getElem?_ne hu hindex).imp_right .inr

theorem Step.mapRoot_slots (h : Step s n e o d d') {id : NodeId} (hid : e.node? = some id) :
    d'.slots.map (Slot.mapRoot Group.id) = d.slots.map (Slot.mapRoot Group.id) := by
  cases h with
  | load e q d hloads => cases hloads <;> cases hid
  | rearrange e slots slots' within hrearranges => cases hrearranges <;> cases hid
  | createToken => cases hid
  | removeToken => cases hid
  | setWithin => cases hid
  | reshape e o left t right root within hreshapes => simp [Slot.mapRoot, hreshapes.id_eq]

/-- What an edit keeps of a draft, whether it fails or not. -/
structure EditsLocally (e : Edit) (n n' : NodeId) (d d' : Draft) : Prop where
  next_le : n ≤ n'
  carries : ∀ y ∈ d'.items, n ≤ y.id ∨ ∃ x ∈ d.items, e.Carries x y
  mem_slots : ∀ index u, d.slots[index]? = some u → e.token? ≠ some index →
    (∀ id ∈ e.node?, id ∉ u.root.node.ids) → u ∈ d'.slots
  mapRoot_slots : ∀ id ∈ e.node?,
    d'.slots.map (Slot.mapRoot Group.id) = d.slots.map (Slot.mapRoot Group.id)

theorem EditsLocally.refl (e : Edit) (n : NodeId) (d : Draft) : EditsLocally e n n d d where
  next_le := Nat.le_refl n
  carries y hy := .inr ⟨y, hy, .same y⟩
  mem_slots _ _ hu _ _ := List.mem_of_getElem? hu
  mapRoot_slots _ _ := rfl

end Draft

end CorpusQuery
