import CorpusQuery.Proofs.Arena.Locate
import CorpusQuery.Proofs.Arena.Retype

/-!
The edits of the trees on any arena that holds a draft: each fails before it has changed anything,
or does to one tree what its rule says.
-/

namespace CorpusQuery

variable (label : Connective → Text)

/-- The edit succeeds, and changes the tree of one token as `R` says. -/
def ArenaM.Reshaped {α : Type} (m : ArenaM α) (a : Arena) (d : Draft)
    (R : α → Group → Group → Prop) : Prop :=
  ∃ left t right root n' x a', d.slots = left ++ t :: right ∧ R x t.root root ∧ m a = .ok x a' ∧
    a'.Holds n' ((Draft.mk (left ++ { t with root } :: right) d.within).cells label)

def ArenaM.Reshapes {α : Type} (m : ArenaM α) (n : NodeId) (d : Draft)
    (R : α → Group → Group → Prop) : Prop :=
  ∀ a : Arena, a.Holds n (d.cells label) → (∃ e, m a = .error e a) ∨ m.Reshaped label a d R

namespace ArenaM

open EditM (bind_apply bind_eq_error look_eq_error look_eq_ok)

variable {a : Arena} {n n' : NodeId} {d : Draft} {h : Heap}

theorem Does.createLeaf {c : Constraint} {group : NodeId} {operator : Connective}
    {origin : Option (NodeId × Nat)} {root root' : Group}
    (hjoins : Joins operator (.leaf n c) (n + 1) group origin root root') :
    ∃ n', Does (ArenaM.createLeaf label c group operator (origin.map (·.1))) n
      (root.cells label + h) n n' (root'.cells label + h) := by
  obtain ⟨n', hjoin⟩ := Does.join (h := h) label hjoins
  refine ⟨n', ?_⟩
  have hrest : Does (do
      let leaf ← ArenaM.new (.leaf c)
      ArenaM.join label group operator origin leaf
      return leaf) n (root.cells label + h) n n' (root'.cells label + h) := by
    refine Does.bind (Does.new _) (Does.bind (x := ()) (hjoin.reorder ?_ rfl) Does.pure)
    rw [Node.cells]
    abel
  -- The place of the node is checked before the node is made.
  cases hjoins.place with
  | atEnd k g => exact Does.bind (Does.group_fill label k g) (Does.bind (x := none) Does.pure hrest)
  | behind k _ inner left child right =>
    refine Does.bind (Does.group_fill label k _) ?_
    refine Does.bind (x := some (child.id, left.length)) ?_ hrest
    exact Does.bind (Does.bind (Does.childIndex label k group inner left child right) Does.pure)
      Does.pure

variable {α : Type} {m : ArenaM α} {R : α → Group → Group → Prop}

theorem Reshaped.of_does {left right : List (Slot Group)} {t : Slot Group} {x : α} {root : Group}
    (ha : a.Holds n (d.cells label)) (hd : d.slots = left ++ t :: right) (hR : R x t.root root)
    (hm : ∀ h, ∃ n', Does m n (t.root.cells label + h) x n' (root.cells label + h)) :
    m.Reshaped label a d R := by
  obtain ⟨slots, within⟩ := d
  subst hd
  obtain ⟨n', hm⟩ := hm ((Draft.mk (left ++ right) within).cells label)
  rw [Draft.cells_append] at ha
  obtain ⟨a', hx, ha'⟩ := hm a ha
  refine ⟨left, t, right, root, n', x, a', rfl, hR, hx, ?_⟩
  rw [Draft.cells_append]
  exact ha'

/-! ### Where the edits fail -/

section Fails

variable {c : Constraint} {group id child : NodeId} {operator : Connective}
  {origin : Option NodeId} {g : GroupCell} {e : BuilderError}

theorem createLeaf_eq_error (h : a.group group = .error e) :
    ArenaM.createLeaf label c group operator origin a = .error e a :=
  bind_eq_error (look_eq_error h)

theorem createLeaf_eq_error_of_notMem (hgroup : a.group group = .ok g) (h : child ∉ g.children) :
    ArenaM.createLeaf label c group operator (some child) a = .error (.notAChild group child) a := by
  have hindex : g.children.idxOf? child = none := List.idxOf?_eq_none_iff.mpr h
  have hfail : ArenaM.childIndex group child a = .error (.notAChild group child) a :=
    look_eq_error (by simp [hgroup, Bind.bind, Except.bind, hindex])
  have hlook : EditM.look (·.group group) a = .ok g a := look_eq_ok hgroup
  exact (bind_apply hlook).trans (bind_eq_error (bind_eq_error (bind_eq_error hfail)))

theorem removeNode_eq_error (h : a.entry id = .error e) :
    ArenaM.removeNode label id a = .error e a :=
  bind_eq_error (look_eq_error h)

theorem removeNode_eq_error_of_isRoot (h : a.entry id = .ok (.group g)) (hroot : g.isRoot = true) :
    ArenaM.removeNode label id a = .error (.rootRemoval id) a := by
  obtain ⟨inner, text, _, children⟩ := g
  obtain rfl : _ = true := hroot
  have hlook : EditM.look (·.entry id) a = .ok _ a := look_eq_ok h
  exact bind_apply hlook

theorem setGroupOperator_eq_error (h : a.group id = .error e) :
    ArenaM.setGroupOperator label id operator a = .error e a :=
  bind_eq_error (bind_eq_error (look_eq_error h))

theorem modifyConstraint_eq_error {f : Constraint → Constraint} (h : a.constraint id = .error e) :
    ArenaM.modifyConstraint id f a = .error e a :=
  bind_eq_error (look_eq_error h)

end Fails

/-! ### Where they succeed -/

namespace Reshaped

variable (s : Settings)

theorem createLeaf (ha : a.Holds n (d.cells label)) {group : NodeId} {g : GroupCell}
    (hgroup : a.group group = .ok g) (operator : Connective) {origin : Option NodeId}
    (horigin : ∀ child ∈ origin, child ∈ g.children) :
    (ArenaM.createLeaf label (.blank s.defaultAttribute) group operator origin).Reshaped label a d
      fun x => Draft.Reshapes s n (.createConstraint group operator origin) (.node x) := by
  obtain ⟨p, hcell⟩ := Arena.group_eq_ok.mp hgroup
  obtain ⟨left, t, right, hd, hmem⟩ :=
    Draft.exists_slot_of_mem_cells label ((ha.cell?_eq_some_iff _ _).mp hcell)
  obtain ⟨k, g, hroot, rfl, rfl⟩ := Group.exists_fill_of_mem_cells label hmem
  obtain ⟨place, rfl, hplace⟩ :
      ∃ place, origin = place.map (·.1) ∧ Joins.Place g.id place t.root := by
    cases origin with
    | none => exact ⟨none, rfl, hroot ▸ .atEnd k g⟩
    | some child =>
      obtain ⟨m, hm, rfl⟩ := List.mem_map.mp (horigin child rfl)
      obtain ⟨l, r, hlr⟩ := List.append_of_mem hm
      obtain ⟨id, around, children⟩ := g
      subst hlr
      exact ⟨some (m.id, l.length), rfl, hroot ▸ .behind k id around l m r⟩
  obtain ⟨root, hjoins⟩ : ∃ root, Joins operator (.leaf n (.blank s.defaultAttribute)) (n + 1)
      g.id place t.root root := Joins.exists_of_place hplace
  exact of_does label ha hd (.createConstraint g.id operator place _ _ hjoins)
    fun h => Does.createLeaf label hjoins

theorem removeNode (ha : a.Holds n (d.cells label)) {id : NodeId} {e : Entry}
    (hentry : a.entry id = .ok e) (hroot : ∀ g, e = .group g → g.isRoot = false) :
    (ArenaM.removeNode label id).Reshaped label a d
      fun _ => Draft.Reshapes s n (.removeNode id) .nothing := by
  obtain ⟨p, hcell⟩ := Arena.entry_eq_ok.mp hentry
  obtain ⟨left, t, right, hd, hmem⟩ :=
    Draft.exists_slot_of_mem_cells label ((ha.cell?_eq_some_iff _ _).mp hcell)
  rcases Group.root_or_child label hmem with heq | ⟨k, parent, operator, l, m, r, hfill, heq⟩
  · cases heq
    cases hroot _ rfl
  · cases heq
    have hremoves : Removes m.id t.root (k.settle ⟨parent, operator, l ++ r⟩) :=
      hfill ▸ .child k parent operator l m r
    exact of_does label ha hd (.removeNode _ _ _ hremoves)
      fun h => ⟨n, Does.removeNode label hremoves⟩

theorem setGroupOperator (ha : a.Holds n (d.cells label)) {id : NodeId} {g : GroupCell}
    (hgroup : a.group id = .ok g) (operator : Connective) :
    (ArenaM.setGroupOperator label id operator).Reshaped label a d
      fun _ => Draft.Reshapes s n (.setGroupOperator id operator) .nothing := by
  obtain ⟨p, hcell⟩ := Arena.group_eq_ok.mp hgroup
  obtain ⟨left, t, right, hd, hmem⟩ :=
    Draft.exists_slot_of_mem_cells label ((ha.cell?_eq_some_iff _ _).mp hcell)
  obtain ⟨k, g, hroot, rfl, rfl⟩ := Group.exists_fill_of_mem_cells label hmem
  have hretypes : Retypes operator g.id t.root (k.merge (g.retype operator)) :=
    hroot ▸ .group k g
  exact of_does label ha hd (.setGroupOperator _ _ _ _ hretypes)
    fun h => ⟨n, Does.setGroupOperator label hretypes⟩

theorem modifyConstraint (ha : a.Holds n (d.cells label)) {id : NodeId} {c : Constraint}
    (hconstraint : a.constraint id = .ok c) (field : Constraint.Field) :
    (ArenaM.modifyConstraint id (·.set field)).Reshaped label a d
      fun _ => Draft.Reshapes s n (.setField id field) .nothing := by
  obtain ⟨p, hcell⟩ := Arena.constraint_eq_ok.mp hconstraint
  obtain ⟨left, t, right, hd, hmem⟩ :=
    Draft.exists_slot_of_mem_cells label ((ha.cell?_eq_some_iff _ _).mp hcell)
  rcases Group.root_or_child label hmem with heq | ⟨k, parent, operator, l, m, r, hfill, heq⟩
  · cases heq
  · cases m with
    | group sub inner children => cases heq
    | leaf leaf c =>
      cases heq
      have hupdates := Updates.leaf (f := (·.set field)) k parent operator l leaf c r
      rw [← hfill] at hupdates
      exact of_does label ha hd (.setField _ _ _ _ hupdates)
        fun h => ⟨n, Does.modifyLeaf label hupdates⟩

end Reshaped

namespace Reshapes

variable (s : Settings)

theorem createLeaf (group : NodeId) (operator : Connective) (origin : Option NodeId) :
    Reshapes label (ArenaM.createLeaf label (.blank s.defaultAttribute) group operator origin) n d
      fun x => Draft.Reshapes s n (.createConstraint group operator origin) (.node x) := by
  intro a ha
  cases hgroup : a.group group with
  | error e => exact .inl ⟨e, createLeaf_eq_error label hgroup⟩
  | ok g =>
    by_cases horigin : ∀ child ∈ origin, child ∈ g.children
    · exact .inr (Reshaped.createLeaf label s ha hgroup operator horigin)
    · push Not at horigin
      obtain ⟨child, rfl, hchild⟩ := horigin
      exact .inl ⟨_, createLeaf_eq_error_of_notMem label hgroup hchild⟩

theorem removeNode (id : NodeId) :
    Reshapes label (ArenaM.removeNode label id) n d
      fun _ => Draft.Reshapes s n (.removeNode id) .nothing := by
  intro a ha
  cases hentry : a.entry id with
  | error e => exact .inl ⟨e, removeNode_eq_error label hentry⟩
  | ok e =>
    by_cases hroot : ∀ g, e = .group g → g.isRoot = false
    · exact .inr (Reshaped.removeNode label s ha hentry hroot)
    · push Not at hroot
      obtain ⟨g, rfl, hg⟩ := hroot
      exact .inl ⟨_, removeNode_eq_error_of_isRoot label hentry (Bool.eq_true_of_not_eq_false hg)⟩

theorem setGroupOperator (id : NodeId) (operator : Connective) :
    Reshapes label (ArenaM.setGroupOperator label id operator) n d
      fun _ => Draft.Reshapes s n (.setGroupOperator id operator) .nothing := by
  intro a ha
  cases hgroup : a.group id with
  | error e => exact .inl ⟨e, setGroupOperator_eq_error label hgroup⟩
  | ok g => exact .inr (Reshaped.setGroupOperator label s ha hgroup operator)

theorem modifyConstraint (id : NodeId) (field : Constraint.Field) :
    Reshapes label (ArenaM.modifyConstraint id (·.set field)) n d
      fun _ => Draft.Reshapes s n (.setField id field) .nothing := by
  intro a ha
  cases hconstraint : a.constraint id with
  | error e => exact .inl ⟨e, modifyConstraint_eq_error hconstraint⟩
  | ok c => exact .inr (Reshaped.modifyConstraint label s ha hconstraint field)

end Reshapes

end ArenaM

end CorpusQuery
