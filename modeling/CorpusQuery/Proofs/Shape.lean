import CorpusQuery.Draft.Shape
import CorpusQuery.Proofs.Canonical
import CorpusQuery.Proofs.Cql

/-! The shape of the trees, which the text of a canonical tree shows as it is. -/

namespace CorpusQuery

namespace Node

variable (label : Connective → Text)

mutual

theorem fold_shape : (n : Node) → n.fold label (fun _ c => Shape.leaf c.cql)
    (fun _ g children => Shape.ofGroup g.operator children) = n.shape
  | .leaf _ _ => rfl
  | .group id operator children => by rw [fold, foldAll_shape children, shape, Group.cell]

theorem foldAll_shape : (ns : List Node) → foldAll label (fun _ c => Shape.leaf c.cql)
    (fun _ g children => Shape.ofGroup g.operator children) ns = shapes ns
  | [] => rfl
  | n :: rest => by rw [foldAll, fold_shape n, foldAll_shape rest, shapes]

end

end Node

theorem Builder.Shows.shape_eq {b : Builder} {s : Settings} {n : NodeId} {d : Draft}
    (hb : b.Shows s n d) {t : Slot Group} (ht : t ∈ d.slots) :
    b.shape t.root.id = .ok t.root.shape := by
  obtain ⟨h, ha⟩ := hb.holds_token ht
  rw [Builder.shape, Group.arena_fold s.operatorLabel _ _ t.root ha, Group.fold,
    Node.foldAll_shape]
  rfl

/-! ### Constraints of a tree -/

namespace Node

mutual

/-- All constraints in the tree have the property. -/
def Every (P : Constraint → Prop) : Node → Prop
  | .leaf _ c => P c
  | .group _ _ children => EveryAll P children

def EveryAll (P : Constraint → Prop) : List Node → Prop
  | [] => True
  | n :: rest => n.Every P ∧ EveryAll P rest

end

theorem everyAll_iff {P : Constraint → Prop} {ns : List Node} :
    EveryAll P ns ↔ ∀ n ∈ ns, n.Every P := by
  induction ns with
  | nil => simp [EveryAll]
  | cons n rest ih => simp [EveryAll, ih]

mutual

theorem every_mono {P Q : Constraint → Prop} (h : ∀ c, P c → Q c) : (n : Node) → n.Every P →
    n.Every Q
  | .leaf _ c, hn => h c hn
  | .group _ _ children, hn => everyAll_mono h children hn

theorem everyAll_mono {P Q : Constraint → Prop} (h : ∀ c, P c → Q c) : (ns : List Node) →
    EveryAll P ns → EveryAll Q ns
  | [], _ => trivial
  | n :: rest, hns => ⟨every_mono h n hns.1, everyAll_mono h rest hns.2⟩

end

variable (label : Connective → Text) {P : Constraint → Prop}

mutual

theorem every_of_cells : (n : Node) → (parent : Option NodeId) →
    (∀ id around c, (id, ⟨around, .leaf c⟩) ∈ n.cells label parent → P c) → n.Every P
  | .leaf id c, parent, h => h id parent c (by simp [cells])
  | .group id operator children, parent, h =>
    everyAll_of_cells children (some id) fun leaf around c hmem =>
      h leaf around c (by rw [cells]; exact Multiset.mem_add.mpr (.inr hmem))

theorem everyAll_of_cells : (ns : List Node) → (parent : Option NodeId) →
    (∀ id around c, (id, ⟨around, .leaf c⟩) ∈ cellsAll label parent ns → P c) → EveryAll P ns
  | [], _, _ => trivial
  | n :: rest, parent, h =>
    ⟨every_of_cells n parent fun id around c hmem =>
        h id around c (by rw [cellsAll_cons]; exact Multiset.mem_add.mpr (.inl hmem)),
      everyAll_of_cells rest parent fun id around c hmem =>
        h id around c (by rw [cellsAll_cons]; exact Multiset.mem_add.mpr (.inr hmem))⟩

end

end Node

/-- What holds of the constraints of a builder holds of those of its trees. -/
theorem Builder.Shows.every {b : Builder} {s : Settings} {n : NodeId} {d : Draft}
    (hb : b.Shows s n d) {P : Constraint → Prop} (h : ∀ id c, b.constraint id = .ok c → P c)
    {t : Slot Group} (ht : t ∈ d.slots) : Node.EveryAll P t.root.children := by
  refine Node.everyAll_of_cells s.operatorLabel _ (some t.root.id) fun id around c hmem => ?_
  refine h id c (hb.constraint_eq_ok.mpr ⟨around, Draft.mem_cells.mpr ⟨t, ht, ?_⟩⟩)
  rw [Group.cells, Group.placed]
  exact Multiset.mem_add.mpr (.inr hmem)

/-! ### Terms of canonical trees -/

namespace Term

mutual

/-- Stands as it should between operands that are joined by `around`. -/
def Canonical (around : Connective) : Term → Prop
  | .leaf _ _ _ => True
  | .group operator first rest =>
    operator ≠ around ∧ rest ≠ [] ∧ first.Canonical operator ∧ CanonicalRest operator rest

def CanonicalRest (around : Connective) : List Term → Prop
  | [] => True
  | t :: rest => t.Canonical around ∧ CanonicalRest around rest

end

mutual

def shape : Term → Shape
  | .leaf name equality raw => .leaf (leaf name equality raw).text
  | .group operator first rest => .ofGroup operator (first.shape :: shapes rest)

def shapes : List Term → List Shape
  | [] => []
  | t :: rest => t.shape :: shapes rest

end

mutual

theorem levels_shape : (t : Term) → t.shape.levels = t.depth
  | .leaf _ _ _ => rfl
  | .group operator first rest => by
    rw [shape, Shape.ofGroup, Shape.levels, Shape.levelsAll, levels_shape first,
      levels_shapes rest, depth]

theorem levels_shapes : (ts : List Term) → Shape.levelsAll (shapes ts) = restDepth ts
  | [] => rfl
  | t :: rest => by rw [shapes, Shape.levelsAll, levels_shape t, levels_shapes rest, restDepth]

end

theorem length_shapes (ts : List Term) : (shapes ts).length = ts.length := by
  induction ts with
  | nil => rfl
  | cons t rest ih => rw [shapes, List.length_cons, ih, List.length_cons]

end Term

namespace Node

theorem length_shapes (ns : List Node) : (shapes ns).length = ns.length := by
  induction ns with
  | nil => rfl
  | cons n rest ih => rw [shapes, List.length_cons, ih, List.length_cons]

/-- Nothing is blank. -/
def Loud (n : Node) : Prop := n.Every (·.isBlank = false)

def AllLoud (ns : List Node) : Prop := EveryAll (·.isBlank = false) ns

mutual

/-- A canonical tree without blank constraints is written as it is. -/
theorem Canonical.exists_term {around : Connective} : (n : Node) → n.Canonical around → n.Loud →
    ∃ t, n.term? = some t ∧ t.Canonical around ∧ t.shape = n.shape
  | .leaf id c, _, hloud => by
    have hc : c.isBlank = false := hloud
    have hterm : c.term? = some (.leaf c.name c.comparator.equality (Quotes.escape c.written)) := by
      simp [Constraint.term?, hc]
    refine ⟨_, hterm, trivial, ?_⟩
    rw [Term.shape, shape, c.cql_eq, hterm]
    rfl
  | .group id operator children, hn, hloud => by
    cases hn with
    | group _ _ _ _ hne hlen hchildren =>
      obtain ⟨hcanonical, hshapes⟩ := AllCanonical.terms children hchildren hloud
      -- No child is left out, so there are two operands as there are two children, and parentheses
      -- stay.
      have hlength : (terms children).length = children.length := by
        rw [← Term.length_shapes, hshapes, length_shapes]
      match hterms : terms children with
      | [] => simp [← hlength, hterms] at hlen
      | [t] => simp [← hlength, hterms] at hlen
      | t :: u :: rest =>
        rw [hterms] at hcanonical hshapes
        refine ⟨.group operator t (u :: rest), by rw [term?, hterms]; rfl, ?_, ?_⟩
        · exact ⟨hne, by simp, hcanonical⟩
        · rw [Term.shape, shape, ← hshapes]
          simp only [Term.shapes]

theorem AllCanonical.terms {operator : Connective} : (ns : List Node) → AllCanonical operator ns →
    AllLoud ns → Term.CanonicalRest operator (terms ns) ∧ Term.shapes (terms ns) = shapes ns
  | [], _, _ => ⟨trivial, rfl⟩
  | n :: rest, hns, hloud => by
    obtain ⟨t, hterm, hcanonical, hshape⟩ :=
      Canonical.exists_term n (hns n List.mem_cons_self) hloud.1
    obtain ⟨hrest, hshapes⟩ :=
      AllCanonical.terms rest (fun m hm => hns m (List.mem_cons_of_mem n hm)) hloud.2
    rw [terms, hterm]
    exact ⟨⟨hcanonical, hrest⟩, by simp [Term.shapes, shapes, hshape, hshapes]⟩

end

end Node

end CorpusQuery
