import CorpusQuery.Proofs.WellFormed

/-!
The shape that all edits keep: no group but a root has less than two children, none is nested in
one with its own connective, and no root holds a single group.
-/

namespace CorpusQuery

/-- Stands as it should in a group that is joined by the connective. -/
inductive Node.Canonical : Connective → Node → Prop where
  | leaf (around : Connective) (id : NodeId) (c : Constraint) : Canonical around (.leaf id c)
  | group (around : Connective) (id : NodeId) (operator : Connective) (children : List Node)
      (hne : operator ≠ around) (hlen : 2 ≤ children.length)
      (hchildren : ∀ m ∈ children, m.Canonical operator) :
    Canonical around (.group id operator children)

/-- Children that may stand in a root. -/
def Node.AllCanonical (operator : Connective) (children : List Node) : Prop :=
  ∀ m ∈ children, m.Canonical operator

/-- All there is to hold is a subgroup. -/
def Group.IsShell (g : Group) : Prop :=
  ∃ id operator children, g.children = [.group id operator children]

namespace Context

/-- What is around is canonical, whichever group comes in. -/
def Canonical : Context → Prop
  | top => True
  | under outer _ operator left right =>
    Node.AllCanonical operator (left ++ right) ∧ left ++ right ≠ [] ∧
      outer.operator? ≠ some operator ∧ outer.Canonical

/-- The number of children that the group may have where it is. -/
def Fits : Context → Group → Prop
  | top, g => ¬ g.IsShell
  | under .., g => 2 ≤ g.children.length

/-- With the group put in, all is canonical. -/
structure Suits (k : Context) (g : Group) : Prop where
  around : k.Canonical
  children : Node.AllCanonical g.operator g.children
  differs : k.operator? ≠ some g.operator
  fits : k.Fits g

end Context

/-- The tree of a token has the shape that edits keep. -/
def Group.Canonical (root : Group) : Prop := Context.top.Suits root

namespace Context

theorem fits_of_two_le {k : Context} {g : Group} (h : 2 ≤ g.children.length) : k.Fits g := by
  cases k with
  | under => exact h
  | top =>
    rintro ⟨id, operator, children, heq⟩
    simp [heq] at h

theorem not_fits_shell {k : Context} {g : Group} (h : g.IsShell) : ¬ k.Fits g := by
  cases k with
  | top => exact not_not_intro h
  | under =>
    obtain ⟨id, operator, children, heq⟩ := h
    simp [Fits, heq]

theorem fits_of_leaf {k : Context} {g g' : Group} (h : k.Fits g) (leaf : NodeId) (c : Constraint)
    (hleaf : .leaf leaf c ∈ g'.children) (hlen : g.children.length ≤ g'.children.length) :
    k.Fits g' := by
  cases k with
  | under => exact Nat.le_trans h hlen
  | top =>
    rintro ⟨sub, inner, ms, heq⟩
    rw [heq, List.mem_singleton] at hleaf
    cases hleaf

theorem suits_under {outer : Context} {id : NodeId} {operator : Connective} {left right : List Node}
    {g : Group} :
    (under outer id operator left right).Suits g ↔
      outer.Suits ⟨id, operator, left ++ g.node :: right⟩ := by
  constructor
  · rintro ⟨⟨hsiblings, hne, houter, hcanonical⟩, hchildren, hdiffers, hfits⟩
    have hnode : g.node.Canonical operator :=
      .group operator g.id g.operator g.children (fun heq => hdiffers (congrArg some heq.symm)) hfits
        hchildren
    refine ⟨hcanonical, ?_, houter, ?_⟩
    · intro m hm
      rw [List.mem_append, List.mem_cons] at hm
      rcases hm with hm | rfl | hm
      · exact hsiblings m (List.mem_append_left _ hm)
      · exact hnode
      · exact hsiblings m (List.mem_append_right _ hm)
    · have hpos := List.length_pos_iff.mpr hne
      refine fits_of_two_le ?_
      simp only [List.length_append, List.length_cons] at hpos ⊢
      omega
  · rintro ⟨hcanonical, hchildren, houter, hfits⟩
    have hnode : g.node.Canonical operator := hchildren g.node (by simp)
    cases hnode with
    | group _ _ _ _ hne hlen hinner =>
      refine ⟨⟨?_, ?_, houter, hcanonical⟩, hinner, fun heq => hne (Option.some.inj heq).symm, hlen⟩
      · intro m hm
        refine hchildren m ?_
        rw [List.mem_append] at hm ⊢
        exact hm.imp_right (List.mem_cons_of_mem _)
      · intro hnil
        obtain ⟨rfl, rfl⟩ := List.append_eq_nil_iff.mp hnil
        exact not_fits_shell ⟨g.id, g.operator, g.children, rfl⟩ hfits

theorem canonical_fill {k : Context} {g : Group} : (k.fill g).Canonical ↔ k.Suits g := by
  induction k generalizing g with
  | top => exact Iff.rfl
  | under outer id operator left right ih => exact ih.trans suits_under.symm

end Context

/-! ### Each rule keeps the shape -/

section Rules

variable {operator : Connective} {root root' : Group}

theorem Node.AllCanonical.replace {left right : List Node} {m : Node}
    (h : AllCanonical operator (left ++ m :: right)) (ms : List Node)
    (hms : AllCanonical operator ms) :
    AllCanonical operator (left ++ ms ++ right) := by
  simp only [AllCanonical, List.forall_mem_append, List.forall_mem_cons] at h hms ⊢
  exact ⟨⟨h.1, hms⟩, h.2.2⟩

/-- Where a group may have less than two children, they are leaves and may be joined anyhow. -/
theorem Context.Suits.retype {k : Context} {g : Group} (h : k.Suits g)
    (hg : g.children.length ≤ 1 ∨ g.operator = operator) :
    Node.AllCanonical operator g.children ∧ k.operator? ≠ some operator := by
  by_cases heq : g.operator = operator
  · exact heq ▸ ⟨h.children, h.differs⟩
  -- A group below a root has two children, so this one is a root, and an only child of a root is a
  -- leaf.
  have hlen := hg.resolve_right heq
  cases k with
  | under outer id around left right =>
    have hfits : 2 ≤ g.children.length := h.fits
    omega
  | top =>
    refine ⟨fun m hm => ?_, by simp [operator?]⟩
    cases m with
    | leaf leaf c => exact .leaf operator leaf c
    | group sub inner children =>
      obtain ⟨m, hchildren⟩ := List.length_eq_one_iff.mp
        (Nat.le_antisymm hlen (List.length_pos_of_mem hm))
      rw [hchildren, List.mem_singleton] at hm
      exact absurd ⟨sub, inner, children, hm ▸ hchildren⟩ h.fits

/-- A group takes a leaf in among its children. -/
theorem Context.Suits.grow {k : Context} {id : NodeId} {inner : Connective} {l r : List Node}
    (h : k.Suits ⟨id, inner, l ++ r⟩) (hg : (l ++ r).length ≤ 1 ∨ inner = operator) (leaf : NodeId)
    (c : Constraint) : k.Suits ⟨id, operator, l ++ .leaf leaf c :: r⟩ := by
  obtain ⟨hchildren, hdiffers⟩ := h.retype hg
  refine ⟨h.around, ?_, hdiffers, ?_⟩
  · simp only [Node.AllCanonical, List.forall_mem_append, List.forall_mem_cons] at hchildren ⊢
    exact ⟨hchildren.1, .leaf operator leaf c, hchildren.2⟩
  · exact Context.fits_of_leaf h.fits leaf c (by simp) (by simp)

/-- Leaves join canonical groups. -/
theorem Joins.canonical {leaf : NodeId} {c : Constraint} {fresh group : NodeId}
    {origin : Option (NodeId × Nat)} (h : Joins operator (.leaf leaf c) fresh group origin root root')
    (hroot : root.Canonical) : root'.Canonical := by
  cases h with
  | atEnd k g hg =>
    have hk : k.Suits ⟨g.id, g.operator, g.children ++ []⟩ := by
      rw [List.append_nil]
      exact Context.canonical_fill.mp hroot
    exact Context.canonical_fill.mpr (hk.grow (by rwa [List.append_nil]) leaf c)
  | behind k _ inner left child right hg =>
    rw [List.append_cons] at hg hroot
    have hgrow := (Context.canonical_fill.mp hroot).grow hg leaf c
    rw [← List.append_cons] at hgrow
    exact Context.canonical_fill.mpr hgrow
  | inside k _ inner left sub children right hne hlen =>
    have hsub : (Context.under k group inner left right).Suits ⟨sub, operator, children ++ []⟩ := by
      rw [List.append_nil]
      exact Context.canonical_fill.mp hroot
    have hgrow := hsub.grow (.inr rfl) leaf c
    exact Context.canonical_fill.mpr (Context.suits_under.mp hgrow)
  | around k _ inner left child right hne hlen hchild =>
    obtain ⟨haround, hchildren, hdiffers, hfits⟩ := Context.canonical_fill.mp hroot
    -- The child has another connective than the new group, or it would have taken the leaf in
    -- itself.
    have hinside : Node.Canonical operator child := by
      cases hchildren child (by simp) with
      | leaf _ id c => exact .leaf operator id c
      | group _ id within ms _ htwo hms =>
        refine .group operator id within ms ?_ htwo hms
        simpa [Node.isGroupWith] using hchild
    have hpair : Node.Canonical inner (.group fresh operator [child, .leaf leaf c]) :=
      .group inner fresh operator _ (Ne.symm hne) (by simp)
        (by simpa using ⟨hinside, .leaf operator leaf c⟩)
    refine Context.canonical_fill.mpr ⟨haround, ?_, hdiffers, Context.fits_of_two_le ?_⟩
    · simpa using hchildren.replace [_] (by simpa [Node.AllCanonical] using hpair)
    · simpa [Nat.succ_le_iff] using hlen
  | beside outer id left g right hne hlen =>
    rw [List.append_cons] at hroot
    have hgrow := (Context.canonical_fill.mp hroot).grow (.inr rfl) leaf c
    rw [← List.append_cons] at hgrow
    exact Context.canonical_fill.mpr hgrow
  | above k g hne hlen hk =>
    obtain ⟨haround, hchildren, hdiffers, hfits⟩ := Context.canonical_fill.mp hroot
    -- The old children move down as a whole, into a group with the connective that they had.
    have hold : Node.Canonical operator (.group fresh g.operator g.children) :=
      .group operator fresh g.operator g.children hne hlen hchildren
    refine Context.canonical_fill.mpr ⟨haround, ?_, hk, Context.fits_of_two_le (by simp)⟩
    simpa [Node.AllCanonical] using ⟨hold, .leaf operator leaf c⟩

/-- Children of a group that is dissolved in one joined by `around`. -/
theorem Node.AllCanonical.unnestAll {around : Connective} {ms : List Node}
    (h : AllCanonical operator ms) : AllCanonical around (Node.unnestAll around ms) := by
  intro m hm
  obtain ⟨m', hm', hmem⟩ := List.mem_flatMap.mp hm
  cases h m' hm' with
  | leaf _ id c =>
    rw [Node.unnest, List.mem_singleton] at hmem
    exact hmem ▸ .leaf around id c
  | group _ id inner children hne hlen hchildren =>
    rw [Node.unnest] at hmem
    split at hmem
    next heq => exact heq ▸ hchildren m hmem
    next hne =>
      rw [List.mem_singleton] at hmem
      exact hmem ▸ .group around id inner children hne hlen hchildren

theorem Group.one_le_unnest {g : Group} (o : Connective) (hlen : 2 ≤ g.children.length) :
    1 ≤ (g.node.unnest o).length := by
  rw [Group.node, Node.unnest]
  split
  · omega
  · exact Nat.le_refl 1

theorem Node.Canonical.one_le_unnest {o : Connective} {m : Node} (h : m.Canonical operator) :
    1 ≤ (m.unnest o).length := by
  cases h with
  | leaf _ id c => exact Nat.le_refl 1
  | group _ id inner children hne hlen hchildren =>
    exact Group.one_le_unnest (g := ⟨id, inner, children⟩) o hlen

theorem Node.AllCanonical.length_le_unnestAll {o : Connective} {ms : List Node}
    (h : AllCanonical operator ms) : ms.length ≤ (Node.unnestAll o ms).length := by
  induction ms with
  | nil => exact Nat.le_refl 0
  | cons m rest ih =>
    have hm := (h m List.mem_cons_self).one_le_unnest (o := o)
    have hrest := ih fun m' hm' => h m' (List.mem_cons_of_mem m hm')
    simp only [Node.unnestAll, List.flatMap_cons, List.length_append, List.length_cons] at hrest ⊢
    omega

/-- A root that takes another connective does not come to hold a single group. -/
theorem Group.Canonical.not_isShell_retype {g : Group} (h : g.Canonical) :
    ¬ (g.retype operator).IsShell := by
  rintro ⟨id, inner, children, heq⟩
  -- No child vanishes when subgroups are merged, so there was one child before, and it was no
  -- group.
  have hlen : g.children.length ≤ 1 := by
    have hle := h.children.length_le_unnestAll (o := operator)
    rwa [show Node.unnestAll operator g.children = _ from heq] at hle
  rw [Group.retype] at heq
  match hchildren : g.children with
  | [] => simp [hchildren, Node.unnestAll] at heq
  | [.leaf leaf c] => simp [hchildren, Node.unnestAll, Node.unnest] at heq
  | [.group sub within ms] => exact h.fits ⟨sub, within, ms, hchildren⟩
  | _ :: _ :: _ => simp [hchildren] at hlen

/-- Nodes take the place of a group between its siblings. -/
theorem Node.AllCanonical.around {around : Connective} {left right ms : List Node}
    (hsiblings : AllCanonical around (left ++ right)) (hms : AllCanonical around ms) :
    AllCanonical around (left ++ ms ++ right) := by
  simp only [AllCanonical, List.forall_mem_append] at hsiblings hms ⊢
  exact ⟨⟨hsiblings.1, hms⟩, hsiblings.2⟩

theorem Node.AllCanonical.unnest {o : Connective} {g : Group}
    (hchildren : AllCanonical g.operator g.children) (hlen : 2 ≤ g.children.length) :
    AllCanonical o (g.node.unnest o) := by
  rw [Group.node, Node.unnest]
  split
  next heq => exact heq ▸ hchildren
  next hne =>
    intro m hm
    rw [List.mem_singleton] at hm
    exact hm ▸ .group o g.id g.operator g.children hne hlen hchildren

theorem Retypes.canonical {id : NodeId} (h : Retypes operator id root root')
    (hroot : root.Canonical) : root'.Canonical := by
  cases h with
  | group k g =>
    obtain ⟨haround, hchildren, hdiffers, hfits⟩ := Context.canonical_fill.mp hroot
    have hinside : Node.AllCanonical operator (g.retype operator).children := hchildren.unnestAll
    cases k with
    | top => exact ⟨trivial, hinside, by simp [Context.operator?], hroot.not_isShell_retype⟩
    | under outer id around left right =>
      obtain ⟨hsiblings, hne, houter, hcanonical⟩ := haround
      have hlen : 2 ≤ (g.retype operator).children.length :=
        Nat.le_trans hfits hchildren.length_le_unnestAll
      -- The group is at least as full as before, so whether it stays or gives its children up, the
      -- group around stays full too.
      have hmerged := Node.AllCanonical.unnest (o := around) hinside hlen
      have hpos := List.length_pos_iff.mpr hne
      have hone := Group.one_le_unnest around hlen
      refine Context.canonical_fill.mpr ⟨hcanonical, hsiblings.around hmerged, houter,
        Context.fits_of_two_le ?_⟩
      simp only [List.length_append] at hpos ⊢
      omega

/-- A group that has lost children is settled in a canonical tree. -/
theorem Context.canonical_settle {k : Context} {g : Group} (hk : k.Canonical)
    (hchildren : Node.AllCanonical g.operator g.children) (hdiffers : k.operator? ≠ some g.operator) :
    (k.settle g).Canonical := by
  induction k generalizing g with
  | top =>
    rw [settle]
    by_cases hshell : g.IsShell
    · obtain ⟨id, inner, children, heq⟩ := hshell
      have habsorb : g.absorb = ⟨g.id, inner, children⟩ := by rw [Group.absorb, heq]
      rw [habsorb]
      -- The only child is canonical, so it has another connective than the root and two children:
      -- both are right for the root.
      cases hchildren (.group id inner children) (by simp [heq]) with
      | group _ _ _ _ hne hlen hinner =>
        exact ⟨trivial, hinner, by simp [operator?], fits_of_two_le hlen⟩
    · have habsorb : g.absorb = g :=
        Group.absorb_eq_self fun id inner children heq => hshell ⟨id, inner, children, heq⟩
      rw [habsorb]
      exact ⟨trivial, hchildren, hdiffers, hshell⟩
  | under outer id around left right ih =>
    obtain ⟨hsiblings, hne, houter, hcanonical⟩ := hk
    rw [settle]
    split
    -- What a sparse group leaves to the group around is merged by one level, and below that level
    -- connectives alternate.
    next hsparse => exact ih hcanonical (hsiblings.around hchildren.unnestAll) houter
    next hfull =>
      refine canonical_fill.mpr (suits_under.mp ⟨⟨hsiblings, hne, houter, hcanonical⟩, hchildren,
        hdiffers, ?_⟩)
      exact Nat.lt_of_not_le hfull

theorem Removes.canonical {id : NodeId} (h : Removes id root root') (hroot : root.Canonical) :
    root'.Canonical := by
  cases h with
  | child k parent inner left m right =>
    obtain ⟨haround, hchildren, hdiffers, hfits⟩ := Context.canonical_fill.mp hroot
    refine Context.canonical_settle haround ?_ hdiffers
    simpa using hchildren.replace [] (by simp [Node.AllCanonical])

theorem Updates.canonical {f : Constraint → Constraint} {id : NodeId} (h : Updates f id root root')
    (hroot : root.Canonical) : root'.Canonical := by
  cases h with
  | leaf k parent inner left _ c right =>
    obtain ⟨haround, hchildren, hdiffers, hfits⟩ := Context.canonical_fill.mp hroot
    refine Context.canonical_fill.mpr ⟨haround, ?_, hdiffers, ?_⟩
    · simpa using hchildren.replace [.leaf id (f c)]
        (by simpa [Node.AllCanonical] using .leaf inner id (f c))
    · exact Context.fits_of_leaf hfits id (f c) (by simp) (by simp)

end Rules

/-! ### Queries that name known attributes are canonical from the start -/

namespace Expr

variable {s : Settings}

/-- An expression adds something, and an operation adds at least its operands to its own group. -/
theorem Configured.length_nodes {e : Expr} (h : e.Configured s) (around : Connective)
    (next : NodeId) : 1 ≤ (e.nodes s around next).1.length ∧
      (e.connective? = some around → 2 ≤ (e.nodes s around next).1.length) := by
  induction e generalizing around next with
  | constraint name equality written =>
    have hknown : (s.attribute? name).isSome := h
    obtain ⟨a, ha⟩ := Option.isSome_iff_exists.mp hknown
    simp [nodes, Settings.constraint?, ha, connective?]
  | binary operator left right ihl ihr =>
    have hright := (ihr h.2 operator next).1
    have hleft := (ihl h.1 operator (right.nodes s operator next).2).1
    rw [nodes]
    split
    next heq =>
      simp only [List.length_append]
      exact ⟨by omega, fun _ => by omega⟩
    next hne => exact ⟨Nat.le_refl 1, fun heq => absurd (Option.some.inj heq) hne⟩

theorem Configured.canonical_nodes {e : Expr} (h : e.Configured s) (around : Connective)
    (next : NodeId) : Node.AllCanonical around (e.nodes s around next).1 := by
  induction e generalizing around next with
  | constraint name equality written =>
    rw [nodes]
    split
    · simpa [Node.AllCanonical] using .leaf around next _
    · simp [Node.AllCanonical]
  | binary operator left right ihl ihr =>
    have hoperands : ∀ next, Node.AllCanonical operator
        ((left.nodes s operator (right.nodes s operator next).2).1 ++
          (right.nodes s operator next).1) := fun next =>
      List.forall_mem_append.mpr ⟨ihl h.1 operator _, ihr h.2 operator next⟩
    rw [nodes]
    split
    next heq => exact heq ▸ hoperands next
    next hne =>
      have hlen : 2 ≤ ((left.nodes s operator (right.nodes s operator (next + 1)).2).1 ++
          (right.nodes s operator (next + 1)).1).length := by
        have hright := (h.2.length_nodes operator (next + 1)).1
        have hleft := (h.1.length_nodes operator (right.nodes s operator (next + 1)).2).1
        rw [List.length_append]
        omega
      -- Both operands add something, so a new group is never sparse.
      simpa [Node.AllCanonical] using .group around next operator _ hne hlen (hoperands (next + 1))

end Expr

theorem Group.canonical_ofExpr {s : Settings} {e : Expr} (h : e.Configured s) (id next : NodeId) :
    (Group.ofExpr s id e next).Canonical := by
  refine ⟨trivial, h.canonical_nodes _ next, by simp [Context.operator?], ?_⟩
  cases e with
  | constraint name equality written =>
    rintro ⟨sub, inner, children, heq⟩
    simp only [ofExpr, Expr.nodes] at heq
    split at heq <;> simp at heq
  | binary operator left right =>
    exact Context.fits_of_two_le ((h.length_nodes operator next).2 rfl)

namespace Draft

/-- All trees have the shape that edits keep. -/
def Canonical (d : Draft) : Prop := ∀ t ∈ d.slots, t.root.Canonical

variable {s : Settings}

theorem canonical_blank (n : NodeId) : (Slot.blank s n).root.Canonical := by
  refine ⟨trivial, ?_, by simp [Context.operator?], ?_⟩
  · simpa [Slot.blank, Slot.ofRoot, Node.AllCanonical] using .leaf _ _ _
  · rintro ⟨sub, inner, children, heq⟩
    simp [Slot.blank, Slot.ofRoot] at heq

theorem canonical_ofTokens {ts : List Token} (h : ∀ t ∈ ts, ∀ e ∈ t.expression, e.Configured s)
    (next : NodeId) : ∀ t ∈ ofTokens s ts next, t.root.Canonical := by
  apply forall_ofTokens
  intro t ht next
  show (Slot.rootOf s t next).Canonical
  unfold Slot.rootOf
  split
  next e he => exact Group.canonical_ofExpr (h t ht e he) next (next + 1)
  next =>
    refine ⟨trivial, by simp [Group.bare, Node.AllCanonical], by simp [Context.operator?], ?_⟩
    rintro ⟨sub, inner, children, heq⟩
    simp [Group.bare] at heq

theorem canonical_ofQuery {q : Option Query} (h : ∀ query ∈ q, query.Configured s) :
    (ofQuery s q).Canonical := by
  cases q with
  | none => simpa [ofQuery, Canonical] using canonical_blank 0
  | some query => exact canonical_ofTokens (h query rfl) 0

theorem Reshapes.canonical {n : NodeId} {e : Edit} {o : Outcome} {g g' : Group}
    (h : Reshapes s n e o g g') (hg : g.Canonical) : g'.Canonical := by
  cases h with
  | createConstraint group operator origin _ _ hjoins => exact hjoins.canonical hg
  | removeNode id _ _ hremoves => exact hremoves.canonical hg
  | setGroupOperator id operator _ _ hretypes => exact hretypes.canonical hg
  | setField id field _ _ hupdates => exact hupdates.canonical hg

theorem Step.canonical {n : NodeId} {e : Edit} {o : Outcome} {d d' : Draft} (he : e.Configured s)
    (h : Step s n e o d d') (hd : d.Canonical) : d'.Canonical := by
  cases h with
  | load e q d hloads hq =>
    exact canonical_ofQuery fun query hquery => he query (hquery ▸ hloads)
  | createToken slots within =>
    exact List.forall_mem_append.mpr ⟨hd, by simpa using canonical_blank n⟩
  | removeToken left t right within =>
    simp only [Canonical, List.forall_mem_append, List.forall_mem_cons] at hd ⊢
    exact ⟨hd.1, hd.2.2⟩
  | rearrange e slots slots' within h => exact h.forall_roots hd
  | setWithin name slots within => exact hd
  | reshape e o left t right root within h =>
    simp only [Canonical, List.forall_mem_append, List.forall_mem_cons] at hd ⊢
    exact ⟨hd.1, h.canonical hd.2.1, hd.2.2⟩

end Draft

namespace Builder

/-- What the shape of the trees comes to on the nodes of a builder. -/
structure Canonical (b : Builder) : Prop where
  full : ∀ id g, b.group id = .ok g → (∀ t ∈ b.slots, id ≠ t.root) → 2 ≤ g.children.length
  alternating : ∀ id g child inner, b.group id = .ok g → child ∈ g.children →
    b.group child = .ok inner → inner.operator ≠ g.operator
  no_shell : ∀ t ∈ b.slots, ∀ g child, b.group t.root = .ok g → g.children = [child] →
    ∃ c, b.constraint child = .ok c

theorem Shows.canonical {b : Builder} {s : Settings} {n : NodeId} {d : Draft}
    (hb : b.Shows s n d) (hd : d.Canonical) : b.Canonical where
  full id g hg hid := by
    obtain ⟨u, hu, k, g', hfill, rfl, rfl⟩ := hb.locate_group hg
    have hsuits := Context.canonical_fill.mp (hfill ▸ hd u hu)
    rw [Group.cell, List.length_map]
    cases k with
    | top => exact absurd (congrArg Group.id hfill.symm) (hid _ (hb.mapRoot_mem hu))
    | under outer around operator left right => exact hsuits.fits
  alternating id g child inner hg hchild hinner := by
    obtain ⟨u, hu, k, ⟨_, operator, children⟩, hfill, rfl, rfl⟩ := hb.locate_group hg
    have hsuits := Context.canonical_fill.mp (hfill ▸ hd u hu)
    obtain ⟨m, hm, rfl⟩ := List.mem_map.mp hchild
    obtain ⟨left, right, rfl⟩ := List.append_of_mem hm
    obtain ⟨parent, hcell⟩ := hb.group_eq_ok.mp hinner
    have hsame := congrArg Cell.entry (hb.cell_unique hcell (Shows.child_mem hu hfill))
    cases hsuits.children m hm with
    | leaf _ leaf c => cases hsame
    | group _ sub within ms hne hlen hms =>
      cases hsame
      exact hne
  no_shell t ht g child hg hchildren := by
    obtain ⟨u, hu, rfl⟩ := hb.mem_slots ht
    have hroot := hd u hu
    obtain ⟨parent, hcell⟩ := hb.group_eq_ok.mp hg
    cases hb.cell_unique hcell (Shows.root_mem u hu)
    obtain ⟨m, hm, rfl⟩ := List.map_eq_singleton_iff.mp hchildren
    cases m with
    | group sub within ms => exact absurd ⟨sub, within, ms, hm⟩ hroot.fits
    | leaf leaf c =>
      -- The leaf has to be found as a child to be read off the builder.
      have hfill : u.root = Context.top.fill ⟨u.root.id, u.root.operator, [] ++ [.leaf leaf c]⟩ := by
        rw [Context.fill, List.nil_append, ← hm]
      exact ⟨c, hb.constraint_eq_ok.mpr ⟨_, Shows.child_mem hu hfill⟩⟩

/-- Edits keep the shape, as long as all queries that are loaded name known attributes. -/
theorem run_canonical (s : Settings) (edits : List Edit) (hedits : ∀ e ∈ edits, e.Configured s) :
    ((Builder.new s).run edits).Canonical := by
  obtain ⟨n, d, hb, hd⟩ := Builder.run_shows (s := s) (P := Draft.Canonical)
    (Q := Edit.Configured s) (Draft.canonical_ofQuery (by simp))
    (fun _ _ _ _ _ he hstep hd => hstep.canonical he hd) edits hedits
  exact hb.canonical hd

/-- A query is loaded that says `a & (b | c)`, and edited. -/
def loadAndEdit : List Edit := [
  .populate (some ⟨[⟨none, none, some (.binary .and (.constraint ['p', 'o', 's'] .equal ['a'])
    (.binary .or (.constraint ['p', 'o', 's'] .equal ['b'])
      (.constraint ['p', 'o', 's'] .notEqual ['c']))), false, none⟩], none⟩),
  .createConstraint 0 .or none, .setGroupOperator 0 .and, .removeNode 2]

theorem configured_loadAndEdit : ∀ e ∈ loadAndEdit, e.Configured .standard := by
  intro e he query hloads
  cases hloads with
  | parse pattern _ hq => simp [loadAndEdit] at he
  | populate =>
    simp only [loadAndEdit, List.mem_cons, Edit.populate.injEq, Option.some.injEq, reduceCtorEq,
      List.not_mem_nil, or_false] at he
    subst he
    simp only [Query.Configured, List.forall_mem_singleton, Option.mem_some_iff, forall_eq',
      Expr.Configured]
    decide

theorem run_canonical_loadAndEdit : (∀ e ∈ loadAndEdit, e.Configured .standard) ∧
    ((Builder.new .standard).run loadAndEdit).Canonical :=
  ⟨configured_loadAndEdit, run_canonical .standard loadAndEdit configured_loadAndEdit⟩

end Builder

end CorpusQuery
