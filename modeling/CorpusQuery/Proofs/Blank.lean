import CorpusQuery.Proofs.Parentheses
import CorpusQuery.Proofs.Refusal

/-!
What it comes to in the text of a query that a blank constraint is removed. The constraint itself is
not written, but the group around it may have kept parentheses alive.
-/

namespace CorpusQuery

namespace Node

theorem length_terms (ms : List Node) :
    (terms ms).length = (ms.filter (·.term?.isSome)).length := by
  induction ms with
  | nil => rfl
  | cons m rest ih => cases h : m.term? <;> simp [terms, h, ih]

theorem terms_ne_nil_iff {ms : List Node} : terms ms ≠ [] ↔ ∃ m ∈ ms, m.term?.isSome := by
  rw [← List.length_pos_iff, length_terms, List.length_pos_iff_exists_mem]
  simp [List.mem_filter]

end Node

theorem Removes.exists_fill {id : NodeId} {root root' : Group} (h : Removes id root root') :
    ∃ k group operator left m right, root = Context.fill k ⟨group, operator, left ++ m :: right⟩ ∧
      id = Node.id m ∧ root' = k.settle ⟨group, operator, left ++ right⟩ := by
  cases h with
  | child k group operator left m right =>
    exact ⟨k, group, operator, left, m, right, rfl, rfl, rfl⟩

/-- The cells of a child are among those of the tree. -/
theorem Context.exists_cells_child (label : Connective → Text) (k : Context) (id : NodeId)
    (operator : Connective) (left : List Node) (m : Node) (right : List Node) :
    ∃ h, (k.fill ⟨id, operator, left ++ m :: right⟩).cells label = m.cells label (some id) + h := by
  refine ⟨{(id, ⟨k.parent?, .group (Group.cell label k.isRoot ⟨id, operator, left ++ m :: right⟩)⟩)} +
    Node.cellsAll label (some id) left + Node.cellsAll label (some id) right + k.rest label id, ?_⟩
  rw [cells_fill, Group.placed, Node.cellsAll_append, Node.cellsAll_cons]
  abel

/-! ### Texts -/

/-- What goes between the brackets of one token goes in the text of all tokens. -/
theorem Text.UnwrapsIf.tokens {p : Prop} {t : Slot Group} {root : Group}
    (h : UnwrapsIf p t.root.cql root.cql) (left right : List (Slot Group)) (within : Option Text) :
    UnwrapsIf p
      (joinTokens (((left ++ t :: right).map (Slot.mapRoot Group.term?)).map Slot.text) within)
      (joinTokens
        (((left ++ { t with root } :: right).map (Slot.mapRoot Group.term?)).map Slot.text)
        within) := by
  have htoken : UnwrapsIf p (t.cqlAround t.root.cql) (t.cqlAround root.cql) := by
    simpa only [Slot.cqlAround, List.append_assoc] using h.around
      ((if t.opensSentence then ['<', 's', '>', ' '] else []) ++ ['['])
      ([']'] ++ t.suffix ++ if t.closesSentence then [' ', '<', '/', 's', '>'] else [])
  have hrow : ∀ u : Slot Group,
      joinTokens (((left ++ u :: right).map (Slot.mapRoot Group.term?)).map Slot.text) within =
        ((left.map (Slot.mapRoot Group.term?)).map Slot.text).flatMap (· ++ [' ']) ++
          u.cqlAround u.root.cql ++
          (((right.map (Slot.mapRoot Group.term?)).map Slot.text).flatMap ([' '] ++ ·) ++
            withinText within) := by
    intro u
    have htext : (u.mapRoot Group.term?).text = u.cqlAround u.root.cql := rfl
    have happend := Text.intercalate_append [' ']
      ((left.map (Slot.mapRoot Group.term?)).map Slot.text)
      (List.cons_ne_nil (u.cqlAround u.root.cql) [])
      ((right.map (Slot.mapRoot Group.term?)).map Slot.text)
    rw [List.intercalate_singleton] at happend
    rw [joinTokens, ← List.append_assoc, ← happend, ← htext]
    simp
  rw [hrow, hrow]
  exact htoken.around _ _

/-! ### Builders -/

namespace Builder

/-- Something is written of the node. -/
def writes (b : Builder) (id : NodeId) : Bool :=
  match b.nodeCql id with
  | .ok text => !text.isEmpty
  | .error _ => false

/-- What comes in the place of the group is written without parentheses around it: the group is a
root or stands in one, or something else is written in the group that it stands in. -/
def Bare (b : Builder) (group : NodeId) : Prop :=
  ∀ outer, b.parent? group = some outer → ∃ g, b.group outer = .ok g ∧
    (g.isRoot = true ∨ ∃ id ∈ g.children, id ≠ group ∧ b.writes id)

/-- Without the node, all that its group has is a subgroup, of which two parts at least are written.
The parentheses of the subgroup go with the group. -/
def Unwraps (b : Builder) (id : NodeId) : Prop :=
  ∃ group g sub inner, b.parent? id = some group ∧ b.group group = .ok g ∧
    g.children.erase id = [sub] ∧ b.group sub = .ok inner ∧
    2 ≤ (inner.children.filter b.writes).length ∧ b.Bare group

namespace Shows

variable {b : Builder} {s : Settings} {n : NodeId} {d : Draft} {t : Slot Group} {k : Context}

theorem nodeCql_child (hb : b.Shows s n d) (ht : t ∈ d.slots) {g : Group}
    (hroot : t.root = k.fill g) {m : Node} (hm : m ∈ g.children) : b.nodeCql m.id = .ok ((m.term?.map Term.text).getD []) := by
  obtain ⟨id, operator, children⟩ := g
  obtain ⟨left, right, rfl⟩ := List.append_of_mem hm
  obtain ⟨h, ha⟩ := hb.holds_token ht
  obtain ⟨h', hcells⟩ := k.exists_cells_child s.operatorLabel id operator left m right
  rw [hroot, hcells, add_assoc] at ha
  rw [nodeCql, Node.arena_fold s.operatorLabel _ _ m (some id) _ _ ha, Node.fold_cql]

theorem writes_child (hb : b.Shows s n d) (ht : t ∈ d.slots) {g : Group}
    (hroot : t.root = k.fill g) {m : Node} (hm : m ∈ g.children) : b.writes m.id = m.term?.isSome := by
  rw [writes, hb.nodeCql_child ht hroot hm]
  cases m.term? with
  | none => rfl
  | some t => simp [t.text_ne_nil]

/-- As many children are written as there are operands. -/
theorem length_writes (hb : b.Shows s n d) (ht : t ∈ d.slots) {g : Group}
    (hroot : t.root = k.fill g) :
    ((g.children.map Node.id).filter b.writes).length = (Node.terms g.children).length := by
  rw [List.filter_map, List.length_map, Node.length_terms]
  refine congrArg List.length (List.filter_congr fun m hm => ?_)
  exact hb.writes_child ht hroot hm

/-- Siblings have numbers of their own. -/
theorem sibling_id_ne (hb : b.Shows s n d) (ht : t ∈ d.slots) {id : NodeId} {operator : Connective}
    {left right : List Node} {m : Node} (hroot : t.root = k.fill ⟨id, operator, left ++ m :: right⟩)
    {m' : Node} (hm' : m' ∈ left ++ right) : m'.id ≠ m.id := by
  obtain ⟨h, ha⟩ := hb.holds_token ht
  obtain ⟨hleft, hright⟩ := Context.not_mem_siblings s.operatorLabel (hroot ▸ ha.nodup)
  intro heq
  rcases List.mem_append.mp hm' with hmem | hmem
  · exact hleft (heq ▸ List.mem_map_of_mem hmem)
  · exact hright (heq ▸ List.mem_map_of_mem hmem)

theorem bare_iff (hb : b.Shows s n d) (ht : t ∈ d.slots) {g : Group} (hroot : t.root = k.fill g) :
    b.Bare g.id ↔ k.Bare := by
  match k with
  | .top =>
    obtain rfl : t.root = g := hroot
    have hparent : b.parent? t.root.id = none := hb.parent?_eq (root_mem t ht)
    simp [Bare, hparent, Context.Bare]
  | .under .top id operator left right =>
    have hparent : b.parent? g.id = some id := hb.parent?_eq (child_mem (m := g.node) ht hroot)
    have houter : b.group id = .ok _ := hb.group_of_fill (k := .top) ht hroot
    simp [Bare, hparent, houter, Context.Bare, Group.cell, Context.isRoot]
  | .under (.under outer id' operator' left' right') id operator left right =>
    have hparent : b.parent? g.id = some id := hb.parent?_eq (child_mem (m := g.node) ht hroot)
    have houter : b.group id = .ok _ :=
      hb.group_of_fill (k := .under outer id' operator' left' right') ht hroot
    have hwrites : ∀ m ∈ left ++ right, b.writes m.id = m.term?.isSome := fun m hm =>
      hb.writes_child (g := ⟨id, operator, left ++ g.node :: right⟩) ht hroot
        (List.perm_middle.mem_iff.mpr (List.mem_cons_of_mem _ hm))
    have hsiblings : (∃ child ∈ (left ++ g.node :: right).map Node.id,
        child ≠ g.id ∧ b.writes child) ↔ ∃ m ∈ left ++ right, m.term?.isSome := by
      constructor
      · rintro ⟨_, hchild, hne, hwrites'⟩
        obtain ⟨m, hm, rfl⟩ := List.mem_map.mp hchild
        rcases List.mem_cons.mp (List.perm_middle.mem_iff.mp hm) with rfl | hm
        · exact absurd rfl hne
        · exact ⟨m, hm, hwrites m hm ▸ hwrites'⟩
      · rintro ⟨m, hm, hsome⟩
        exact ⟨m.id, List.mem_map_of_mem (List.perm_middle.mem_iff.mpr (List.mem_cons_of_mem _ hm)),
          hb.sibling_id_ne (m := g.node) ht hroot hm, (hwrites m hm).trans hsome⟩
    rw [Context.Bare, ← Node.terms_append, Node.terms_ne_nil_iff, ← hsiblings]
    simp [Bare, hparent, houter, Group.cell, Context.isRoot]

theorem unwraps_iff (hb : b.Shows s n d) (ht : t ∈ d.slots) {id : NodeId} {operator : Connective}
    {left right : List Node} {m : Node}
    (hroot : t.root = k.fill ⟨id, operator, left ++ m :: right⟩) :
    b.Unwraps m.id ↔ k.Unwraps (left ++ right) := by
  have hparent : b.parent? m.id = some id := hb.parent?_eq (child_mem ht hroot)
  have hgroup : b.group id = .ok _ := hb.group_of_fill ht hroot
  have hbare : b.Bare id ↔ k.Bare := hb.bare_iff ht hroot
  have herase : ((left ++ m :: right).map Node.id).erase m.id = (left ++ right).map Node.id := by
    have hleft : m.id ∉ left.map Node.id := fun hmem => by
      obtain ⟨m', hm', heq⟩ := List.mem_map.mp hmem
      exact hb.sibling_id_ne ht hroot (List.mem_append_left right hm') heq
    rw [List.map_append, List.map_cons, List.erase_append_right _ hleft, List.erase_cons_head,
      List.map_append]
  -- A sibling has its place in the tree, too.
  have hplace : ∀ m' ∈ left ++ right, ∃ l r, t.root = k.fill ⟨id, operator, l ++ m' :: r⟩ := by
    intro m' hm'
    obtain ⟨l, r, hlr⟩ := List.append_of_mem
      (List.perm_middle.mem_iff.mpr (List.mem_cons_of_mem m hm'))
    exact ⟨l, r, hlr ▸ hroot⟩
  constructor
  · rintro ⟨_, _, sub, inner, hparent', hgroup', hchildren, hinner, htwo, hbare'⟩
    rw [hparent] at hparent'
    cases hparent'
    rw [hgroup] at hgroup'
    cases hgroup'
    rw [Group.cell, herase] at hchildren
    obtain ⟨m', hm', rfl⟩ := List.map_eq_singleton_iff.mp hchildren
    obtain ⟨l, r, hroot'⟩ := hplace m' (by simp [hm'])
    obtain ⟨parent, hcell⟩ := hb.group_eq_ok.mp hinner
    have hsame := congrArg Cell.entry (hb.cell_unique hcell (child_mem ht hroot'))
    cases m' with
    | leaf leaf c => cases hsame
    | group sub operator' children =>
      cases hsame
      refine ⟨hbare.mp hbare', sub, operator', children, hm', ?_⟩
      rwa [← hb.length_writes (k := .under k id operator l r) (g := ⟨sub, operator', children⟩) ht
        hroot']
  · rintro ⟨hbare', sub, inner, children, hchildren, htwo⟩
    obtain ⟨l, r, hroot'⟩ := hplace (.group sub inner children) (by simp [hchildren])
    have hsub : b.group sub = .ok _ := hb.group_of_fill (k := .under k id operator l r)
      (g := ⟨sub, inner, children⟩) ht hroot'
    refine ⟨id, _, sub, _, hparent, hgroup, ?_, hsub, ?_, hbare.mpr hbare'⟩
    · rw [Group.cell, herase, hchildren]
      rfl
    · rw [Group.cell, hb.length_writes (k := .under k id operator l r)
        (g := ⟨sub, inner, children⟩) ht hroot']
      exact htwo

/-- A constraint that is found can be removed, and only the tree around it changes. -/
theorem exists_removes (hb : b.Shows s n d) {id : NodeId} {c : Constraint}
    (hc : b.constraint id = .ok c) : ∃ left t right within root n' b',
      d = ⟨left ++ t :: right, within⟩ ∧ Removes id t.root root ∧
      b.apply (.removeNode id) = (.ok .nothing, b') ∧
      b'.Shows s n' ⟨left ++ { t with root } :: right, within⟩ := by
  have hrefuses : ¬ b.Refuses (.removeNode id) := by
    rintro (hnot | ⟨t, ht, rfl⟩)
    · obtain ⟨parent, hcell⟩ := hb.constraint_eq_ok.mp hc
      exact hnot (hb.contains_iff.mpr ⟨_, hcell⟩)
    · obtain ⟨g, hg, -⟩ := hb.rootsAgree.live t ht
      obtain ⟨parent, hcell⟩ := hb.constraint_eq_ok.mp hc
      obtain ⟨parent', hcell'⟩ := hb.group_eq_ok.mp hg
      cases hb.cell_unique hcell hcell'
  obtain ⟨o, n', d', b', hstep, happly, hb'⟩ := hb.exists_step hrefuses
  cases hstep with
  | load e q d hloads hq => cases hloads
  | rearrange e slots slots' within hrearranges => cases hrearranges
  | reshape e o left t right root within hreshapes =>
    cases hreshapes with
    | removeNode id g g' hremoves =>
      exact ⟨left, t, right, within, root, n', b', rfl, hremoves, happly, hb'⟩

end Shows

theorem Shows.removeBlank {b : Builder} {s : Settings} {n : NodeId} {d : Draft} (hb : b.Shows s n d)
    (hd : d.Canonical) {id : NodeId} {c : Constraint} (hc : b.constraint id = .ok c)
    (hblank : c.isBlank = true) :
    ∃ text text' b', b.cql? = .ok (some text) ∧ b.apply (.removeNode id) = (.ok .nothing, b') ∧
      b'.cql? = .ok (some text') ∧ Text.UnwrapsIf (b.Unwraps id) text text' := by
  obtain ⟨left, t, right, within, root, n', b', rfl, hremoves, happly, hb'⟩ := hb.exists_removes hc
  have ht : t ∈ left ++ t :: right := by simp
  obtain ⟨k, group, operator, l, m, r, hroot, rfl, rfl⟩ := hremoves.exists_fill
  -- The child that goes is the blank constraint, as numbers are used once.
  have hm : m.term? = none := by
    obtain ⟨parent, hcell⟩ := hb.constraint_eq_ok.mp hc
    have hentry := congrArg Cell.entry (hb.cell_unique hcell (child_mem ht hroot))
    cases m with
    | group sub inner children => cases hentry
    | leaf leaf c' =>
      cases hentry
      rw [Node.term?, Constraint.term?, if_pos hblank]
  have hsuits : k.Suits ⟨group, operator, l ++ m :: r⟩ :=
    Context.canonical_fill.mp (hroot ▸ hd t ht)
  have hunwraps := (hsuits.unwrapsIf_settle hm).congr (hb.unwraps_iff ht hroot).symm
  rw [← hroot] at hunwraps
  exact ⟨_, _, b', hb.cql?_eq (by simp), happly, hb'.cql?_eq (by simp),
    hunwraps.tokens left right within⟩

/-- Edits keep trees canonical, so a blank constraint can be told from its neighbours. -/
theorem run_shows_canonical (s : Settings) (edits : List Edit)
    (hedits : ∀ e ∈ edits, e.Configured s) :
    ∃ n d, ((Builder.new s).run edits).Shows s n d ∧ d.Canonical :=
  Builder.run_shows (P := Draft.Canonical) (Q := Edit.Configured s)
    (Draft.canonical_ofQuery (by simp)) (fun _ _ _ _ _ he hstep hd => hstep.canonical he hd) edits hedits

/-- When a blank constraint is removed the query is written as before, but for one pair of
parentheses: that of a subgroup which is all that the group of the constraint has left. -/
theorem run_removeBlank (s : Settings) (edits : List Edit) (hedits : ∀ e ∈ edits, e.Configured s)
    {id : NodeId} {c : Constraint} (hc : ((Builder.new s).run edits).constraint id = .ok c)
    (hblank : c.isBlank = true) :
    let b := (Builder.new s).run edits
    ∃ text text' b', b.cql? = .ok (some text) ∧ b.apply (.removeNode id) = (.ok .nothing, b') ∧
      b'.cql? = .ok (some text') ∧ (text' = text ↔ ¬ b.Unwraps id) ∧
      (b.Unwraps id → Text.Unwraps text text') := by
  obtain ⟨n, d, hb, hd⟩ := run_shows_canonical s edits hedits
  obtain ⟨text, text', b', htext, happly, htext', hunwraps⟩ := hb.removeBlank hd hc hblank
  exact ⟨text, text', b', htext, happly, htext', hunwraps.same_iff, hunwraps.unwraps⟩

/-- In a token with one constraint and a blank one, nothing depends on the blank one. -/
theorem run_removeBlank_beside :
    let edits : List Edit := [.createConstraint 1 .and none, .setField 2 (.value (.text ['b']))]
    let b := (Builder.new .standard).run edits
    (∀ e ∈ edits, e.Configured .standard) ∧ b.constraint 0 = .ok (.blank ['w', 'o', 'r', 'd']) ∧
      ∃ text b', b.cql? = .ok (some text) ∧ b.apply (.removeNode 0) = (.ok .nothing, b') ∧
        b'.cql? = .ok (some text) := by
  intro edits b
  have hedits : ∀ e ∈ edits, e.Configured .standard := by
    intro e he query hloads
    cases hloads <;> simp [edits] at he
  have hblank : b.constraint 0 = .ok (.blank ['w', 'o', 'r', 'd']) := by decide +kernel
  obtain ⟨text, text', b', htext, happly, htext', hsame, -⟩ :=
    run_removeBlank .standard edits hedits hblank rfl
  have hunwraps : ¬ b.Unwraps 0 := by
    rintro ⟨group, g, sub, inner, hparent, hgroup, hchildren, hsub, -⟩
    have hone : b.parent? 0 = some 1 := by decide +kernel
    have htwo : b.group 1 = .ok ⟨.and, ['A', 'N', 'D'], true, [0, 2]⟩ := by decide +kernel
    have hleaf : ¬ (b.group 2).toOption.isSome := by decide +kernel
    rw [hone] at hparent
    cases hparent
    rw [htwo] at hgroup
    cases hgroup
    cases hchildren
    exact hleaf (by rw [hsub]; rfl)
  rw [hsame.mpr hunwraps] at htext'
  exact ⟨hedits, hblank, text, b', htext, happly, htext'⟩

/-- The query `[(word = "a" & word = "b")]` is written as long as a blank constraint stands beside
the group of the other two, and another one without it. -/
theorem run_removeBlank_changes :
    let edits : List Edit := [.setField 0 (.value (.text ['a'])), .createConstraint 1 .and none,
      .setField 2 (.value (.text ['b'])), .createConstraint 1 .or none]
    let b := (Builder.new .standard).run edits
    b.constraint 3 = .ok (.blank ['w', 'o', 'r', 'd']) ∧
      ∃ text text' b', b.cql? = .ok (some text) ∧ b.apply (.removeNode 3) = (.ok .nothing, b') ∧
        b'.cql? = .ok (some text') ∧ text' ≠ text := by
  intro edits b
  have hedits : ∀ e ∈ edits, e.Configured .standard := by
    intro e he query hloads
    cases hloads <;> simp [edits] at he
  have hblank : b.constraint 3 = .ok (.blank ['w', 'o', 'r', 'd']) := by decide +kernel
  obtain ⟨n, d, hb, hd⟩ := run_shows_canonical .standard edits hedits
  obtain ⟨text, text', b', htext, happly, htext', hunwraps⟩ := hb.removeBlank hd hblank rfl
  have hbare : b.Bare 1 := by
    intro outer houter
    have hnone : b.parent? 1 = none := by decide +kernel
    rw [hnone] at houter
    cases houter
  have hgroup : b.Unwraps 3 :=
    ⟨1, ⟨.or, ['O', 'R'], true, [4, 3]⟩, 4, ⟨.and, ['A', 'N', 'D'], false, [0, 2]⟩,
      by decide +kernel, by decide +kernel, by decide +kernel, by decide +kernel, by decide +kernel,
      hbare⟩
  exact ⟨hblank, text, text', b', htext, happly, htext', (hunwraps.unwraps hgroup).ne⟩

end Builder

end CorpusQuery
