import CorpusQuery.Proofs.Blank

/-!
A constraint that has just been added can be taken out again. However it came in, taking it out
leaves the tree that was there before, but for the connective of a root with one child at most.
-/

namespace CorpusQuery

/-! ### Trees -/

/-- A root without children to separate takes a connective over. -/
def Group.takeOver (root : Group) (operator : Connective) : Group :=
  if root.children.length ≤ 1 then { root with operator } else root

theorem Group.id_takeOver (root : Group) (operator : Connective) :
    (root.takeOver operator).id = root.id := by
  unfold takeOver
  split <;> rfl

/-- A root with one child at most is written alike with any connective. -/
theorem Group.cql_takeOver {root : Group} (h : root.Canonical) (operator : Connective) :
    (root.takeOver operator).cql = root.cql := by
  unfold takeOver
  split
  next hlen =>
    obtain ⟨id, around, children⟩ := root
    rw [Group.cql, Group.cql, Term.joined_eq, Term.joined_eq]
    cases children with
    | nil => rfl
    | cons m rest =>
      obtain rfl : rest = [] := by simpa using hlen
      -- What a root has alone is no group, so there is nothing to join.
      cases m with
      | leaf leaf c => cases hc : c.term? <;> simp [Node.terms, Node.term?, hc]
      | group sub inner ms => exact absurd ⟨sub, inner, ms, rfl⟩ h.fits
  next => rfl

namespace Context

variable {k : Context} {g : Group} {operator : Connective}

/-- In a root with one child at most there are no other groups. -/
theorem Suits.eq_top (h : k.Suits g) (hlen : (k.fill g).children.length ≤ 1) : k = top := by
  induction k generalizing g with
  | top => rfl
  | under outer id around left right ih =>
    have houter := suits_under.mp h
    obtain rfl := ih houter hlen
    obtain ⟨-, hne, -, -⟩ := h.around
    have hpos := List.length_pos_iff.mpr hne
    simp only [fill, List.length_append, List.length_cons] at hlen hpos
    omega

theorem Suits.sparse_iff (h : k.Suits g) :
    k.isRoot = true ∧ g.children.length ≤ 1 ↔ (k.fill g).children.length ≤ 1 := by
  constructor
  · rintro ⟨hisRoot, hlen⟩
    cases k with
    | top => exact hlen
    | under => cases hisRoot
  · intro hlen
    obtain rfl := h.eq_top hlen
    exact ⟨rfl, hlen⟩

theorem Suits.takeOver_fill (h : k.Suits g) (hlen : 2 ≤ g.children.length) :
    (k.fill g).takeOver operator = k.fill g := by
  refine if_neg fun hle => ?_
  have hsparse := (h.sparse_iff.mpr hle).2
  omega

/-- Where a leaf came in among the children of a group, it goes from there. -/
theorem Suits.removes_grown {id : NodeId} {inner : Connective} {ms l r : List Node}
    (h : k.Suits ⟨id, inner, ms⟩) (hms : ms = l ++ r) (hg : ms.length ≤ 1 ∨ inner = operator)
    (leaf : NodeId) (c : Constraint) :
    Removes leaf (k.fill ⟨id, operator, l ++ .leaf leaf c :: r⟩)
      ((k.fill ⟨id, inner, ms⟩).takeOver operator) := by
  have hsettle : k.settle ⟨id, operator, ms⟩ = (k.fill ⟨id, inner, ms⟩).takeOver operator := by
    by_cases hlen : 2 ≤ ms.length
    · obtain rfl := hg.resolve_left (Nat.not_le.mpr hlen)
      rw [settle_of_two_le k hlen, h.takeOver_fill hlen]
    · cases k with
      | under => exact absurd h.fits hlen
      | top =>
        have habsorb : (Group.mk id operator ms).absorb = ⟨id, operator, ms⟩ :=
          Group.absorb_eq_self fun sub within children heq => h.fits ⟨sub, within, children, heq⟩
        have htakes : (Group.mk id inner ms).takeOver operator = ⟨id, operator, ms⟩ :=
          if_pos (Nat.le_of_lt_succ (Nat.not_le.mp hlen))
        rw [settle, fill, habsorb, htakes]
  rw [← hsettle, hms]
  exact .child k id operator l (.leaf leaf c) r

end Context

/-- A child of a group is not merged into it. -/
theorem Node.Canonical.unnest_eq_self {around : Connective} {m : Node} (h : m.Canonical around) :
    m.unnest around = [m] := by
  cases h with
  | leaf => rfl
  | group _ id operator children hne => rw [unnest, if_neg hne]

/-- Each way of joining a leaf has its way back. -/
theorem Joins.removes {operator : Connective} {leaf : NodeId} {c : Constraint}
    {fresh group : NodeId} {origin : Option (NodeId × Nat)} {root root' : Group}
    (h : Joins operator (.leaf leaf c) fresh group origin root root') (hroot : root.Canonical) :
    Removes leaf root' (root.takeOver operator) := by
  cases h with
  | atEnd k g hg =>
    have hsuits := Context.canonical_fill.mp hroot
    exact hsuits.removes_grown (List.append_nil g.children).symm hg leaf c
  | behind k _ inner left child right hg =>
    have hsuits := Context.canonical_fill.mp hroot
    have hremoves := hsuits.removes_grown (List.append_cons ..) hg leaf c
    rwa [← List.append_cons] at hremoves
  | inside k _ inner left sub children right hne hlen =>
    have hsuits : (Context.under k group inner left right).Suits ⟨sub, operator, children⟩ :=
      Context.canonical_fill.mp hroot
    exact hsuits.removes_grown (List.append_nil children).symm (.inr rfl) leaf c
  | around k _ inner left child right hne hlen hchild =>
    have hsuits := Context.canonical_fill.mp hroot
    -- The new group is left with the old child, which comes back to where it was.
    have hsiblings : left ++ right ≠ [] := by
      intro hnil
      obtain ⟨rfl, rfl⟩ := List.append_eq_nil_iff.mp hnil
      simp at hlen
    have hunnest : child.unnest inner = [child] := (hsuits.children child (by simp)).unnest_eq_self
    have hsettle : (Context.under k group inner left right).settle ⟨fresh, operator, [child]⟩ =
        k.fill ⟨group, inner, left ++ child :: right⟩ := by
      rw [Context.settle_singleton k group inner rfl hsiblings (by simp [hunnest]), hunnest,
        ← List.append_cons]
    rw [hsuits.takeOver_fill hlen, ← hsettle]
    exact .child (.under k group inner left right) fresh operator [child] (.leaf leaf c) []
  | beside outer id left g right hne hlen =>
    have hsuits := Context.canonical_fill.mp hroot
    have hremoves := hsuits.removes_grown (List.append_cons ..) (.inr rfl) leaf c
    rwa [← List.append_cons] at hremoves
  | above k g hne hlen hk =>
    have hsuits := Context.canonical_fill.mp hroot
    rw [hsuits.takeOver_fill hlen]
    cases k with
    | under outer id around left right =>
      -- There are two connectives, so the group around would have had the one or the other.
      have haround : around ≠ g.operator := fun heq => hsuits.differs (congrArg some heq)
      have hother : around ≠ operator := fun heq => hk (congrArg some heq)
      cases around <;> cases operator <;> cases hg : g.operator <;> simp_all
    | top =>
      exact .child .top g.id operator [.group fresh g.operator g.children] (.leaf leaf c) []

theorem Joins.Place.exists_fill {group : NodeId} {origin : Option (NodeId × Nat)} {root : Group}
    (h : Joins.Place group origin root) : ∃ k g, root = Context.fill k g ∧ group = g.id := by
  cases h with
  | atEnd k g => exact ⟨k, g, rfl, rfl⟩
  | behind k _ operator left child right =>
    exact ⟨k, ⟨group, operator, left ++ child :: right⟩, rfl, rfl⟩

/-! ### Builders -/

theorem Arena.Holds.cell?_congr {a a' : Arena} {n n' : NodeId} {h : Heap} (ha : a.Holds n h)
    (ha' : a'.Holds n' h) (id : NodeId) : a'.cell? id = a.cell? id := by
  refine Option.ext fun c => ?_
  rw [ha'.cell?_eq_some_iff, ha.cell?_eq_some_iff]

namespace Builder

/-- All is as it was: the tokens, and every node with its number, its parent and what it holds. Only
a root of one child at most keeps the connective that it was given. -/
structure Restores (b : Builder) (group : NodeId) (operator : Connective) (b' : Builder) : Prop where
  settings_eq : b'.settings = b.settings
  slots_eq : b'.slots = b.slots
  within_eq : b'.within = b.within
  cell?_eq : ∀ id, id ≠ group → b'.arena.cell? id = b.arena.cell? id
  parent?_eq : b'.parent? group = b.parent? group
  group_eq : ∀ g, b.group group = .ok g → b'.group group = .ok
    (if g.isRoot = true ∧ g.children.length ≤ 1 then
      { g with operator, label := b.settings.operatorLabel operator }
    else g)
  cql?_eq : b'.cql? = b.cql?

namespace Shows

variable {b b' : Builder} {s : Settings} {n n' : NodeId} {d : Draft} {left right : List (Slot Group)}
  {t : Slot Group} {within : Option Text}

/-- A root with one child at most is a cell that changes, and nothing else does. -/
theorem cell?_takeOver (hb : b.Shows s n ⟨left ++ t :: right, within⟩) {operator : Connective}
    (hb' : b'.Shows s n' ⟨left ++ { t with root := { t.root with operator } } :: right, within⟩)
    (id : NodeId) : b'.arena.cell? id =
      if id = t.root.id then
        some ⟨none, .group (Group.cell s.operatorLabel true { t.root with operator })⟩
      else b.arena.cell? id := by
  have ha := hb.holds
  have ha' := hb'.holds
  rw [Draft.cells_append, Group.cells, Group.placed, add_assoc] at ha ha'
  have hset := (ha.setCell _).cell?_congr ha' id
  rwa [Arena.cell?_setCell (by simp [Arena.contains, ha.cell?])] at hset

theorem restores (hb : b.Shows s n ⟨left ++ t :: right, within⟩) {operator : Connective}
    (hb' : b'.Shows s n' ⟨left ++ { t with root := t.root.takeOver operator } :: right, within⟩)
    (ht : t.root.Canonical) {group : NodeId} {origin : Option (NodeId × Nat)}
    (hplace : Joins.Place group origin t.root) : b.Restores group operator b' := by
  have hmem : t ∈ left ++ t :: right := by simp
  obtain ⟨k, g, hroot, rfl⟩ := hplace.exists_fill
  have hgroup := hb.group_of_fill hmem hroot
  have hsuits : k.Suits g := Context.canonical_fill.mp (hroot ▸ ht)
  have hsparse : (g.cell s.operatorLabel k.isRoot).isRoot = true ∧
      (g.cell s.operatorLabel k.isRoot).children.length ≤ 1 ↔ t.root.children.length ≤ 1 := by
    rw [hroot, ← hsuits.sparse_iff]
    simp [Group.cell]
  have htext : Text.UnwrapsIf False t.root.cql (t.root.takeOver operator).cql :=
    .of_eq not_false (Group.cql_takeOver ht operator)
  have hcql : b'.cql? = b.cql? := by
    rw [hb.cql?_eq (by simp), hb'.cql?_eq (by simp), (htext.tokens left right within).same not_false]
  have hslots : b'.slots = b.slots := by
    rw [hb.slots_eq, hb'.slots_eq]
    simp [Slot.mapRoot, Group.id_takeOver]
  have hsettings := hb'.settings_eq.trans hb.settings_eq.symm
  have hwithin := hb'.within_eq.trans hb.within_eq.symm
  by_cases hlen : t.root.children.length ≤ 1
  · -- The group is the root, whose cell is the only one that changes.
    obtain rfl := hsuits.eq_top (hroot ▸ hlen)
    obtain rfl : t.root = g := hroot
    rw [Group.takeOver, if_pos hlen] at hb'
    have hcell := hb.cell?_takeOver hb'
    have hown : b'.arena.cell? t.root.id = some _ := (hcell t.root.id).trans (if_pos rfl)
    refine ⟨hsettings, hslots, hwithin, fun id hne => (hcell id).trans (if_neg hne), ?_, ?_, hcql⟩
    · rw [hb.parent?_eq (root_mem t hmem), Builder.parent?, Arena.parent?, hown, Option.bind_some]
    · intro g' hg'
      obtain rfl := Except.ok.inj (hgroup.symm.trans hg')
      rw [if_pos (hsparse.mpr hlen), hb.settings_eq]
      exact Arena.group_eq_ok.mpr ⟨none, hown⟩
  · rw [Group.takeOver, if_neg hlen] at hb'
    have hcell := hb.holds.cell?_congr hb'.holds
    refine ⟨hsettings, hslots, hwithin, fun id _ => hcell id, ?_, ?_, hcql⟩
    · rw [Builder.parent?, Arena.parent?, hcell, Builder.parent?, Arena.parent?]
    · intro g' hg'
      obtain rfl := Except.ok.inj (hgroup.symm.trans hg')
      obtain ⟨parent, hown⟩ := Arena.group_eq_ok.mp hg'
      rw [if_neg (mt hsparse.mp hlen)]
      exact Arena.group_eq_ok.mpr ⟨parent, (hcell g.id).trans hown⟩

/-- A constraint that can be added can be removed again. -/
theorem create_remove (hb : b.Shows s n d) (hd : d.Canonical) {group : NodeId} {g : GroupCell}
    (hg : b.group group = .ok g) (operator : Connective) {origin : Option NodeId}
    (horigin : ∀ child ∈ origin, child ∈ g.children) :
    ∃ new b' b'', b.apply (.createConstraint group operator origin) = (.ok (.node new), b') ∧
      b'.apply (.removeNode new) = (.ok .nothing, b'') ∧ b.Restores group operator b'' := by
  have hrefuses : ¬ b.Refuses (.createConstraint group operator origin) := by
    rintro (hlacks | ⟨child, hchild, children, hchildren, hnot⟩)
    · obtain ⟨e, he⟩ := Arena.lacksGroup_iff.mp hlacks
      rw [Builder.group, he] at hg
      cases hg
    · rw [Builder.children, hg] at hchildren
      cases hchildren
      exact hnot (horigin child hchild)
  obtain ⟨o, n', d', b', hstep, hcreate, hb'⟩ := hb.exists_step hrefuses
  cases hstep with
  | load e q d hloads hq => cases hloads
  | rearrange e slots slots' within hrearranges => cases hrearranges
  | reshape e o left t right root within hreshapes =>
    cases hreshapes with
    | createConstraint group operator origin g g' hjoins =>
      have ht := hd t (by simp)
      obtain ⟨b'', hremove, hb''⟩ := hb'.apply_removeNode (hjoins.removes ht)
      exact ⟨n, b', b'', hcreate, hremove, hb.restores hb'' ht hjoins.place⟩

end Shows

/-- Whatever a builder has been through, a constraint that is added to a group and removed again
leaves no trace but the connective of a root with one child at most. -/
theorem run_create_remove (s : Settings) (edits : List Edit)
    (hedits : ∀ e ∈ edits, e.Configured s) {group : NodeId} {g : GroupCell}
    (hg : ((Builder.new s).run edits).group group = .ok g) (operator : Connective)
    {origin : Option NodeId} (horigin : ∀ child ∈ origin, child ∈ g.children) :
    let b := (Builder.new s).run edits
    ∃ new b' b'', b.apply (.createConstraint group operator origin) = (.ok (.node new), b') ∧
      b'.apply (.removeNode new) = (.ok .nothing, b'') ∧ b.Restores group operator b'' := by
  obtain ⟨n, d, hb, hd⟩ := run_shows_canonical s edits hedits
  exact hb.create_remove hd hg operator horigin

/-- The first of two constraints is wrapped together with a new one, and unwrapped again. -/
theorem run_create_remove_wrapping :
    let edits : List Edit := [.createConstraint 1 .and none]
    let b := (Builder.new .standard).run edits
    (∀ e ∈ edits, e.Configured .standard) ∧
      b.group 1 = .ok ⟨.and, ['A', 'N', 'D'], true, [0, 2]⟩ ∧
      ∃ new b' b'', b.apply (.createConstraint 1 .or (some 0)) = (.ok (.node new), b') ∧
        b'.apply (.removeNode new) = (.ok .nothing, b'') ∧ b.Restores 1 .or b'' := by
  intro edits b
  have hedits : ∀ e ∈ edits, e.Configured .standard := by
    intro e he query hloads
    cases hloads <;> simp [edits] at he
  have hgroup : b.group 1 = .ok ⟨.and, ['A', 'N', 'D'], true, [0, 2]⟩ := by decide +kernel
  exact ⟨hedits, hgroup, run_create_remove .standard edits hedits hgroup .or (by simp)⟩

end Builder

end CorpusQuery
