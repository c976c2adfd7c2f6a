import CorpusQuery.Proofs.Normal
import CorpusQuery.Proofs.Refusal

/-!
Groups and the groups in them have different connectives. There is one way for an edit to break
that: a group with one child at most takes the connective over of what joins it.
-/

namespace CorpusQuery

namespace Node

mutual

/-- In a group that is joined by `around`, no group is joined as the one that it is in. -/
def Alternates (around : Connective) : Node → Prop
  | .leaf _ _ => True
  | .group _ operator children => operator ≠ around ∧ AllAlternate operator children

def AllAlternate (around : Connective) : List Node → Prop
  | [] => True
  | m :: rest => m.Alternates around ∧ AllAlternate around rest

end

variable {around operator : Connective}

theorem allAlternate_iff {ms : List Node} :
    AllAlternate around ms ↔ ∀ m ∈ ms, m.Alternates around := by
  induction ms with
  | nil => simp [AllAlternate]
  | cons m rest ih => simp [AllAlternate, ih]

theorem allAlternate_append {ms ns : List Node} :
    AllAlternate around (ms ++ ns) ↔ AllAlternate around ms ∧ AllAlternate around ns := by
  simp only [allAlternate_iff, List.forall_mem_append]

/-- Among nodes that alternate in one group, those that would not in another are its likes. -/
theorem Alternates.iff_not_isGroupWith {m : Node} (h : m.Alternates around) :
    m.Alternates operator ↔ ¬ m.isGroupWith operator := by
  cases m with
  | leaf id c => simp [Alternates, isGroupWith]
  | group id inner children => simp [Alternates, isGroupWith, h.2]

theorem AllAlternate.iff_not_isGroupWith {ms : List Node} (h : AllAlternate around ms) :
    AllAlternate operator ms ↔ ¬ ∃ m ∈ ms, m.isGroupWith operator := by
  rw [allAlternate_iff] at h
  rw [allAlternate_iff]
  push Not
  exact forall₂_congr fun m hm => (h m hm).iff_not_isGroupWith

end Node

/-- No group of a tree is joined as the one that it is in. -/
def Group.Alternates (g : Group) : Prop := Node.AllAlternate g.operator g.children

open Node (allAlternate_append)

/-- Whether a group stays or gives its children up, they alternate with what is around. -/
theorem Group.Alternates.unnest {g : Group} (h : g.Alternates) (around : Connective) :
    Node.AllAlternate around (g.node.unnest around) := by
  rw [Group.node, Node.unnest]
  by_cases heq : g.operator = around
  · rw [if_pos heq]
    exact heq ▸ h
  · rw [if_neg heq]
    exact ⟨⟨heq, h⟩, trivial⟩

theorem Node.AllAlternate.unnestAll {operator : Connective} {ms : List Node}
    (h : AllAlternate operator ms) (around : Connective) :
    AllAlternate around (Node.unnestAll around ms) := by
  rw [allAlternate_iff] at h ⊢
  intro m hm
  obtain ⟨m', hm', hmem⟩ := List.mem_flatMap.mp hm
  cases m' with
  | leaf id c =>
    rw [unnest, List.mem_singleton] at hmem
    exact hmem ▸ trivial
  | group id inner children =>
    have hinner : (Group.mk id inner children).Alternates := (h _ hm').2
    exact allAlternate_iff.mp (hinner.unnest around) m hmem

/-- Nodes come in between siblings. -/
theorem Node.AllAlternate.between {around : Connective} {left ms right : List Node}
    (hsiblings : AllAlternate around (left ++ right)) (hms : AllAlternate around ms) :
    AllAlternate around (left ++ ms ++ right) := by
  rw [allAlternate_append] at hsiblings
  exact allAlternate_append.mpr ⟨allAlternate_append.mpr ⟨hsiblings.1, hms⟩, hsiblings.2⟩

namespace Context

/-- What is around alternates, whichever group comes in. -/
def Alternates : Context → Prop
  | top => True
  | under outer _ operator left right =>
    Node.AllAlternate operator (left ++ right) ∧ outer.operator? ≠ some operator ∧ outer.Alternates

/-- The group has one child at most, and gets the connective of a group next to it. -/
def Clashes (k : Context) (g : Group) (operator : Connective) : Prop :=
  g.operator ≠ operator ∧ g.children.length ≤ 1 ∧
    (k.operator? = some operator ∨ ∃ m ∈ g.children, m.isGroupWith operator)

theorem alternates_fill {k : Context} {g : Group} :
    (k.fill g).Alternates ↔ k.Alternates ∧ k.operator? ≠ some g.operator ∧ g.Alternates := by
  induction k generalizing g with
  | top => simp [fill, Alternates, operator?]
  | under outer id operator left right ih =>
    rw [fill, ih]
    simp only [Group.Alternates, Alternates, operator?, allAlternate_append, Node.AllAlternate,
      Group.node, Node.Alternates, ne_eq, Option.some.injEq, eq_comm (a := operator)]
    tauto

end Context

/-! ### What the rules do to it -/

section Rules

variable {operator : Connective} {root root' : Group}

/-- A leaf comes into a group, which may take another connective over for it. The tree alternates
still, unless that connective clashes. -/
theorem Context.alternates_grow {k : Context} {id : NodeId} {inner : Connective} {l r : List Node}
    (h : (k.fill ⟨id, inner, l ++ r⟩).Alternates) (hg : (l ++ r).length ≤ 1 ∨ inner = operator)
    (leaf : NodeId) (c : Constraint) :
    (k.fill ⟨id, operator, l ++ .leaf leaf c :: r⟩).Alternates ↔
      ¬ k.Clashes ⟨id, inner, l ++ r⟩ operator := by
  obtain ⟨hk, hdiffers, hchildren⟩ := alternates_fill.mp h
  have hinside : (Group.mk id operator (l ++ .leaf leaf c :: r)).Alternates ↔
      Node.AllAlternate operator (l ++ r) := by
    simp only [Group.Alternates, allAlternate_append, Node.AllAlternate, Node.Alternates, true_and]
  have hlikes : Node.AllAlternate operator (l ++ r) ↔ ¬ ∃ m ∈ l ++ r, m.isGroupWith operator :=
    Node.AllAlternate.iff_not_isGroupWith hchildren
  rw [alternates_fill, hinside, hlikes]
  by_cases hsame : inner = operator
  · -- Nothing changes for what was there.
    subst hsame
    have hnone := (Node.AllAlternate.iff_not_isGroupWith hchildren).mp hchildren
    exact iff_of_true ⟨hk, hdiffers, hnone⟩ fun hclash => hclash.1 rfl
  · have hsparse := hg.resolve_right hsame
    simp only [Clashes, hk, hsame, hsparse, true_and, not_false_eq_true, ne_eq, not_or]

/-- The children of a group change, and the group keeps its connective. -/
theorem Context.alternates_replace {k : Context} {id : NodeId} {inner : Connective}
    {children children' : List Node} (h : (k.fill ⟨id, inner, children⟩).Alternates)
    (hchildren : Node.AllAlternate inner children → Node.AllAlternate inner children') :
    (k.fill ⟨id, inner, children'⟩).Alternates := by
  obtain ⟨hk, hdiffers, hinside⟩ := alternates_fill.mp h
  exact alternates_fill.mpr ⟨hk, hdiffers, hchildren hinside⟩

theorem Context.not_clashes_of_lt {k : Context} {g : Group} (hlen : 1 < g.children.length) :
    ¬ k.Clashes g operator := fun h => absurd h.2.1 (Nat.not_le_of_lt hlen)

/-- A leaf that joins a group breaks the alternation just where the group is sparse and clashes. -/
theorem Joins.alternates_iff {leaf : NodeId} {c : Constraint} {fresh group : NodeId}
    {origin : Option (NodeId × Nat)} (h : Joins operator (.leaf leaf c) fresh group origin root root')
    (hroot : root.Alternates) : ∃ k g, root = Context.fill k g ∧ g.id = group ∧
      (root'.Alternates ↔ ¬ k.Clashes g operator) := by
  cases h with
  | atEnd k g hg =>
    have hk : (k.fill ⟨g.id, g.operator, g.children ++ []⟩).Alternates := by rwa [List.append_nil]
    have hgrow := Context.alternates_grow hk (by rwa [List.append_nil]) leaf c
    rw [List.append_nil] at hgrow
    exact ⟨k, g, rfl, rfl, hgrow⟩
  | behind k _ inner left child right hg =>
    have hgrow := Context.alternates_grow (l := left ++ [child]) (r := right) (by simpa using hroot)
      (by simpa using hg) leaf c
    exact ⟨k, _, rfl, rfl, by simpa using hgrow⟩
  | inside k _ inner left sub children right hne hlen =>
    refine ⟨k, _, rfl, rfl, iff_of_true ?_ (Context.not_clashes_of_lt hlen)⟩
    apply Context.alternates_replace hroot
    simp only [allAlternate_append, Node.AllAlternate, Node.Alternates]
    tauto
  | around k _ inner left child right hne hlen hchild =>
    refine ⟨k, _, rfl, rfl, iff_of_true ?_ (Context.not_clashes_of_lt hlen)⟩
    apply Context.alternates_replace hroot
    simp only [allAlternate_append, Node.AllAlternate, Node.Alternates]
    rintro ⟨hleft, hhere, hright⟩
    -- The child has another connective than the new group, or it would have taken the leaf in
    -- itself.
    have hinside : child.Alternates operator := hhere.iff_not_isGroupWith.mpr (by simp [hchild])
    exact ⟨hleft, ⟨Ne.symm hne, hinside, trivial, trivial⟩, hright⟩
  | beside outer id left g right hne hlen =>
    refine ⟨.under outer id operator left right, g, rfl, rfl,
      iff_of_true ?_ (Context.not_clashes_of_lt hlen)⟩
    apply Context.alternates_replace hroot
    simp only [allAlternate_append, Node.AllAlternate, Node.Alternates]
    tauto
  | above k g hne hlen hk =>
    refine ⟨k, g, rfl, rfl, iff_of_true ?_ (Context.not_clashes_of_lt hlen)⟩
    obtain ⟨haround, -, hchildren⟩ := Context.alternates_fill.mp hroot
    -- The old children move down as a whole, into a group with the connective that they had.
    exact Context.alternates_fill.mpr ⟨haround, hk, ⟨hne, hchildren⟩, trivial, trivial⟩

theorem Context.alternates_merge {k : Context} {g : Group} (hk : k.Alternates)
    (hg : g.Alternates) : (k.merge g).Alternates := by
  cases k with
  | top => exact hg
  | under outer id around left right =>
    obtain ⟨hsiblings, hdiffers, houter⟩ := hk
    exact alternates_fill.mpr ⟨houter, hdiffers, hsiblings.between (hg.unnest around)⟩

theorem Retypes.alternates {id : NodeId} (h : Retypes operator id root root')
    (hroot : root.Alternates) : root'.Alternates := by
  cases h with
  | group k g =>
    obtain ⟨hk, -, hchildren⟩ := Context.alternates_fill.mp hroot
    exact Context.alternates_merge hk (hchildren.unnestAll operator)

theorem Group.Alternates.absorb {g : Group} (hg : g.Alternates) : g.absorb.Alternates := by
  unfold Group.absorb
  split
  next id inner children heq =>
    have hchildren : Node.AllAlternate g.operator g.children := hg
    rw [heq] at hchildren
    exact hchildren.1.2
  next => exact hg

/-- What a dissolved group leaves behind is merged by one level, and below that it alternates. -/
theorem Context.alternates_settle {k : Context} {g : Group} (hk : k.Alternates)
    (hdiffers : k.operator? ≠ some g.operator) (hg : g.Alternates) : (k.settle g).Alternates := by
  induction k generalizing g with
  | top => exact hg.absorb
  | under outer id around left right ih =>
    obtain ⟨hsiblings, houter, hcontext⟩ := hk
    rw [settle]
    split
    next => exact ih hcontext houter (hsiblings.between (hg.unnestAll around))
    next =>
      exact alternates_fill (k := .under outer id around left right).mpr
        ⟨⟨hsiblings, houter, hcontext⟩, hdiffers, hg⟩

theorem Removes.alternates {id : NodeId} (h : Removes id root root') (hroot : root.Alternates) :
    root'.Alternates := by
  cases h with
  | child k parent inner left m right =>
    obtain ⟨hk, hdiffers, hchildren⟩ := Context.alternates_fill.mp hroot
    refine Context.alternates_settle hk hdiffers ?_
    simp only [Group.Alternates, allAlternate_append, Node.AllAlternate] at hchildren ⊢
    exact ⟨hchildren.1, hchildren.2.2⟩

theorem Updates.alternates {f : Constraint → Constraint} {id : NodeId} (h : Updates f id root root')
    (hroot : root.Alternates) : root'.Alternates := by
  cases h with
  | leaf k parent inner left _ c right =>
    apply Context.alternates_replace hroot
    simp only [allAlternate_append, Node.AllAlternate, Node.Alternates, imp_self]

end Rules

/-! ### Drafts -/

/-- What is loaded alternates, whatever is left out of it. -/
theorem Expr.allAlternate_nodes (s : Settings) (e : Expr) (around : Connective) (next : NodeId) :
    Node.AllAlternate around (e.nodes s around next).1 := by
  induction e generalizing around next with
  | constraint name equality written =>
    rw [nodes]
    split <;> simp [Node.AllAlternate, Node.Alternates]
  | binary operator left right ihl ihr =>
    rw [nodes]
    split
    next heq =>
      subst heq
      exact allAlternate_append.mpr ⟨ihl _ _, ihr _ _⟩
    next hne => exact ⟨⟨hne, allAlternate_append.mpr ⟨ihl _ _, ihr _ _⟩⟩, trivial⟩

namespace Draft

def Alternates (d : Draft) : Prop := ∀ t ∈ d.slots, t.root.Alternates

variable {s : Settings}

theorem alternates_blank (n : NodeId) : (Slot.blank s n).root.Alternates :=
  ⟨trivial, trivial⟩

theorem alternates_ofTokens (ts : List Token) (next : NodeId) :
    ∀ t ∈ ofTokens s ts next, t.root.Alternates := by
  apply forall_ofTokens
  intro t _ next
  show (Slot.rootOf s t next).Alternates
  unfold Slot.rootOf
  split
  next e he => exact e.allAlternate_nodes s _ (next + 1)
  next => exact trivial

theorem alternates_ofQuery (q : Option Query) : (ofQuery s q).Alternates := by
  cases q with
  | none => simpa [ofQuery, Alternates] using alternates_blank 0
  | some query => exact alternates_ofTokens query.tokens 0

theorem alternates_replace {left right : List (Slot Group)} {t : Slot Group} {root : Group}
    {within within' : Option Text} (h : (Draft.mk (left ++ t :: right) within).Alternates) :
    (Draft.mk (left ++ { t with root } :: right) within').Alternates ↔ root.Alternates := by
  simp only [Alternates, List.forall_mem_append, List.forall_mem_cons] at h ⊢
  exact ⟨fun hnew => hnew.2.1, fun hroot => ⟨h.1, hroot, h.2.2⟩⟩

end Draft

/-! ### Builders -/

namespace Builder

/-- No group is joined as the one that it is in. -/
def Alternating (b : Builder) : Prop :=
  ∀ id g child inner, b.group id = .ok g → child ∈ g.children → b.group child = .ok inner →
    inner.operator ≠ g.operator

/-- The group is in one, or has one in it, that is joined by the connective. -/
def Adjoins (b : Builder) (id : NodeId) (operator : Connective) : Prop :=
  (∃ parent outer, b.parent? id = some parent ∧ b.group parent = .ok outer ∧
      outer.operator = operator) ∨
    ∃ children child inner, b.children id = .ok children ∧ child ∈ children ∧
      b.group child = .ok inner ∧ inner.operator = operator

/-- A new constraint is not refused, and joins a group with one child at most by a connective that
is not that of the group, but of one next to it. -/
def Clashes (b : Builder) : Edit → Prop
  | .createConstraint id operator origin =>
    ¬ b.Refuses (.createConstraint id operator origin) ∧
      ∃ g, b.group id = .ok g ∧ g.operator ≠ operator ∧ g.children.length ≤ 1 ∧
        b.Adjoins id operator
  | _ => False

namespace Shows

variable {b : Builder} {s : Settings} {n : NodeId} {d : Draft}

/-- A child is a group if the tree says so. -/
theorem group_child_iff (hb : b.Shows s n d) {t : Slot Group} (ht : t ∈ d.slots) {k : Context}
    {g : Group} (hroot : t.root = k.fill g) {m : Node} (hm : m ∈ g.children)
    (operator : Connective) :
    (∃ inner, b.group m.id = .ok inner ∧ inner.operator = operator) ↔ m.isGroupWith operator := by
  obtain ⟨id, around, children⟩ := g
  obtain ⟨left, right, rfl⟩ := List.append_of_mem hm
  have hcell := child_mem (s := s) ht hroot
  cases m with
  | leaf leaf c =>
    refine iff_of_false ?_ (by simp [Node.isGroupWith])
    rintro ⟨inner, hinner, -⟩
    obtain ⟨parent, hinner⟩ := hb.group_eq_ok.mp hinner
    cases hb.cell_unique hinner hcell
  | group sub inner ms =>
    have hgroup : b.group sub = .ok _ := hb.group_eq_ok.mpr ⟨_, hcell⟩
    simp [Node.id, hgroup, Group.cell, Node.isGroupWith]

theorem operator?_iff (hb : b.Shows s n d) {t : Slot Group} (ht : t ∈ d.slots) {k : Context}
    {g : Group} (hroot : t.root = k.fill g) (operator : Connective) :
    (∃ parent outer, b.parent? g.id = some parent ∧ b.group parent = .ok outer ∧
      outer.operator = operator) ↔ k.operator? = some operator := by
  cases k with
  | top =>
    obtain rfl : t.root = g := hroot
    have hparent : b.parent? t.root.id = none := hb.parent?_eq (root_mem t ht)
    simp [hparent, Context.operator?]
  | under outer id around left right =>
    have hparent : b.parent? g.id = some id := hb.parent?_eq (child_mem (m := g.node) ht hroot)
    have houter : b.group id = .ok _ := hb.group_of_fill (k := outer) ht hroot
    simp [hparent, houter, Group.cell, Context.operator?]

theorem adjoins_iff (hb : b.Shows s n d) {t : Slot Group} (ht : t ∈ d.slots) {k : Context}
    {g : Group} (hroot : t.root = k.fill g) (operator : Connective) :
    b.Adjoins g.id operator ↔
      k.operator? = some operator ∨ ∃ m ∈ g.children, m.isGroupWith operator := by
  have hchildren : b.children g.id = .ok (g.children.map Node.id) := by
    rw [Builder.children, hb.group_of_fill ht hroot]
    rfl
  refine or_congr (hb.operator?_iff ht hroot operator) ?_
  constructor
  · rintro ⟨children, child, inner, hids, hchild, hinner⟩
    rw [hchildren] at hids
    cases hids
    obtain ⟨m, hm, rfl⟩ := List.mem_map.mp hchild
    exact ⟨m, hm, (hb.group_child_iff ht hroot hm operator).mp ⟨inner, hinner⟩⟩
  · rintro ⟨m, hm, hjoined⟩
    obtain ⟨inner, hinner⟩ := (hb.group_child_iff ht hroot hm operator).mpr hjoined
    exact ⟨_, m.id, inner, hchildren, List.mem_map_of_mem hm, hinner⟩

/-- The recursion is on the children of a group, wherever it is in its tree. -/
theorem alternates_of_alternating (hb : b.Shows s n d) (h : b.Alternating) {t : Slot Group}
    (ht : t ∈ d.slots) (k : Context) (g : Group) (hroot : t.root = k.fill g) (m : Node)
    (hm : m ∈ g.children) : m.Alternates g.operator := by
  match m with
  | .leaf id c => exact trivial
  | .group sub inner children =>
    obtain ⟨left, right, hchildren⟩ := List.append_of_mem hm
    have hsub : t.root = (Context.under k g.id g.operator left right).fill ⟨sub, inner, children⟩ := by
      rw [hroot, Context.fill, Group.node, ← hchildren]
    refine ⟨?_, Node.allAlternate_iff.mpr fun m' hm' => ?_⟩
    · exact h g.id _ sub _ (hb.group_of_fill ht hroot) (List.mem_map_of_mem hm)
        (hb.group_of_fill ht hsub)
    · exact hb.alternates_of_alternating h ht _ _ hsub m' hm'
termination_by sizeOf m
decreasing_by
  have hlt := List.sizeOf_lt_of_mem hm'
  simp only [Node.group.sizeOf_spec]
  omega

/-- A builder alternates just if the trees that it shows do. -/
theorem alternating_iff (hb : b.Shows s n d) : b.Alternating ↔ d.Alternates := by
  constructor
  · intro h t ht
    refine Node.allAlternate_iff.mpr fun m hm => ?_
    exact hb.alternates_of_alternating h ht .top t.root rfl m hm
  · intro hd id g child inner hg hchild hinner
    obtain ⟨t, ht, k, g', hroot, rfl, rfl⟩ := hb.locate_group hg
    obtain ⟨-, -, hchildren⟩ := Context.alternates_fill.mp (hroot ▸ hd t ht)
    obtain ⟨m, hm, rfl⟩ := List.mem_map.mp hchild
    intro heq
    have hjoined := (hb.group_child_iff ht hroot hm g'.operator).mp ⟨inner, hinner, heq⟩
    exact (Node.AllAlternate.iff_not_isGroupWith hchildren).mp hchildren ⟨m, hm, hjoined⟩

theorem step_alternates_iff (hb : b.Shows s n d) (hd : d.Alternates) {e : Edit} {o : Outcome}
    {d' : Draft} (hstep : Draft.Step s n e o d d') (hrefuses : ¬ b.Refuses e) :
    d'.Alternates ↔ ¬ b.Clashes e := by
  cases hstep with
  | load e q d hloads hq =>
    exact iff_of_true (Draft.alternates_ofQuery q) (by cases hloads <;> exact not_false)
  | createToken slots within =>
    refine iff_of_true ?_ not_false
    exact List.forall_mem_append.mpr ⟨hd, by simpa using Draft.alternates_blank n⟩
  | removeToken left t right within =>
    refine iff_of_true ?_ not_false
    simp only [Draft.Alternates, List.forall_mem_append, List.forall_mem_cons] at hd ⊢
    exact ⟨hd.1, hd.2.2⟩
  | rearrange e slots slots' within h =>
    exact iff_of_true (h.forall_roots hd) (by cases h <;> exact not_false)
  | setWithin name slots within => exact iff_of_true hd not_false
  | reshape e o left t right root within h =>
    have ht : t ∈ left ++ t :: right := by simp
    rw [Draft.alternates_replace hd]
    cases h with
    | createConstraint group operator origin _ _ hjoins =>
      obtain ⟨k, g, hroot, rfl, hiff⟩ := hjoins.alternates_iff (hd t ht)
      have hgroup := hb.group_of_fill ht hroot
      have hadjoins := hb.adjoins_iff ht hroot operator
      rw [hiff, Context.Clashes, ← hadjoins, Clashes]
      simp [hrefuses, hgroup, Group.cell]
    | removeNode id _ _ hremoves => exact iff_of_true (hremoves.alternates (hd t ht)) not_false
    | setGroupOperator id operator _ _ hretypes =>
      exact iff_of_true (hretypes.alternates (hd t ht)) not_false
    | setField id field _ _ hupdates =>
      exact iff_of_true (hupdates.alternates (hd t ht)) not_false

end Shows

theorem Clashes.not_refuses {b : Builder} {e : Edit} (h : b.Clashes e) : ¬ b.Refuses e := by
  cases e with
  | createConstraint id operator origin => exact h.1
  | _ => cases h

/-- One edit keeps the alternation, unless it clashes. -/
theorem Shows.step_alternating_iff {b : Builder} {s : Settings} {n : NodeId} {d : Draft}
    (hb : b.Shows s n d) (h : b.Alternating) (e : Edit) :
    (b.step e).Alternating ↔ ¬ b.Clashes e := by
  by_cases hrefuses : b.Refuses e
  · have hsame : b.step e = b := by
      rcases BuilderM.apply_failsIff hb e with ⟨-, error, hfail⟩ | ⟨hnot, -⟩
      · simp only [step, apply, hfail]
      · exact absurd hrefuses hnot
    rw [hsame]
    exact iff_of_true h fun hclash => hclash.not_refuses hrefuses
  · obtain ⟨o, n', d', b', hstep, happly, hb'⟩ := hb.exists_step hrefuses
    have hnext : b.step e = b' := by rw [step, happly]
    rw [hnext, hb'.alternating_iff]
    exact hb.step_alternates_iff (hb.alternating_iff.mp h) hstep hrefuses

theorem run_append_singleton (b : Builder) (edits : List Edit) (e : Edit) :
    b.run (edits ++ [e]) = (b.run edits).step e := by
  rw [run, run, List.foldl_append, List.foldl_cons, List.foldl_nil]

/-- All the way through a run connectives alternate, just if no edit of it clashes. -/
theorem run_alternating_iff (s : Settings) (edits : List Edit) :
    (∀ before, before <+: edits → ((Builder.new s).run before).Alternating) ↔
      ∀ before e, before ++ [e] <+: edits → ¬ ((Builder.new s).run before).Clashes e := by
  constructor
  · intro halternating before e hbefore
    obtain ⟨n, d, hb⟩ := exists_shows_run s before
    have hprefix : before <+: edits := (List.prefix_append before [e]).trans hbefore
    rw [← hb.step_alternating_iff (halternating before hprefix), ← run_append_singleton]
    exact halternating _ hbefore
  · intro hclashes before hbefore
    -- The induction is on the edits so far, from the last one back.
    induction before using List.reverseRecOn with
    | nil => exact (Builder.new_shows s).alternating_iff.mpr (Draft.alternates_ofQuery none)
    | append_singleton before e ih =>
      obtain ⟨n, d, hb⟩ := exists_shows_run s before
      have hprefix : before <+: edits := (List.prefix_append before [e]).trans hbefore
      rw [run_append_singleton, hb.step_alternating_iff (ih hprefix)]
      exact hclashes before e hbefore

/-- Where an unknown attribute leaves a root with a single group, a constraint that joins the root
by the connective of the group puts like into like. -/
theorem run_not_alternating :
    let b := (Builder.new .standard).run [.parse (some Query.looseText), .createConstraint 0 .or none]
    ¬ b.Alternating := by
  intro b h
  have hroot : b.group 0 = .ok ⟨.or, ['O', 'R'], true, [1, 4]⟩ := by decide +kernel
  have hsub : b.group 1 = .ok ⟨.or, ['O', 'R'], false, [3, 2]⟩ := by decide +kernel
  exact h 0 _ 1 _ hroot (by simp) hsub rfl

end Builder

end CorpusQuery
