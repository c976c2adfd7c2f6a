import CorpusQuery.Proofs.Arena.Fold
import CorpusQuery.Proofs.Simulation
import Mathlib.Logic.Relation

/-!
After any run of edits the nodes of a builder form one tree for each token, with children and
parents in agreement and nothing outside of the trees.
-/

namespace CorpusQuery

namespace Builder

/-- `child` names `parent` as the group that it is in. -/
def ParentLink (b : Builder) (child parent : NodeId) : Prop := b.parent? child = some parent

/-- The roots of the tokens are groups of their own, and no other group is marked as a root. -/
structure RootsAgree (b : Builder) : Prop where
  nodup : (b.slots.map (·.root)).Nodup
  live : ∀ t ∈ b.slots, ∃ g, b.group t.root = .ok g ∧ g.isRoot = true ∧ b.parent? t.root = none
  only : ∀ id g, b.group id = .ok g → g.isRoot = true → ∃ t ∈ b.slots, id = t.root

/-- What a group lists as its children are the nodes that name it as their parent. -/
structure LinksAgree (b : Builder) : Prop where
  child_iff : ∀ id g child, b.group id = .ok g → b.contains child →
    (child ∈ g.children ↔ b.parent? child = some id)
  nodup : ∀ id g, b.group id = .ok g → g.children.Nodup
  live : ∀ id g, b.group id = .ok g → ∀ child ∈ g.children, b.contains child
  has_parent : ∀ id, b.contains id → (∀ t ∈ b.slots, id ≠ t.root) →
    ∃ parent, b.parent? id = some parent

/-- Each node is in the tree of exactly one token, and in no other place. -/
structure TreesCover (b : Builder) : Prop where
  ends_at_root : ∀ id, b.contains id → ∃! index : Nat, ∃ t : Slot NodeId, b.slots[index]? = some t ∧
    Relation.ReflTransGen b.ParentLink id t.root
  size_eq : ∃ trees, b.slots.mapM (fun t => b.arena.below t.root) = .ok trees ∧
    trees.flatten.Nodup ∧ b.size = trees.flatten.length ∧
    ∀ id, b.contains id ↔ id ∈ trees.flatten

/-- What stands around the trees is as it should be, too. -/
structure MarginsValid (b : Builder) : Prop where
  bounds : ∀ t ∈ b.slots, ∀ max ∈ t.repeats.max, t.repeats.min ≤ max
  labels : ∀ id g, b.group id = .ok g → g.label = b.settings.operatorLabel g.operator
  within : ∀ name ∈ b.within, name ≠ []

structure WellFormed (b : Builder) : Prop where
  roots : b.RootsAgree
  links : b.LinksAgree
  trees : b.TreesCover
  margins : b.MarginsValid

end Builder

namespace Draft

variable {label : Connective → Text} {d : Draft}

theorem mem_cells {x : NodeId × Cell} :
    x ∈ d.cells label ↔ ∃ t ∈ d.slots, x ∈ t.root.cells label := by
  obtain ⟨slots, within⟩ := d
  simp only [cells]
  induction slots with
  | nil => simp
  | cons t rest ih => simp [Multiset.mem_add, ih]

theorem ids_cells : (d.cells label).ids = ↑(d.slots.map (·.root.node.ids)).flatten := by
  obtain ⟨slots, within⟩ := d
  simp only [cells]
  induction slots with
  | nil => rfl
  | cons t rest ih =>
    rw [List.map_cons, List.sum_cons, Heap.ids_add, ih, List.map_cons, List.flatten_cons,
      ← Multiset.coe_add, Group.ids_cells]

theorem nodup_roots (hnodup : (d.cells label).ids.Nodup) : (d.slots.map (·.root.id)).Nodup := by
  rw [ids_cells, Multiset.coe_nodup] at hnodup
  refine hnodup.sublist ?_
  induction d.slots with
  | nil => exact .slnil
  | cons t rest ih => exact .cons_cons _ (ih.trans (List.sublist_append_right ..))

end Draft

/-- The number of nodes is that of the cells. -/
theorem Arena.Holds.size_eq {a : Arena} {n : NodeId} {h : Heap} (ha : a.Holds n h) :
    a.size = h.ids.card := by
  have hids : (↑((List.range a.next).filter a.contains) : Multiset NodeId) = h.ids := by
    refine Multiset.Nodup.ext ?_ ha.nodup |>.mpr fun id => ?_
    · exact Multiset.coe_nodup.mpr (List.nodup_range.filter _)
    · rw [Multiset.mem_coe, List.mem_filter, List.mem_range]
      constructor
      · rintro ⟨-, hcontains⟩
        obtain ⟨c, hc⟩ := Option.isSome_iff_exists.mp hcontains
        exact Multiset.mem_map_of_mem Prod.fst ((ha.cell?_eq_some_iff id c).mp hc)
      · intro hmem
        obtain ⟨⟨i, c⟩, hc, rfl⟩ := Multiset.mem_map.mp hmem
        have hcontains : a.contains i := by
          simp [contains, (ha.cell?_eq_some_iff _ c).mpr hc]
        exact ⟨lt_next_of_contains hcontains, hcontains⟩
  rw [size_eq_countP, List.countP_eq_length_filter, ← hids, Multiset.coe_card]

namespace Builder.Shows

variable {b : Builder} {s : Settings} {n : NodeId} {d : Draft}

theorem group_eq_ok (hb : b.Shows s n d) {id : NodeId} {g : GroupCell} :
    b.group id = .ok g ↔ ∃ parent, (id, ⟨parent, .group g⟩) ∈ d.cells s.operatorLabel :=
  Arena.group_eq_ok.trans (exists_congr fun _ => hb.holds.cell?_eq_some_iff id _)

theorem constraint_eq_ok (hb : b.Shows s n d) {id : NodeId} {c : Constraint} :
    b.constraint id = .ok c ↔ ∃ parent, (id, ⟨parent, .leaf c⟩) ∈ d.cells s.operatorLabel :=
  Arena.constraint_eq_ok.trans (exists_congr fun _ => hb.holds.cell?_eq_some_iff id _)

theorem contains_iff (hb : b.Shows s n d) {id : NodeId} :
    b.contains id ↔ ∃ c, (id, c) ∈ d.cells s.operatorLabel :=
  Option.isSome_iff_exists.trans (exists_congr fun c => hb.holds.cell?_eq_some_iff id c)

theorem parent?_eq (hb : b.Shows s n d) {id : NodeId} {parent : Option NodeId} {e : Entry}
    (hid : (id, ⟨parent, e⟩) ∈ d.cells s.operatorLabel) : b.parent? id = parent := by
  rw [Builder.parent?, Arena.parent?, (hb.holds.cell?_eq_some_iff id _).mpr hid, Option.bind_some]

theorem cell_unique (hb : b.Shows s n d) {id : NodeId} {c c' : Cell}
    (h : (id, c) ∈ d.cells s.operatorLabel) (h' : (id, c') ∈ d.cells s.operatorLabel) : c = c' := by
  rw [← hb.holds.cell?_eq_some_iff] at h h'
  exact Option.some.inj (h.symm.trans h')

/-- The root of a token has its cell. -/
theorem root_mem (t : Slot Group) (ht : t ∈ d.slots) :
    (t.root.id, ⟨none, .group (t.root.cell s.operatorLabel true)⟩) ∈ d.cells s.operatorLabel :=
  Draft.mem_cells.mpr ⟨t, ht, Context.mem_cells_fill _ .top t.root⟩

theorem child_mem {t : Slot Group} (ht : t ∈ d.slots) {k : Context} {id : NodeId}
    {operator : Connective} {left : List Node} {m : Node} {right : List Node}
    (hroot : t.root = k.fill ⟨id, operator, left ++ m :: right⟩) :
    (m.id, ⟨some id, m.entry s.operatorLabel⟩) ∈ d.cells s.operatorLabel :=
  Draft.mem_cells.mpr ⟨t, ht, hroot ▸ k.mem_cells_child _ id operator left m right⟩

theorem group_of_fill (hb : b.Shows s n d) {t : Slot Group} (ht : t ∈ d.slots) {k : Context}
    {g : Group} (hroot : t.root = k.fill g) :
    b.group g.id = .ok (g.cell s.operatorLabel k.isRoot) :=
  hb.group_eq_ok.mpr ⟨_, Draft.mem_cells.mpr ⟨t, ht, hroot ▸ Context.mem_cells_fill _ k g⟩⟩

theorem slots_root (hb : b.Shows s n d) : b.slots.map (·.root) = d.slots.map (·.root.id) := by
  rw [hb.slots_eq, List.map_map]
  rfl

theorem mapRoot_mem (hb : b.Shows s n d) {t : Slot Group} (ht : t ∈ d.slots) :
    t.mapRoot Group.id ∈ b.slots :=
  hb.slots_eq ▸ List.mem_map_of_mem ht

theorem mem_slots (hb : b.Shows s n d) {t : Slot NodeId} (ht : t ∈ b.slots) :
    ∃ u ∈ d.slots, t = u.mapRoot Group.id := by
  rw [hb.slots_eq, List.mem_map] at ht
  obtain ⟨u, hu, rfl⟩ := ht
  exact ⟨u, hu, rfl⟩

theorem holds_token (hb : b.Shows s n d) {t : Slot Group} (ht : t ∈ d.slots) :
    ∃ h, b.arena.Holds n (t.root.cells s.operatorLabel + h) := by
  obtain ⟨left, right, hslots⟩ := List.append_of_mem ht
  obtain ⟨slots, within⟩ := d
  subst hslots
  exact ⟨_, hb.holds.reorder (Draft.cells_append _ left t right within)⟩

/-- Each group of the builder is that of a subtree. -/
theorem locate_group (hb : b.Shows s n d) {id : NodeId} {g : GroupCell}
    (hg : b.group id = .ok g) : ∃ t ∈ d.slots, ∃ k g', t.root = Context.fill k g' ∧ id = g'.id ∧
      g = g'.cell s.operatorLabel k.isRoot := by
  obtain ⟨parent, hid⟩ := hb.group_eq_ok.mp hg
  obtain ⟨t, ht, hcell⟩ := Draft.mem_cells.mp hid
  exact ⟨t, ht, Group.exists_fill_of_mem_cells _ hcell⟩

/-- Each node of the builder is a root or a child. -/
theorem locate (hb : b.Shows s n d) {id : NodeId} (hid : b.contains id) :
    ∃ t ∈ d.slots, id = t.root.id ∨ ∃ k around operator left m right,
      t.root = Context.fill k ⟨around, operator, left ++ m :: right⟩ ∧ id = Node.id m := by
  obtain ⟨c, hc⟩ := hb.contains_iff.mp hid
  obtain ⟨t, ht, hcell⟩ := Draft.mem_cells.mp hc
  refine ⟨t, ht, (Group.root_or_child _ hcell).imp (congrArg Prod.fst) ?_⟩
  rintro ⟨k, around, operator, left, m, right, hroot, heq⟩
  exact ⟨k, around, operator, left, m, right, hroot, congrArg Prod.fst heq⟩

theorem child_of_mem_children (hb : b.Shows s n d) {id child : NodeId} {g : GroupCell}
    (hg : b.group id = .ok g) (hmem : child ∈ g.children) :
    ∃ e, (child, ⟨some id, e⟩) ∈ d.cells s.operatorLabel := by
  obtain ⟨u, hu, k, ⟨_, operator, children⟩, hfill, rfl, rfl⟩ := hb.locate_group hg
  obtain ⟨m, hm, rfl⟩ := List.mem_map.mp hmem
  obtain ⟨left, right, rfl⟩ := List.append_of_mem hm
  exact ⟨_, child_mem hu hfill⟩

theorem rootsAgree (hb : b.Shows s n d) : b.RootsAgree where
  nodup := hb.slots_root ▸ Draft.nodup_roots hb.holds.nodup
  live t ht := by
    obtain ⟨u, hu, rfl⟩ := hb.mem_slots ht
    have hroot := root_mem (s := s) u hu
    exact ⟨_, hb.group_eq_ok.mpr ⟨none, hroot⟩, rfl, hb.parent?_eq hroot⟩
  only id g hg hroot := by
    obtain ⟨u, hu, k, g', hfill, rfl, rfl⟩ := hb.locate_group hg
    cases k with
    | under outer id operator left right => cases hroot
    | top => exact ⟨u.mapRoot Group.id, hb.mapRoot_mem hu, congrArg Group.id hfill.symm⟩

theorem linksAgree (hb : b.Shows s n d) : b.LinksAgree where
  child_iff id g child hg hchild := by
    constructor
    · intro hmem
      obtain ⟨e, hchild⟩ := hb.child_of_mem_children hg hmem
      exact hb.parent?_eq hchild
    · intro hlink
      obtain ⟨u, hu, rfl | ⟨k, around, operator, left, m, right, hroot, rfl⟩⟩ := hb.locate hchild
      · rw [hb.parent?_eq (root_mem u hu)] at hlink
        cases hlink
      · rw [hb.parent?_eq (child_mem hu hroot)] at hlink
        cases hlink
        have hgroup : b.group id = .ok _ :=
          hb.group_eq_ok.mpr ⟨_, Draft.mem_cells.mpr ⟨u, hu, hroot ▸ Context.mem_cells_fill _ k _⟩⟩
        rw [hgroup] at hg
        cases hg
        simp [Group.cell]
  nodup id g hg := by
    obtain ⟨u, hu, k, g', hfill, rfl, rfl⟩ := hb.locate_group hg
    obtain ⟨h, ha⟩ := hb.holds_token hu
    exact Context.nodup_children _ (hfill ▸ ha.nodup)
  live id g hg child hmem := by
    obtain ⟨e, hchild⟩ := hb.child_of_mem_children hg hmem
    exact hb.contains_iff.mpr ⟨_, hchild⟩
  has_parent id hid hne := by
    obtain ⟨u, hu, rfl | ⟨k, around, operator, left, m, right, hroot, rfl⟩⟩ := hb.locate hid
    · exact absurd rfl (hne (u.mapRoot Group.id) (hb.mapRoot_mem hu))
    · exact ⟨around, hb.parent?_eq (child_mem hu hroot)⟩

/-- From any group of a tree the links lead to the root. -/
theorem links_to_root (hb : b.Shows s n d) {t : Slot Group} (ht : t ∈ d.slots) (k : Context)
    (g : Group) (hroot : t.root = k.fill g) :
    Relation.ReflTransGen b.ParentLink g.id t.root.id := by
  induction k generalizing g with
  | top =>
    rw [hroot]
    exact .refl
  | under outer id operator left right ih =>
    have hlink : b.parent? g.id = some id := hb.parent?_eq (child_mem (m := g.node) ht hroot)
    exact .head hlink (ih _ hroot)

theorem links_of_contains (hb : b.Shows s n d) {id : NodeId} (hid : b.contains id) :
    ∃ t ∈ d.slots, Relation.ReflTransGen b.ParentLink id t.root.id := by
  obtain ⟨u, hu, rfl | ⟨k, around, operator, left, m, right, hroot, rfl⟩⟩ := hb.locate hid
  · exact ⟨u, hu, .refl⟩
  · have hlink : b.parent? m.id = some around := hb.parent?_eq (child_mem hu hroot)
    exact ⟨u, hu, .head hlink (hb.links_to_root hu k _ hroot)⟩

/-- No two roots are reached from one node. -/
theorem root_unique (hb : b.Shows s n d) {id : NodeId} {t u : Slot Group} (ht : t ∈ d.slots)
    (hu : u ∈ d.slots) (hidt : Relation.ReflTransGen b.ParentLink id t.root.id)
    (hidu : Relation.ReflTransGen b.ParentLink id u.root.id) : t.root.id = u.root.id := by
  have hstop : ∀ {v : Slot Group} {j : NodeId}, v ∈ d.slots →
      Relation.ReflTransGen b.ParentLink v.root.id j → v.root.id = j := fun {v j} hv hlinks => by
    rcases hlinks.cases_head with heq | ⟨parent, hlink, -⟩
    · exact heq
    · rw [ParentLink, hb.parent?_eq (root_mem v hv)] at hlink
      cases hlink
  have hunique : Relator.RightUnique b.ParentLink := fun _ _ _ h h' =>
    Option.some.inj (h.symm.trans h')
  -- Links are functional, so of two runs from one node one goes on to the end of the other; but
  -- from a root nothing goes on.
  rcases Relation.ReflTransGen.total_of_right_unique hunique hidt hidu with h | h
  · exact hstop ht h
  · exact (hstop hu h).symm

/-- What can be told of every token can be told of all of them. -/
theorem mapM_slots (hb : b.Shows s n d) {β : Type} {f : Slot NodeId → Except BuilderError β}
    {g : Slot Group → β} (h : ∀ t ∈ d.slots, f (t.mapRoot Group.id) = .ok (g t)) :
    b.slots.mapM f = .ok (d.slots.map g) := by
  rw [hb.slots_eq, List.mapM_map]
  -- The induction is on any part of the slots.
  clear hb
  generalize d.slots = slots at h
  induction slots with
  | nil => rfl
  | cons t rest ih =>
    rw [List.forall_mem_cons] at h
    rw [List.mapM_cons, Function.comp_apply, h.1, ih h.2]
    rfl

/-- Each tree can be read off the builder. -/
theorem below_tokens (hb : b.Shows s n d) :
    b.slots.mapM (fun t => b.arena.below t.root) = .ok (d.slots.map (·.root.node.ids)) := by
  refine hb.mapM_slots fun t ht => ?_
  obtain ⟨h, ha⟩ := hb.holds_token ht
  exact t.root.arena_below _ ha

theorem treesCover (hb : b.Shows s n d) : b.TreesCover where
  ends_at_root id hid := by
    obtain ⟨u, hu, hlinks⟩ := hb.links_of_contains hid
    obtain ⟨index, hindex⟩ := List.mem_iff_getElem?.mp (hb.mapRoot_mem hu)
    refine ⟨index, ⟨_, hindex, hlinks⟩, fun index' ⟨t', hindex', hlinks'⟩ => ?_⟩
    obtain ⟨u', hu', rfl⟩ := hb.mem_slots (List.mem_of_getElem? hindex')
    have hroot := hb.root_unique hu' hu hlinks' hlinks
    -- Roots are distinct, so the same root stands at the same index.
    have hsame : (b.slots.map (·.root))[index']? = (b.slots.map (·.root))[index]? := by
      rw [List.getElem?_map, List.getElem?_map, hindex, hindex']
      exact congrArg some hroot
    have hlt : index' < (b.slots.map (·.root)).length := by
      rw [List.length_map]
      exact (List.getElem?_eq_some_iff.mp hindex').1
    exact (List.getElem?_inj hlt hb.rootsAgree.nodup).mp hsame
  size_eq := by
    refine ⟨_, hb.below_tokens, ?_, ?_, fun id => ?_⟩
    · exact Multiset.coe_nodup.mp (Draft.ids_cells ▸ hb.holds.nodup)
    · rw [size, hb.holds.size_eq, Draft.ids_cells, Multiset.coe_card]
    · rw [hb.contains_iff, ← Multiset.mem_coe, ← Draft.ids_cells, Heap.ids, Multiset.mem_map]
      exact ⟨fun ⟨c, hc⟩ => ⟨(id, c), hc, rfl⟩, fun ⟨⟨_, c⟩, hc, heq⟩ => ⟨c, heq ▸ hc⟩⟩

end Builder.Shows

/-! ### What stands around the trees -/

theorem Repeats.exceeded?_eq_none {r : Repeats} :
    r.exceeded? = none ↔ ∀ max ∈ r.max, r.min ≤ max := by
  rw [← r.isValid_iff, isValid, Option.isNone_iff_eq_none]

theorem Token.exceeded?_of_fault? {t : Token} (h : t.fault? = none) : t.bounds.exceeded? = none := by
  simpa [fault?] using h

namespace Draft

structure MarginsValid (d : Draft) : Prop where
  bounds : ∀ t ∈ d.slots, t.repeats.exceeded? = none
  within : d.within ≠ some []

theorem filter_isEmpty_ne (name : Option Text) : name.filter (!·.isEmpty) ≠ some [] := by
  rcases name with _ | ⟨_ | ⟨c, name⟩⟩ <;> simp [Option.filter]

theorem bounds_ofTokens {s : Settings} {ts : List Token} (hts : ∀ t ∈ ts, t.fault? = none)
    (next : NodeId) : ∀ t ∈ ofTokens s ts next, t.repeats.exceeded? = none := by
  apply forall_ofTokens
  intro t ht next
  exact t.exceeded?_of_fault? (hts t ht)

theorem MarginsValid.ofQuery {s : Settings} {q : Option Query}
    (hq : ∀ query, q = some query → ∀ t ∈ query.tokens, t.fault? = none) :
    (Draft.ofQuery s q).MarginsValid := by
  cases q with
  | none => exact ⟨by simp [Draft.ofQuery, Slot.blank, Slot.ofRoot, Repeats.exceeded?, Repeats.once],
      by simp [Draft.ofQuery]⟩
  | some query => exact ⟨bounds_ofTokens (hq query rfl) 0, filter_isEmpty_ne query.within⟩

theorem Rearranges.bounds {e : Edit} {slots slots' : List (Slot Group)}
    (h : Rearranges e slots slots') (hslots : ∀ t ∈ slots, t.repeats.exceeded? = none) :
    ∀ t ∈ slots', t.repeats.exceeded? = none := by
  have hset : ∀ {index : Nat} {f : Slot Group → Slot Group},
      (∀ t ∈ slots, (f t).repeats.exceeded? = none) → Slot.set slots index f = .ok slots' →
      ∀ t ∈ slots', t.repeats.exceeded? = none := by
    intro index f hf h
    obtain ⟨left, t, right, rfl, -, rfl⟩ := Slot.set_eq_ok.mp h
    simp only [List.forall_mem_append, List.forall_mem_cons] at hslots hf ⊢
    exact ⟨hslots.1, hf.2.1, hslots.2.2⟩
  cases h with
  | moveToken source target _ _ h => exact fun u hu => hslots u ((Slot.move_perm h).mem_iff.mp hu)
  | setMark index mark value _ _ h =>
    exact hset (fun t ht => by cases mark <;> exact hslots t ht) h
  | setRepeats index r _ _ h =>
    obtain ⟨hr, h⟩ := Slot.setRepeats_eq_ok.mp h
    exact hset (fun t _ => hr) h

/-- No edit lets a lower bound exceed the upper one, or has matches lie in a nameless element. -/
theorem Step.marginsValid {s : Settings} {n : NodeId} {e : Edit} {o : Outcome} {d d' : Draft}
    (h : Step s n e o d d') (hd : d.MarginsValid) : d'.MarginsValid := by
  cases h with
  | load e q d hloads hq => exact .ofQuery hq
  | createToken slots within =>
    refine ⟨?_, hd.within⟩
    simp only [List.forall_mem_append, List.forall_mem_singleton]
    exact ⟨hd.bounds, rfl⟩
  | removeToken left t right within =>
    have hbounds := hd.bounds
    simp only [List.forall_mem_append, List.forall_mem_cons] at hbounds
    exact ⟨List.forall_mem_append.mpr ⟨hbounds.1, hbounds.2.2⟩, hd.within⟩
  | rearrange e slots slots' within h => exact ⟨h.bounds hd.bounds, hd.within⟩
  | setWithin name slots within => exact ⟨hd.bounds, filter_isEmpty_ne name⟩
  | reshape e o left t right root within h =>
    have hbounds := hd.bounds
    simp only [List.forall_mem_append, List.forall_mem_cons] at hbounds
    refine ⟨?_, hd.within⟩
    simp only [List.forall_mem_append, List.forall_mem_cons]
    exact hbounds

end Draft

theorem Builder.Shows.marginsValid {b : Builder} {s : Settings} {n : NodeId} {d : Draft}
    (hb : b.Shows s n d) (hd : d.MarginsValid) : b.MarginsValid where
  bounds t ht := by
    obtain ⟨u, hu, rfl⟩ := hb.mem_slots ht
    exact Repeats.exceeded?_eq_none.mp (hd.bounds u hu)
  labels id g hg := by
    obtain ⟨u, hu, k, g', hfill, rfl, rfl⟩ := hb.locate_group hg
    rw [hb.settings_eq]
    rfl
  within name hname := by
    rw [hb.within_eq] at hname
    exact fun hnil => hd.within (hnil ▸ hname)

/-- Whatever is done to a builder, its nodes form one tree for each token. -/
theorem Builder.run_wellFormed (s : Settings) (edits : List Edit) :
    ((Builder.new s).run edits).WellFormed := by
  obtain ⟨n, d, hb, hd⟩ := Builder.run_shows (s := s) (P := Draft.MarginsValid) (Q := fun _ => True)
    (.ofQuery (by simp)) (fun _ _ _ _ _ _ hstep hd => hstep.marginsValid hd) edits (by simp)
  exact ⟨hb.rootsAgree, hb.linksAgree, hb.treesCover, hb.marginsValid hd⟩

end CorpusQuery
