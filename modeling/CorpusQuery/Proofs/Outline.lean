import CorpusQuery.Proofs.Cql
import CorpusQuery.Proofs.Lines

/-!
Reading a builder. Whatever is read off it goes down from each group to the nodes that the group
lists; that never fails and comes to an end, and the outline shows each node once, on a line of its
own that is indented by the depth of the node.
-/

namespace CorpusQuery

/-- The part of a node line that is not of the outline's own making, nor in quotes. -/
def Entry.caption : Entry → Text
  | .leaf c => c.name
  | .group g => g.label

namespace Builder

/-- The group `parent` has `child` among its children. -/
def Lists (b : Builder) (child parent : NodeId) : Prop :=
  ∃ g, b.group parent = .ok g ∧ child ∈ g.children

/-- How far below its token a node stands, counted along the parents. -/
inductive Depth (b : Builder) : NodeId → Nat → Prop where
  | root (t : Slot NodeId) (ht : t ∈ b.slots) : Depth b t.root 1
  | child (id parent : NodeId) (level : Nat) (hparent : b.parent? id = some parent)
      (h : Depth b parent level) : Depth b id (level + 1)

/-- What an outline writes at a time, with the node that this shows, if it shows one. A node line is
what is written for a node; the others stand in front of the nodes of a token and behind all
tokens. -/
inductive Writes (b : Builder) : Option NodeId → Text → Prop where
  | group (id : NodeId) (level : Nat) (g : GroupCell) (hdepth : b.Depth id level)
      (hgroup : b.group id = .ok g) :
    Writes b (some id)
      (nodeLine level ((if g.isRoot then "root ".toList else "group ".toList) ++ g.label) id)
  | constraint (id : NodeId) (level : Nat) (c : Constraint) (hdepth : b.Depth id level)
      (hconstraint : b.constraint id = .ok c) :
    Writes b (some id)
      (nodeLine level (c.name ++ [' '] ++ c.comparator.symbol ++ [' '] ++
        Text.quotedList c.regexes ++
        if c.caseSensitive then " (case sensitive)".toList else []) id)
  | token (index : Nat) (cql : Text) (hcql : b.tokenCql index = .ok cql) :
    Writes b none ("token ".toList ++ Text.decimal (index + 1) ++ [' '] ++ cql ++ ['\n'])
  | remarks (t : Slot NodeId) (ht : t ∈ b.slots) (hremarks : t.remarks ≠ []) :
    Writes b none ([' ', ' ', '('] ++ [',', ' '].intercalate t.remarks ++ [')', '\n'])
  | within (name : Text) (hwithin : b.within = some name) :
    Writes b none ("within ".toList ++ name ++ ['\n'])

/-- The node lines show each node once, token by token and each group before what it holds. -/
structure Outlines (b : Builder) (lines : List OutlineLine) : Prop where
  preorder : ∃ trees, b.slots.mapM (fun t => b.arena.below t.root) = .ok trees ∧
    lines.filterMap (·.id) = trees.flatten
  nodup : (lines.filterMap (·.id)).Nodup
  contains_iff : ∀ id, b.contains id ↔ id ∈ lines.filterMap (·.id)
  size_eq : (lines.filterMap (·.id)).length = b.size
  writes : ∀ l ∈ lines, b.Writes l.id l.render
  depth_unique : ∀ id level level', b.Depth id level → b.Depth id level' → level = level'
  /-- A line feed ends a node line. There are more of them only in the name of an attribute or in
  the label of a connective. -/
  count_breaks : ∀ l ∈ lines, ∀ id ∈ l.id, ∀ e, b.node id = .ok e →
    l.render.count '\n' = e.caption.count '\n' + 1
  /-- Where no line has more line feeds than the one at its end, these are the lines of the text. -/
  cut : (∀ l ∈ lines, l.render.count '\n' = 1) →
    Text.lines (lines.flatMap OutlineLine.render) = lines.map (·.render.dropLast) ++ [[]]

/-- Nothing that is read off the builder fails. -/
structure Readable (b : Builder) : Prop where
  /-- From group to child there is no way to go on for ever. -/
  ends : WellFounded b.Lists
  /-- A group is read by reading its children, as they stand in the builder. -/
  fold_group : ∀ {α : Type} (leaf : NodeId → Constraint → α)
    (group : NodeId → GroupCell → List α → α) id g, b.group id = .ok g →
    b.arena.fold leaf group id = (g.children.mapM (b.arena.fold leaf group)).map (group id g)
  nodeCql : ∀ id, b.contains id → ∃ cql, b.nodeCql id = .ok cql
  tokenCql : ∀ index < b.slots.length, ∃ cql, b.tokenCql index = .ok cql
  cql? : ∃ cql, b.cql? = .ok cql ∧ (cql = none ↔ b.slots = [])
  outline : ∃ lines, b.outline = .ok (lines.flatMap OutlineLine.render) ∧ b.Outlines lines

end Builder

/-! ### Reading from any node -/

theorem Arena.Holds.parent? {a : Arena} {n id : NodeId} {parent : Option NodeId} {e : Entry}
    {h : Heap} (ha : a.Holds n ({(id, ⟨parent, e⟩)} + h)) : a.parent? id = parent := by
  rw [Arena.parent?, ha.cell?, Option.bind_some]

theorem Context.cells_fill_children (label : Connective → Text) (k : Context) (g : Group) : ∃ h,
    (k.fill g).cells label = Node.cellsAll label (some g.id) g.children + h :=
  ⟨{(g.id, ⟨k.parent?, .group (g.cell label k.isRoot)⟩)} + k.rest label g.id, by
    rw [cells_fill, Group.placed]
    abel⟩

namespace Builder.Shows

variable {b : Builder} {s : Settings} {n : NodeId} {d : Draft}

theorem fold_group (hb : b.Shows s n d) {α : Type} (leaf : NodeId → Constraint → α)
    (group : NodeId → GroupCell → List α → α) {id : NodeId} {g : GroupCell}
    (hg : b.group id = .ok g) : ∃ parts, g.children.mapM (b.arena.fold leaf group) = .ok parts ∧
      b.arena.fold leaf group id = .ok (group id g parts) := by
  obtain ⟨t, ht, k, g', hroot, rfl, rfl⟩ := hb.locate_group hg
  obtain ⟨h, ha⟩ := hb.holds_token ht
  rw [hroot] at ha
  refine ⟨Node.foldAll s.operatorLabel leaf group g'.children, ?_, ?_⟩
  -- The recursion goes on without the group; with it in place the children read the same.
  · obtain ⟨around, hcells⟩ := k.cells_fill_children s.operatorLabel g'
    exact Node.arena_foldAll _ leaf group g'.children (some g'.id) (around + h) _
      (ha.reorder (by rw [hcells, add_assoc]))
  · rw [Context.cells_fill, add_assoc] at ha
    exact g'.arena_fold_placed s.operatorLabel leaf group ha

/-- Whatever is there can be read. -/
theorem exists_fold (hb : b.Shows s n d) {α : Type} (leaf : NodeId → Constraint → α)
    (group : NodeId → GroupCell → List α → α) {id : NodeId} (hid : b.contains id) :
    ∃ x, b.arena.fold leaf group id = .ok x := by
  obtain ⟨⟨parent, c | g⟩, hcell⟩ := Option.isSome_iff_exists.mp hid
  · exact ⟨leaf id c, by rw [Arena.fold, hcell]⟩
  · obtain ⟨parts, -, hfold⟩ := hb.fold_group leaf group (Arena.group_eq_ok.mpr ⟨parent, hcell⟩)
    exact ⟨_, hfold⟩

end Builder.Shows

/-- A list is gone through to the end where nothing in it fails. What a second reader sees of the
list is what it sees of the results. -/
theorem Except.exists_mapM_eq_ok {ε α β γ : Type} {f : α → Except ε β} {g : α → Except ε γ}
    {view : β → γ} {P : β → Prop} {xs : List α}
    (h : ∀ x ∈ xs, ∃ y, f x = .ok y ∧ g x = .ok (view y) ∧ P y) :
    ∃ ys, xs.mapM f = .ok ys ∧ xs.mapM g = .ok (ys.map view) ∧ ∀ y ∈ ys, P y := by
  induction xs with
  | nil => exact ⟨[], rfl, rfl, by simp⟩
  | cons x rest ih =>
    rw [List.forall_mem_cons] at h
    obtain ⟨y, hf, hg, hy⟩ := h.1
    obtain ⟨ys, hfs, hgs, hys⟩ := ih h.2
    refine ⟨y :: ys, ?_, ?_, List.forall_mem_cons.mpr ⟨hy, hys⟩⟩
    · rw [List.mapM_cons, hf, hfs]
      rfl
    · rw [List.mapM_cons, hg, hgs]
      rfl

theorem Except.exists_of_mapM {ε α β : Type} {f : α → Except ε β} {xs : List α} {ys : List β}
    (h : xs.mapM f = .ok ys) {x : α} (hx : x ∈ xs) : ∃ y ∈ ys, f x = .ok y := by
  induction xs generalizing ys with
  | nil => cases hx
  | cons first rest ih =>
    rw [List.mapM_cons] at h
    cases hfirst : f first with
    | error e =>
      rw [hfirst] at h
      cases h
    | ok y =>
      cases hrest : rest.mapM f with
      | error e =>
        rw [hfirst, hrest] at h
        cases h
      | ok ys' =>
        rw [hfirst, hrest] at h
        cases h
        rcases List.mem_cons.mp hx with rfl | hmem
        · exact ⟨y, List.mem_cons_self, hfirst⟩
        · obtain ⟨z, hz, heq⟩ := ih hrest hmem
          exact ⟨z, List.mem_cons_of_mem y hz, heq⟩

namespace Builder

/-- The number of nodes from a node downwards. -/
def weight (b : Builder) (id : NodeId) : Nat :=
  match b.arena.below id with
  | .ok ids => ids.length
  | .error _ => 0

namespace Shows

variable {b : Builder} {s : Settings} {n : NodeId} {d : Draft}

/-- A child has fewer nodes below it than its group. -/
theorem weight_lt (hb : b.Shows s n d) {child parent : NodeId} (h : b.Lists child parent) :
    b.weight child < b.weight parent := by
  obtain ⟨g, hg, hchild⟩ := h
  obtain ⟨parts, hparts, hparent⟩ := hb.fold_group (fun id _ => [id])
    (fun id _ parts => id :: parts.flatten) hg
  obtain ⟨part, hmem, hpart⟩ := Except.exists_of_mapM hparts hchild
  have hparent' : b.arena.below parent = .ok (parent :: parts.flatten) := hparent
  have hchild' : b.arena.below child = .ok part := hpart
  simp only [weight, hparent', hchild', List.length_cons]
  exact Nat.lt_succ_of_le (List.sublist_flatten_of_mem hmem).length_le

theorem wellFounded_lists (hb : b.Shows s n d) : WellFounded b.Lists :=
  Subrelation.wf hb.weight_lt (InvImage.wf b.weight Nat.lt_wfRel.wf)

end Shows

end Builder

/-! ### The outline -/

def Constraint.lines (id : NodeId) (c : Constraint) (level : Nat) : List OutlineLine :=
  [⟨level, c.summary, some id⟩]

def GroupCell.lines (id : NodeId) (g : GroupCell) (parts : List (Nat → List OutlineLine))
    (level : Nat) : List OutlineLine :=
  ⟨level, g.summary, some id⟩ :: parts.flatMap fun lines => lines (level + 1)

namespace Node

variable (label : Connective → Text)

mutual

/-- The lines of a tree show its nodes, each before those below it. -/
theorem ids_lines : (m : Node) → (level : Nat) →
    (m.fold label Constraint.lines GroupCell.lines level).filterMap (·.id) = m.ids
  | .leaf _ _, _ => rfl
  | .group id operator children, level => by
    rw [fold, GroupCell.lines, List.filterMap_cons, ids_linesAll children, ids]

theorem ids_linesAll : (ms : List Node) → (level : Nat) →
    ((foldAll label Constraint.lines GroupCell.lines ms).flatMap fun lines =>
      lines level).filterMap (·.id) = idsAll ms
  | [], _ => rfl
  | m :: rest, level => by
    rw [foldAll, List.flatMap_cons, List.filterMap_append, ids_lines m, ids_linesAll rest, idsAll]

end

end Node

namespace Group

/-- The lines of a whole tree. -/
def lines (label : Connective → Text) (g : Group) : List OutlineLine :=
  g.fold label Constraint.lines GroupCell.lines 1

theorem ids_lines (label : Connective → Text) (g : Group) :
    (g.lines label).filterMap (·.id) = g.node.ids := by
  rw [lines, fold, GroupCell.lines, List.filterMap_cons, Node.ids_linesAll, node, Node.ids]

end Group

namespace Builder

variable {b : Builder} {n : NodeId} {label : Connective → Text}

theorem writes_leaf {parent : Option NodeId} {c : Constraint} {level : Nat} {h : Heap} {id : NodeId}
    (ha : b.arena.Holds n ({(id, ⟨parent, .leaf c⟩)} + h)) (hdepth : b.Depth id level) :
    b.Writes (some id) (OutlineLine.render ⟨level, c.summary, some id⟩) := by
  rw [OutlineLine.render_some]
  exact .constraint id level c hdepth (Arena.constraint_eq_ok.mpr ⟨parent, ha.cell?⟩)

theorem writes_group {parent : Option NodeId} {g : GroupCell} {level : Nat} {h : Heap} {id : NodeId}
    (ha : b.arena.Holds n ({(id, ⟨parent, .group g⟩)} + h)) (hdepth : b.Depth id level) :
    b.Writes (some id) (OutlineLine.render ⟨level, g.summary, some id⟩) := by
  rw [OutlineLine.render_some]
  exact .group id level g hdepth (Arena.group_eq_ok.mpr ⟨parent, ha.cell?⟩)

theorem Writes.count_breaks {id : NodeId} {line : Text} {e : Entry} (h : b.Writes (some id) line)
    (he : b.node id = .ok e) : line.count '\n' = e.caption.count '\n' + 1 := by
  obtain ⟨parent, hcell⟩ := Arena.entry_eq_ok.mp he
  cases h with
  | group _ level g hdepth hgroup =>
    obtain ⟨parent', hcell'⟩ := Arena.group_eq_ok.mp hgroup
    rw [hcell] at hcell'
    cases hcell'
    rw [count_nodeLine, Entry.caption, ← g.count_summary]
    rfl
  | constraint _ level c hdepth hconstraint =>
    obtain ⟨parent', hcell'⟩ := Arena.constraint_eq_ok.mp hconstraint
    rw [hcell] at hcell'
    cases hcell'
    rw [count_nodeLine, Entry.caption, ← c.count_summary]
    rfl

/-- No root has a parent, so that each way up from a node is as long as any other. -/
theorem Depth.unique (hroots : ∀ t ∈ b.slots, b.parent? t.root = none) {id : NodeId}
    {level level' : Nat} (h : b.Depth id level) (h' : b.Depth id level') : level = level' := by
  induction h generalizing level' with
  | root t ht =>
    generalize hid : t.root = id at h'
    cases h' with
    | root => rfl
    | child _ parent level hparent =>
      rw [← hid, hroots t ht] at hparent
      cases hparent
  | child id parent level hparent h ih =>
    cases h' with
    | root t ht =>
      rw [hroots t ht] at hparent
      cases hparent
    | child _ parent' level' hparent' h' =>
      rw [hparent] at hparent'
      cases hparent'
      rw [ih h']

mutual

theorem writes_lines : (m : Node) → (parent : NodeId) → (level : Nat) → (h : Heap) →
    b.arena.Holds n (m.cells label (some parent) + h) → b.Depth parent level →
    ∀ l ∈ m.fold label Constraint.lines GroupCell.lines (level + 1), b.Writes l.id l.render
  | .leaf id c, parent, level, h, ha, hdepth => by
    have hlink : b.parent? id = some parent := ha.parent?
    intro l hl
    obtain rfl := List.mem_singleton.mp hl
    exact writes_leaf ha (.child id parent level hlink hdepth)
  | .group id operator children, parent, level, h, ha, hdepth => by
    rw [Node.cells, add_assoc] at ha
    have hlink : b.parent? id = some parent := ha.parent?
    have hid : b.Depth id (level + 1) := .child id parent level hlink hdepth
    rw [Node.fold, GroupCell.lines, List.forall_mem_cons]
    exact ⟨writes_group ha hid, writes_linesAll children id (level + 1) _
      (ha.reorder (add_left_comm ..)) hid⟩

theorem writes_linesAll : (ms : List Node) → (parent : NodeId) → (level : Nat) → (h : Heap) →
    b.arena.Holds n (Node.cellsAll label (some parent) ms + h) → b.Depth parent level →
    ∀ l ∈ (Node.foldAll label Constraint.lines GroupCell.lines ms).flatMap
      fun lines => lines (level + 1), b.Writes l.id l.render
  | [], _, _, _, _, _ => by simp [Node.foldAll]
  | m :: rest, parent, level, h, ha, hdepth => by
    rw [Node.cellsAll_cons, add_assoc] at ha
    rw [Node.foldAll, List.flatMap_cons, List.forall_mem_append]
    exact ⟨writes_lines m parent level _ ha hdepth,
      writes_linesAll rest parent level _ (ha.reorder (add_left_comm ..)) hdepth⟩

end

theorem writes_groupLines (g : Group) {h : Heap} (ha : b.arena.Holds n (g.cells label + h))
    (hdepth : b.Depth g.id 1) : ∀ l ∈ g.lines label, b.Writes l.id l.render := by
  rw [Group.cells, Group.placed, add_assoc] at ha
  rw [Group.lines, Group.fold, GroupCell.lines, List.forall_mem_cons]
  exact ⟨writes_group ha hdepth,
    writes_linesAll g.children _ 1 _ (ha.reorder (add_left_comm ..)) hdepth⟩

/-- Lines around the nodes. -/
def Margin (b : Builder) (lines : List OutlineLine) : Prop :=
  ∀ l ∈ lines, l.id = none ∧ b.Writes none l.render

theorem Margin.ids_eq {lines : List OutlineLine} (h : b.Margin lines) :
    lines.filterMap (·.id) = [] :=
  List.filterMap_eq_nil_iff.mpr fun l hl => (h l hl).1

theorem Margin.writes {lines : List OutlineLine} (h : b.Margin lines) :
    ∀ l ∈ lines, b.Writes l.id l.render := by
  intro l hl
  rw [(h l hl).1]
  exact (h l hl).2

/-- What stands above the nodes of a token. -/
theorem exists_slotHead {index : Nat} {t : Slot NodeId} {cql : Text}
    (ht : b.slots[index]? = some t) (hcql : b.slotCql t = .ok cql) :
    ∃ head, b.Margin head ∧ ∀ lines, b.arena.lines t.root = .ok lines →
      b.slotLines (index + 1) t = .ok (head ++ lines 1) := by
  have htoken : b.tokenCql index = .ok cql := by
    rw [tokenCql, token, Slot.get, ht]
    exact hcql
  refine ⟨_, ?_, fun lines hlines => by rw [slotLines, hcql, hlines]; rfl⟩
  rw [Margin, List.forall_mem_cons]
  refine ⟨⟨rfl, ?_⟩, ?_⟩
  · rw [OutlineLine.render_none]
    exact .token index cql htoken
  · split
    next => simp
    next hremarks =>
      rw [List.forall_mem_singleton, OutlineLine.render_none]
      have hwrites := Writes.remarks t (List.mem_of_getElem? ht) (by simpa using hremarks)
      exact ⟨rfl, by simpa using hwrites⟩

/-- What stands below all tokens. -/
theorem exists_linesBehind {tokens : List (List OutlineLine)}
    (htokens : (b.slots.zipIdx 1).mapM (fun p => b.slotLines p.2 p.1) = .ok tokens) :
    ∃ behind, b.Margin behind ∧ b.lines = .ok (tokens.flatten ++ behind) := by
  refine ⟨_, ?_, congrArg (Except.map _) htokens⟩
  split
  next name hname =>
    rw [Margin, List.forall_mem_singleton, OutlineLine.render_none]
    exact ⟨rfl, .within name hname⟩
  next => simp [Margin]

namespace Shows

variable {s : Settings} {d : Draft}

/-- The lines of a token show its tree. -/
theorem exists_slotLines (hb : b.Shows s n d) {index : Nat} {t : Slot NodeId}
    (ht : b.slots[index]? = some t) :
    ∃ lines, b.slotLines (index + 1) t = .ok lines ∧
      b.arena.below t.root = .ok (lines.filterMap (·.id)) ∧
      ∀ l ∈ lines, b.Writes l.id l.render := by
  have hmem : t ∈ b.slots := List.mem_of_getElem? ht
  obtain ⟨u, hu, rfl⟩ := hb.mem_slots hmem
  obtain ⟨h, ha⟩ := hb.holds_token hu
  obtain ⟨head, hhead, hlines⟩ := exists_slotHead ht (hb.slotCql_eq hu)
  have htree := u.root.arena_fold s.operatorLabel Constraint.lines GroupCell.lines ha
  refine ⟨head ++ u.root.lines s.operatorLabel, hlines _ htree, ?_, ?_⟩
  · rw [List.filterMap_append, hhead.ids_eq, List.nil_append, Group.ids_lines]
    exact u.root.arena_below s.operatorLabel ha
  · rw [List.forall_mem_append]
    exact ⟨hhead.writes, writes_groupLines u.root ha (.root (u.mapRoot Group.id) hmem)⟩

/-- Token by token the lines show the trees. -/
theorem exists_lines (hb : b.Shows s n d) : ∃ lines trees, b.lines = .ok lines ∧
    b.slots.mapM (fun t => b.arena.below t.root) = .ok trees ∧
    lines.filterMap (·.id) = trees.flatten ∧ ∀ l ∈ lines, b.Writes l.id l.render := by
  have hslots : ∀ p ∈ b.slots.zipIdx 1, ∃ lines, b.slotLines p.2 p.1 = .ok lines ∧
      b.arena.below p.1.root = .ok (lines.filterMap (·.id)) ∧
      ∀ l ∈ lines, b.Writes l.id l.render := by
    rintro ⟨t, number⟩ hp
    obtain ⟨hle, ht⟩ := List.mem_zipIdx_iff_le_and_getElem?_sub.mp hp
    obtain ⟨index, rfl⟩ := Nat.exists_eq_add_of_le' hle
    exact hb.exists_slotLines ht
  obtain ⟨tokens, htokens, hbelow, hwrites⟩ := Except.exists_mapM_eq_ok hslots
  obtain ⟨behind, hbehind, hlines⟩ := exists_linesBehind htokens
  refine ⟨_, tokens.map fun lines => lines.filterMap (·.id), hlines, ?_, ?_, ?_⟩
  · rw [← List.zipIdx_map_fst 1 b.slots, List.mapM_map]
    exact hbelow
  · rw [List.filterMap_append, hbehind.ids_eq, List.append_nil, List.filterMap_flatten]
  · rw [List.forall_mem_append]
    refine ⟨fun l hl => ?_, hbehind.writes⟩
    obtain ⟨token, htoken, hmem⟩ := List.mem_flatten.mp hl
    exact hwrites token htoken l hmem

theorem parent?_root (hb : b.Shows s n d) : ∀ t ∈ b.slots, b.parent? t.root = none := by
  intro t ht
  obtain ⟨g, -, -, hparent⟩ := hb.rootsAgree.live t ht
  exact hparent

theorem exists_outlines (hb : b.Shows s n d) : ∃ lines, b.lines = .ok lines ∧ b.Outlines lines := by
  obtain ⟨lines, trees, hlines, htrees, hids, hwrites⟩ := hb.exists_lines
  obtain ⟨trees', htrees', hnodup, hsize, hcontains⟩ := hb.treesCover.size_eq
  obtain rfl := Except.ok.inj (htrees'.symm.trans htrees)
  rw [← hids] at hnodup hsize hcontains
  exact ⟨lines, hlines, {
    preorder := ⟨_, htrees, hids⟩
    nodup := hnodup
    contains_iff := hcontains
    size_eq := hsize.symm
    writes := hwrites
    depth_unique := fun id level level' h h' => h.unique hb.parent?_root h'
    count_breaks := by
      intro l hl id hid e he
      have hline := hwrites l hl
      rw [Option.mem_def.mp hid] at hline
      exact hline.count_breaks he
    cut := OutlineLine.lines_render }⟩

/-- The text is missing only where there is nothing to write. -/
theorem exists_cql? (hb : b.Shows s n d) :
    ∃ cql, b.cql? = .ok cql ∧ (cql = none ↔ b.slots = []) := by
  by_cases hnil : d.slots = []
  · have hslots : b.slots = [] := by rw [hb.slots_eq, hnil, List.map_nil]
    exact ⟨none, by rw [cql?, hslots]; rfl, by simp [hslots]⟩
  · have hslots : b.slots ≠ [] := by simpa [hb.slots_eq] using hnil
    exact ⟨_, hb.cql?_eq hnil, by simp [hslots]⟩

theorem exists_tokenCql (hb : b.Shows s n d) {index : Nat} (hindex : index < b.slots.length) :
    ∃ cql, b.tokenCql index = .ok cql := by
  have hmem : b.slots[index] ∈ b.slots := List.getElem_mem hindex
  obtain ⟨u, hu, heq⟩ := hb.mem_slots hmem
  have hget : b.token index = .ok (u.mapRoot Group.id) := by
    rw [token, Slot.get, List.getElem?_eq_getElem hindex, heq]
  refine ⟨(u.mapRoot Group.term?).text, ?_⟩
  rw [tokenCql, hget]
  exact hb.slotCql_eq hu

theorem readable (hb : b.Shows s n d) : b.Readable where
  ends := hb.wellFounded_lists
  fold_group leaf group id g hg := by
    obtain ⟨parts, hparts, hfold⟩ := hb.fold_group leaf group hg
    rw [hparts, hfold]
    rfl
  nodeCql id hid := hb.exists_fold _ _ hid
  tokenCql index hindex := hb.exists_tokenCql hindex
  cql? := hb.exists_cql?
  outline := by
    obtain ⟨lines, hlines, houtlines⟩ := hb.exists_outlines
    exact ⟨lines, by rw [outline, hlines]; rfl, houtlines⟩

end Shows

/-- Whatever a builder has been through, it can be read, and nothing in it is missed. -/
theorem run_readable (s : Settings) (edits : List Edit) : ((Builder.new s).run edits).Readable := by
  obtain ⟨n, d, hb⟩ := exists_shows_run s edits
  exact hb.readable

end Builder

end CorpusQuery
