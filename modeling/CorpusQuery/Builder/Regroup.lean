import CorpusQuery.Builder.Arena

/-!
Edits that move nodes about. Each takes several steps, between which children and parents need not
agree; a step that fails leaves what was done before it.
-/

namespace CorpusQuery

abbrev ArenaM (α : Type) := EditM Arena α

namespace ArenaM

open EditM (look peek)

def new (e : Entry) : ArenaM NodeId := fun a => .ok a.next (a.insert e)

def modifyGroup (id : NodeId) (f : GroupCell → GroupCell) : ArenaM Unit := do
  let g ← look (·.group id)
  modify (·.setEntry id (.group (f g)))

def modifyConstraint (id : NodeId) (f : Constraint → Constraint) : ArenaM Unit := do
  let c ← look (·.constraint id)
  modify (·.setEntry id (.leaf (f c)))

/-- The place of `node` among the children of `group`. -/
def childIndex (group node : NodeId) : ArenaM Nat :=
  look fun a => do
    let g ← a.group group
    match g.children.idxOf? node with
    | some index => .ok index
    | none => .error (.notAChild group node)

/-- Takes `child` out of the group that it is in, if any. -/
def detach (child : NodeId) : ArenaM Unit := do
  match ← peek (·.parent? child) with
  | some previous => modifyGroup previous (·.without child)
  | none => return

/-- Puts `child` into `group`, from wherever it is. -/
def attach (group child : NodeId) (index : Option Nat) : ArenaM Unit := do
  let _ ← look (·.group group)
  let _ ← look (·.entry child)
  detach child
  modifyGroup group (·.withChild index child)
  modify (·.setParent child (some group))

/-- Puts nodes into `group`, one behind the other from `index` on. -/
def attachAll (group : NodeId) : List NodeId → Nat → ArenaM Unit
  | [], _ => return
  | child :: rest, index => do
    attach group child (some index)
    attachAll group rest (index + 1)

def appendAll (group : NodeId) : List NodeId → ArenaM Unit
  | [] => return
  | child :: rest => do
    attach group child none
    appendAll group rest

/-- Gives up the cell of a node that its group lists no longer. -/
def drop (group node : NodeId) : ArenaM Unit := do
  modifyGroup group (·.without node)
  modify (·.remove node)

variable (label : Connective → Text)

/-- Changes a group and nothing around it. -/
def retype (id : NodeId) (operator : Connective) : ArenaM Unit :=
  modifyGroup id ({ · with operator, label := label operator })

def newGroup (operator : Connective) : ArenaM NodeId :=
  new (.group ⟨operator, label operator, false, []⟩)

/-- Puts a new group in the place of `child`, and `child` into it together with `beside`. -/
def wrap (group : NodeId) (operator : Connective) (child : NodeId) (index : Nat)
    (beside : NodeId) : ArenaM Unit := do
  let subgroup ← newGroup label operator
  attach group subgroup (some index)
  attach subgroup child none
  attach subgroup beside none

/-- Puts all children of a group into a new one inside it, with `beside` behind that. -/
def pushDown (group : NodeId) (operator : Connective) (beside : NodeId) : ArenaM Unit := do
  let g ← look (·.group group)
  let subgroup ← newGroup label g.operator
  appendAll subgroup g.children
  retype label group operator
  attach group subgroup none
  attach group beside none

/-- The group around a node, if it is joined by `operator`. -/
def parentWith (id : NodeId) (operator : Connective) : ArenaM (Option NodeId) :=
  peek fun a => (a.parent? id).filter (a.isGroupWith · operator)

/-- Joins nodes by an `operator` that is not the one of the group that `origin` or, without it,
`new` is to stand in. -/
def joinApart (group : NodeId) (operator : Connective) (origin : Option (NodeId × Nat))
    (new : NodeId) : ArenaM Unit := do
  match origin with
  | some (child, index) =>
    if ← peek (·.isGroupWith child operator) then attach child new none
    else wrap label group operator child index new
  | none =>
    match ← parentWith group operator with
    | some parent =>
      let index ← childIndex parent group
      attach parent new (some (index + 1))
    | none => pushDown label group operator new

/-- Puts the loose node `new` behind `origin`, a child of the group at the given index, or at the
end of the group without one, and joins it there by `operator`. -/
def join (group : NodeId) (operator : Connective) (origin : Option (NodeId × Nat))
    (new : NodeId) : ArenaM Unit := do
  let g ← look (·.group group)
  if g.children.length ≤ 1 then
    retype label group operator
    attach group new (origin.map (·.2 + 1))
  else if g.operator = operator then
    attach group new (origin.map (·.2 + 1))
  else
    joinApart label group operator origin new

/-- Adds a leaf to a group. -/
def createLeaf (c : Constraint) (group : NodeId) (operator : Connective)
    (origin : Option NodeId) : ArenaM NodeId := do
  let _ ← look (·.group group)
  let origin ← origin.mapM fun child => return (child, ← childIndex group child)
  let leaf ← new (.leaf c)
  join label group operator origin leaf
  return leaf

/-- Lifts a group that is the only child of a root into the root. -/
def absorbOnlySubgroup (root : NodeId) : ArenaM Unit := do
  match (← look (·.group root)).children with
  | [only] =>
    match ← look (·.entry only) with
    | .group subgroup =>
      appendAll root subgroup.children
      drop root only
      retype label root subgroup.operator
    | .leaf _ => return
  | _ => return

/-- Moves a child of the group `id` to `parent`, where it stands at `position`, and gives the next
position. A subgroup that is joined as `parent` is gives way to its own children. -/
def hoist (id parent : NodeId) (around : Connective) (child : NodeId) (position : Nat) :
    ArenaM Nat := do
  match ← look (·.entry child) with
  | .group subgroup =>
    if subgroup.operator = around then
      attachAll parent subgroup.children position
      drop id child
      return position + subgroup.children.length
    else
      attach parent child (some position)
      return position + 1
  | .leaf _ =>
    attach parent child (some position)
    return position + 1

def hoistAll (id parent : NodeId) (around : Connective) : List NodeId → Nat → ArenaM Unit
  | [], _ => return
  | child :: rest, position => do
    let position ← hoist id parent around child position
    hoistAll id parent around rest position

/-- Puts the children of the group `id` in its place inside `parent`. -/
def dissolve (id parent : NodeId) (children : List NodeId) : ArenaM Unit := do
  let index ← childIndex parent id
  let p ← look (·.group parent)
  hoistAll id parent p.operator children index
  drop parent id

/-- Dissolves a group of at most one node, and gives the group to look at next. A root stays and
absorbs a subgroup that is all it holds. -/
def dissolveIfSparse (id : NodeId) : ArenaM (Option NodeId) := do
  let g ← look (·.group id)
  if 1 < g.children.length then return none
  else if g.isRoot then
    absorbOnlySubgroup label id
    return none
  else
    match ← peek (·.parent? id) with
    | none => return none
    | some parent =>
      dissolve id parent g.children
      return some parent

/-- Puts the children of a group in its place. -/
def spliceIntoParent (id : NodeId) : ArenaM Unit := do
  match ← peek (·.parent? id) with
  | none => return
  | some parent =>
    let index ← childIndex parent id
    let g ← look (·.group id)
    attachAll parent g.children index
    drop parent id

def spliceAll : List NodeId → ArenaM Unit
  | [] => return
  | id :: rest => do
    spliceIntoParent id
    spliceAll rest

/-- Merges the subgroups that are joined by `operator` into their group. -/
def spliceSubgroups (id : NodeId) (operator : Connective) : ArenaM Unit := do
  let g ← look (·.group id)
  spliceAll (← peek fun a => g.children.filter (a.isGroupWith · operator))

/-- Merges a group into the one around, if that is joined by `operator`. -/
def spliceInto (id : NodeId) (operator : Connective) : ArenaM Unit := do
  match ← parentWith id operator with
  | some _ => spliceIntoParent id
  | none => return

/-- Merges groups that come to be nested in one with the same connective. -/
def setGroupOperator (id : NodeId) (operator : Connective) : ArenaM Unit := do
  retype label id operator
  spliceSubgroups id operator
  spliceInto id operator

end ArenaM

/-- Gives up nodes and all below them. -/
def Arena.removeAll : List NodeId → Arena → Arena
  | [], a => a
  | id :: pending, a =>
    match _h : a.cell? id with
    | some ⟨_, .group g⟩ => removeAll (g.children.reverse ++ pending) (a.remove id)
    | some ⟨_, .leaf _⟩ => removeAll pending (a.remove id)
    | none => removeAll pending a
termination_by pending a => (a.size, pending.length)
decreasing_by
  · exact Prod.Lex.left _ _ (size_remove_lt (by simp [contains, *]))
  · exact Prod.Lex.left _ _ (size_remove_lt (by simp [contains, *]))
  · exact Prod.Lex.right _ (Nat.lt_succ_self _)

namespace ArenaM

open EditM (look peek bind_eq_ok)

/-! ### Dissolving ends

No step of dissolving takes a cell that was free, and each dissolved group gives its own up. -/

def Shrinks {α : Type} (m : ArenaM α) : Prop :=
  ∀ a x a', m a = .ok x a' → a'.next = a.next ∧ ∀ id, a'.contains id → a.contains id

namespace Shrinks

variable {α β : Type}

theorem pure (x : α) : Shrinks (Pure.pure x : ArenaM α) := by
  intro a y a' h
  cases h
  exact ⟨rfl, fun _ => id⟩

theorem bind {m : ArenaM α} {f : α → ArenaM β} (hm : Shrinks m) (hf : ∀ x, Shrinks (f x)) :
    Shrinks (m >>= f) := by
  intro a y a'' h
  obtain ⟨x, a', hx, hy⟩ := bind_eq_ok.mp h
  have h1 := hm a x a' hx
  have h2 := hf x a' y a'' hy
  exact ⟨h2.1.trans h1.1, fun id hid => h1.2 id (h2.2 id hid)⟩

theorem look (view : Arena → Except BuilderError α) : Shrinks (EditM.look view) := by
  intro a x a' h
  unfold EditM.look at h
  split at h
  · cases h
    exact ⟨rfl, fun _ => id⟩
  · cases h

theorem step {f : Arena → Arena} (hnext : ∀ a, (f a).next = a.next)
    (hf : ∀ a id, (f a).contains id → a.contains id) : Shrinks (modify f : ArenaM Unit) := by
  intro a x a' h
  cases h
  exact ⟨hnext a, hf a⟩

theorem modifyGroup (id : NodeId) (f : GroupCell → GroupCell) :
    Shrinks (ArenaM.modifyGroup id f) :=
  bind (look _) fun _ => step (fun a => a.next_setEntry id _) fun a j h =>
    (a.contains_setEntry id _ j).symm.trans h

theorem detach (child : NodeId) : Shrinks (ArenaM.detach child) := by
  refine bind (look _) fun previous => ?_
  split
  · exact modifyGroup _ _
  · exact pure _

theorem attach (group child : NodeId) (index : Option Nat) :
    Shrinks (ArenaM.attach group child index) :=
  bind (look _) fun _ => bind (look _) fun _ => bind (detach child) fun _ =>
    bind (modifyGroup _ _) fun _ => step (fun a => a.next_setParent child _) fun a j h =>
      (a.contains_setParent child _ j).symm.trans h

theorem attachAll (group : NodeId) (children : List NodeId) (index : Nat) :
    Shrinks (ArenaM.attachAll group children index) := by
  induction children generalizing index with
  | nil => exact pure _
  | cons child rest ih => exact bind (attach _ _ _) fun _ => ih _

theorem drop (group node : NodeId) : Shrinks (ArenaM.drop group node) :=
  bind (modifyGroup _ _) fun _ =>
    step (fun a => a.next_remove node) fun _ _ => Arena.contains_of_contains_remove

theorem hoist (id parent : NodeId) (around : Connective) (child : NodeId) (position : Nat) :
    Shrinks (ArenaM.hoist id parent around child position) := by
  refine bind (look _) fun e => ?_
  split
  · split
    · exact bind (attachAll _ _ _) fun _ => bind (drop _ _) fun _ => pure _
    · exact bind (attach _ _ _) fun _ => pure _
  · exact bind (attach _ _ _) fun _ => pure _

theorem hoistAll (id parent : NodeId) (around : Connective) (children : List NodeId)
    (position : Nat) : Shrinks (ArenaM.hoistAll id parent around children position) := by
  induction children generalizing position with
  | nil => exact pure _
  | cons child rest ih => exact bind (hoist _ _ _ _ _) fun _ => ih _

end Shrinks

theorem dissolve_shrinks (id parent : NodeId) (children : List NodeId) :
    Shrinks (dissolve id parent children) :=
  .bind (.look _) fun _ => .bind (.look _) fun _ => .bind (.hoistAll _ _ _ _ _) fun _ => .drop _ _

theorem not_contains_of_dissolve {id parent : NodeId} {children : List NodeId} {a a' : Arena}
    (h : dissolve id parent children a = .ok () a') : ¬ a'.contains id := by
  obtain ⟨index, a₁, -, h⟩ := bind_eq_ok.mp h
  obtain ⟨p, a₂, -, h⟩ := bind_eq_ok.mp h
  obtain ⟨_, a₃, -, h⟩ := bind_eq_ok.mp h
  obtain ⟨_, a₄, -, h⟩ := bind_eq_ok.mp h
  cases h
  exact Arena.not_contains_remove a₄ id

theorem contains_of_look_group {id : NodeId} {g : GroupCell} {a a' : Arena}
    (h : look (·.group id) a = .ok g a') : a' = a ∧ a.contains id := by
  simp only [look, Arena.group] at h
  unfold Arena.contains
  cases hc : a.cell? id with
  | none => simp [hc] at h
  | some c =>
    rcases c with ⟨p, e | g'⟩
    · simp [hc] at h
    · simp only [hc] at h
      cases h
      exact ⟨rfl, rfl⟩

theorem size_lt_of_dissolveIfSparse {label : Connective → Text} {id parent : NodeId} {a a' : Arena}
    (h : dissolveIfSparse label id a = .ok (some parent) a') : a'.size < a.size := by
  obtain ⟨g, a₁, hg, hrest⟩ := bind_eq_ok.mp h
  obtain ⟨rfl, hid⟩ := contains_of_look_group hg
  split at hrest
  · cases hrest
  split at hrest
  · obtain ⟨_, _, -, hnone⟩ := bind_eq_ok.mp hrest
    cases hnone
  obtain ⟨_, _, hget, hrest⟩ := bind_eq_ok.mp hrest
  cases hget
  cases hp : a₁.parent? id with
  | none =>
    simp only [hp] at hrest
    cases hrest
  | some around =>
    simp only [hp] at hrest
    obtain ⟨_, a₂, hd, hret⟩ := bind_eq_ok.mp hrest
    cases hret
    obtain ⟨hnext, hle⟩ := dissolve_shrinks _ _ _ _ _ _ hd
    exact Arena.size_lt_size hnext hle hid (not_contains_of_dissolve hd)

/-- Dissolves a sparse group, then the group around it if that has become sparse, and so on. -/
def dissolveUp (label : Connective → Text) (id : NodeId) (a : Arena) :
    EStateM.Result BuilderError Arena Unit :=
  match _h : dissolveIfSparse label id a with
  | .ok (some parent) a' => dissolveUp label parent a'
  | .ok none a' => .ok () a'
  | .error e a' => .error e a'
termination_by a.size
decreasing_by exact size_lt_of_dissolveIfSparse ‹_›

/-- Takes a node out of its group with all below it, and sees to the groups around. -/
def removeChild (label : Connective → Text) (group node : NodeId) : ArenaM Unit := do
  modifyGroup group (·.without node)
  modify (Arena.removeAll [node])
  dissolveUp label group

def removeNode (label : Connective → Text) (id : NodeId) : ArenaM Unit := do
  match ← look (·.entry id) with
  | .group ⟨_, _, true, _⟩ => throw (.rootRemoval id)
  | _ =>
    match ← peek (·.parent? id) with
    | some parent => removeChild label parent id
    | none => modify (Arena.removeAll [id])

end ArenaM

end CorpusQuery
