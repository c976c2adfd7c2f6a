import CorpusQuery.Builder.Constraint
import CorpusQuery.Builder.Error

/-!
Nodes in numbered cells. A group lists its children by number, and a node names the group that it
is in; nothing here keeps the two in agreement but the edits.
-/

namespace CorpusQuery

structure GroupCell where
  operator : Connective
  label : Text
  /-- Stands at the root of a token. -/
  isRoot : Bool
  children : List NodeId
deriving DecidableEq, Repr

namespace GroupCell

def without (g : GroupCell) (id : NodeId) : GroupCell :=
  { g with children := g.children.filter (· != id) }

/-- With one more child, at the end where no index is given or where it lies beyond the end. -/
def withChild (g : GroupCell) (index : Option Nat) (id : NodeId) : GroupCell :=
  let place := match index with
    | some index => min index g.children.length
    | none => g.children.length
  { g with children := g.children.insertIdx place id }

end GroupCell

inductive Entry where
  | leaf (constraint : Constraint)
  | group (group : GroupCell)
deriving DecidableEq, Repr

structure Cell where
  parent : Option NodeId
  entry : Entry
deriving DecidableEq, Repr

/-- The cell of a node that is gone stays empty and is not used again. -/
structure Arena where
  cells : List (Option Cell)
deriving DecidableEq, Repr

namespace Arena

def empty : Arena := ⟨[]⟩

/-- The number of the next new node. -/
def next (a : Arena) : NodeId := a.cells.length

def cell? (a : Arena) (id : NodeId) : Option Cell := a.cells[id]?.join

def contains (a : Arena) (id : NodeId) : Bool := (a.cell? id).isSome

/-- The number of nodes. -/
def size (a : Arena) : Nat := a.cells.countP (·.isSome)

def entry (a : Arena) (id : NodeId) : Except BuilderError Entry :=
  match a.cell? id with
  | some c => .ok c.entry
  | none => .error (.unknownNode id)

def group (a : Arena) (id : NodeId) : Except BuilderError GroupCell :=
  match a.cell? id with
  | some ⟨_, .group g⟩ => .ok g
  | some ⟨_, .leaf _⟩ => .error (.notAGroup id)
  | none => .error (.unknownNode id)

def constraint (a : Arena) (id : NodeId) : Except BuilderError Constraint :=
  match a.cell? id with
  | some ⟨_, .leaf c⟩ => .ok c
  | some ⟨_, .group _⟩ => .error (.notAConstraint id)
  | none => .error (.unknownNode id)

theorem entry_eq_ok {a : Arena} {id : NodeId} {e : Entry} :
    a.entry id = .ok e ↔ ∃ parent, a.cell? id = some ⟨parent, e⟩ := by
  unfold entry
  rcases a.cell? id with _ | ⟨parent, e'⟩ <;> simp

theorem group_eq_ok {a : Arena} {id : NodeId} {g : GroupCell} :
    a.group id = .ok g ↔ ∃ parent, a.cell? id = some ⟨parent, .group g⟩ := by
  unfold group
  rcases a.cell? id with _ | ⟨parent, c | g'⟩ <;> simp

theorem constraint_eq_ok {a : Arena} {id : NodeId} {c : Constraint} :
    a.constraint id = .ok c ↔ ∃ parent, a.cell? id = some ⟨parent, .leaf c⟩ := by
  unfold constraint
  rcases a.cell? id with _ | ⟨parent, c' | g⟩ <;> simp

/-- The group that a node names as its own. -/
def parent? (a : Arena) (id : NodeId) : Option NodeId := (a.cell? id).bind (·.parent)

def isGroupWith (a : Arena) (id : NodeId) (operator : Connective) : Bool :=
  match a.cell? id with
  | some ⟨_, .group g⟩ => g.operator == operator
  | _ => false

def insert (a : Arena) (e : Entry) : Arena := ⟨a.cells ++ [some ⟨none, e⟩]⟩

def setCell (a : Arena) (id : NodeId) (c : Cell) : Arena := ⟨a.cells.set id (some c)⟩

def remove (a : Arena) (id : NodeId) : Arena := ⟨a.cells.set id none⟩

def setEntry (a : Arena) (id : NodeId) (e : Entry) : Arena :=
  match a.cell? id with
  | some c => a.setCell id { c with entry := e }
  | none => a

def setParent (a : Arena) (id : NodeId) (parent : Option NodeId) : Arena :=
  match a.cell? id with
  | some c => a.setCell id { c with parent }
  | none => a

/-! ### What an arena holds after a change -/

theorem lt_next_of_contains {a : Arena} {id : NodeId} (h : a.contains id) : id < a.next := by
  refine Nat.lt_of_not_le fun hge => ?_
  simp [contains, cell?, List.getElem?_eq_none hge] at h

theorem cell?_insert (a : Arena) (e : Entry) (j : NodeId) :
    (a.insert e).cell? j = if j = a.next then some ⟨none, e⟩ else a.cell? j := by
  unfold insert next cell?
  rw [List.getElem?_append]
  split
  next hlt => rw [if_neg (Nat.ne_of_lt hlt)]
  next hge =>
    split
    next heq => simp [heq]
    next hne =>
      have hpos : j - a.cells.length ≠ 0 := by
        have hne' : j ≠ a.cells.length := hne
        exact Nat.sub_ne_zero_of_lt (Nat.lt_of_le_of_ne (Nat.le_of_not_lt hge) hne'.symm)
      rw [List.getElem?_eq_none (Nat.le_of_not_lt hge),
        List.getElem?_eq_none (l := [some (Cell.mk none e)]) (Nat.pos_of_ne_zero hpos)]

theorem cell?_setCell {a : Arena} {id : NodeId} (h : a.contains id) (c : Cell) (j : NodeId) :
    (a.setCell id c).cell? j = if j = id then some c else a.cell? j := by
  have hlt : id < a.cells.length := lt_next_of_contains h
  unfold setCell cell?
  rw [List.getElem?_set]
  split
  next heq =>
    rw [if_pos heq.symm]
    rfl
  next hne => rw [if_neg (Ne.symm hne)]

theorem cell?_remove (a : Arena) (id j : NodeId) :
    (a.remove id).cell? j = if j = id then none else a.cell? j := by
  unfold remove cell?
  rw [List.getElem?_set]
  split
  next heq =>
    rw [if_pos heq.symm]
    split <;> rfl
  next hne => rw [if_neg (Ne.symm hne)]

theorem contains_setCell {a : Arena} {id : NodeId} (h : a.contains id) (c : Cell) (j : NodeId) :
    (a.setCell id c).contains j = a.contains j := by
  unfold contains
  rw [cell?_setCell h]
  split
  next heq =>
    subst heq
    exact h.symm
  next => rfl

theorem contains_setEntry (a : Arena) (id : NodeId) (e : Entry) (j : NodeId) :
    (a.setEntry id e).contains j = a.contains j := by
  unfold setEntry
  split
  · exact contains_setCell (by simp [contains, *]) _ j
  · rfl

theorem contains_setParent (a : Arena) (id : NodeId) (parent : Option NodeId) (j : NodeId) :
    (a.setParent id parent).contains j = a.contains j := by
  unfold setParent
  split
  · exact contains_setCell (by simp [contains, *]) _ j
  · rfl

theorem not_contains_remove (a : Arena) (id : NodeId) : ¬ (a.remove id).contains id := by
  simp [contains, cell?_remove]

theorem contains_of_contains_remove {a : Arena} {id j : NodeId} (h : (a.remove id).contains j) :
    a.contains j := by
  unfold contains at h ⊢
  rw [cell?_remove] at h
  split at h
  · cases h
  · exact h

/-- Nodes that are all among others, of which one is missing, are fewer. -/
theorem countP_lt_countP {α : Type} {p q : α → Bool} {l : List α} (hle : ∀ x, p x → q x) {x : α}
    (hx : x ∈ l) (hq : q x) (hp : ¬ p x) : l.countP p < l.countP q := by
  induction l with
  | nil => simp at hx
  | cons y l ih =>
    have hmono : l.countP p ≤ l.countP q := List.countP_mono_left fun z _ => hle z
    rw [List.countP_cons, List.countP_cons]
    rcases List.mem_cons.mp hx with rfl | hmem
    · rw [if_pos hq, if_neg hp]
      omega
    · have hy : (if p y then 1 else 0) ≤ if q y then 1 else 0 := by
        by_cases hpy : p y
        · exact Nat.le_of_eq ((if_pos hpy).trans (if_pos (hle y hpy)).symm)
        · rw [if_neg hpy]
          exact Nat.zero_le _
      exact Nat.add_lt_add_of_lt_of_le (ih hmem) hy

theorem map_cell?_range (a : Arena) : (List.range a.next).map a.cell? = a.cells := by
  apply List.ext_getElem?
  intro i
  by_cases hi : i < a.cells.length
  · simp [next, cell?, hi]
  · simp [next, hi]

theorem size_eq_countP (a : Arena) : a.size = (List.range a.next).countP a.contains := by
  calc a.cells.countP (·.isSome)
      = ((List.range a.next).map a.cell?).countP (·.isSome) := by rw [map_cell?_range]
    _ = (List.range a.next).countP a.contains := List.countP_map ..

theorem size_lt_size {a b : Arena} (hnext : b.next = a.next)
    (hle : ∀ id, b.contains id → a.contains id) {id : NodeId} (ha : a.contains id)
    (hb : ¬ b.contains id) : b.size < a.size := by
  rw [size_eq_countP, size_eq_countP, hnext]
  exact countP_lt_countP hle (List.mem_range.mpr (lt_next_of_contains ha)) ha hb

theorem size_remove_lt {a : Arena} {id : NodeId} (h : a.contains id) : (a.remove id).size < a.size :=
  size_lt_size (by simp [next, remove]) (fun _ => contains_of_contains_remove) h
    (not_contains_remove a id)

@[simp] theorem next_setCell (a : Arena) (id : NodeId) (c : Cell) :
    (a.setCell id c).next = a.next := by
  simp [next, setCell]

@[simp] theorem next_remove (a : Arena) (id : NodeId) : (a.remove id).next = a.next := by
  simp [next, remove]

@[simp] theorem next_setEntry (a : Arena) (id : NodeId) (e : Entry) :
    (a.setEntry id e).next = a.next := by
  unfold setEntry
  split <;> simp

@[simp] theorem next_setParent (a : Arena) (id : NodeId) (parent : Option NodeId) :
    (a.setParent id parent).next = a.next := by
  unfold setParent
  split <;> simp

@[simp] theorem next_insert (a : Arena) (e : Entry) : (a.insert e).next = a.next + 1 := by
  simp [next, insert]

/-! ### Reading what lies below a node -/

/-- Reads from the leaves up. A node is taken out before the nodes below it are read, so that none
is read from within itself. -/
def fold {α : Type} (leaf : NodeId → Constraint → α) (group : NodeId → GroupCell → List α → α)
    (a : Arena) (id : NodeId) : Except BuilderError α :=
  match _h : a.cell? id with
  | some ⟨_, .leaf c⟩ => .ok (leaf id c)
  | some ⟨_, .group g⟩ => do
    let parts ← g.children.mapM (fold leaf group (a.remove id))
    return group id g parts
  | none => .error (.unknownNode id)
termination_by a.size
decreasing_by exact size_remove_lt (by simp [contains, *])

/-- The nodes from `id` downwards, each before those below it. -/
def below (a : Arena) (id : NodeId) : Except BuilderError (List NodeId) :=
  a.fold (fun id _ => [id]) (fun id _ parts => id :: parts.flatten) id

end Arena

end CorpusQuery
