import CorpusQuery.Builder.Edit
import CorpusQuery.Draft.Basic
import CorpusQuery.Draft.Regroup

/-! What each edit makes of a draft, if it succeeds. -/

namespace CorpusQuery

/-- The edit puts a query in place of all there is. -/
inductive Edit.Loads (s : Settings) : Edit → Option Query → Prop where
  | parse (pattern : Option Text) (q : Option Query) (hq : s.readQuery pattern = .ok q) :
    Loads s (.parse pattern) q
  | populate (q : Option Query) : Loads s (.populate q) q
  | reset : Loads s .reset none

/-- If the edit loads a query, that names known attributes only. -/
def Edit.Configured (s : Settings) (e : Edit) : Prop :=
  ∀ query, e.Loads s (some query) → query.Configured s

/-- The edit changes the tree of one token and leaves the others alone. New nodes are numbered from
`n` on. -/
inductive Draft.Reshapes (s : Settings) (n : NodeId) : Edit → Outcome → Group → Group → Prop where
  | createConstraint (group : NodeId) (operator : Connective) (origin : Option (NodeId × Nat))
      (g g' : Group)
      (hjoins : Joins operator (.leaf n (.blank s.defaultAttribute)) (n + 1) group origin g g') :
    Reshapes s n (.createConstraint group operator (origin.map (·.1))) (.node n) g g'
  | removeNode (id : NodeId) (g g' : Group) (hremoves : Removes id g g') :
    Reshapes s n (.removeNode id) .nothing g g'
  | setGroupOperator (id : NodeId) (operator : Connective) (g g' : Group)
      (hretypes : Retypes operator id g g') :
    Reshapes s n (.setGroupOperator id operator) .nothing g g'
  | setField (id : NodeId) (field : Constraint.Field) (g g' : Group)
      (hupdates : Updates (·.set field) id g g') :
    Reshapes s n (.setField id field) .nothing g g'

theorem Draft.Reshapes.id_eq {s : Settings} {n : NodeId} {e : Edit} {o : Outcome} {g g' : Group}
    (h : Draft.Reshapes s n e o g g') : g'.id = g.id := by
  cases h with
  | createConstraint group operator origin g g' hjoins => exact hjoins.id_eq
  | removeNode id g g' hremoves => exact hremoves.id_eq
  | setGroupOperator id operator g g' hretypes => exact hretypes.id_eq
  | setField id field g g' hupdates => exact hupdates.id_eq

/-- The edit moves tokens about or changes what stands around their trees. -/
inductive Draft.Rearranges {ρ : Type} : Edit → List (Slot ρ) → List (Slot ρ) → Prop where
  | moveToken (source target : Nat) (slots slots' : List (Slot ρ))
      (h : Slot.move slots source target = .ok slots') :
    Rearranges (.moveToken source target) slots slots'
  | setMark (index : Nat) (mark : Mark) (value : Bool) (slots slots' : List (Slot ρ))
      (h : Slot.set slots index (Slot.mark mark value) = .ok slots') :
    Rearranges (.setMark index mark value) slots slots'
  | setRepeats (index : Nat) (r : Repeats) (slots slots' : List (Slot ρ))
      (h : Slot.setRepeats slots index r = .ok slots') :
    Rearranges (.setRepeats index r) slots slots'

inductive Draft.Step (s : Settings) (n : NodeId) : Edit → Outcome → Draft → Draft → Prop where
  | load (e : Edit) (q : Option Query) (d : Draft) (hloads : e.Loads s q)
      (hq : ∀ query, q = some query → ∀ t ∈ query.tokens, t.fault? = none) :
    Step s n e .nothing d (.ofQuery s q)
  | createToken (slots : List (Slot Group)) (within : Option Text) :
    Step s n .createToken (.token slots.length) ⟨slots, within⟩ ⟨slots ++ [.blank s n], within⟩
  | removeToken (left : List (Slot Group)) (t : Slot Group) (right : List (Slot Group))
      (within : Option Text) :
    Step s n (.removeToken left.length) .nothing ⟨left ++ t :: right, within⟩
      ⟨left ++ right, within⟩
  | rearrange (e : Edit) (slots slots' : List (Slot Group)) (within : Option Text)
      (h : Rearranges e slots slots') :
    Step s n e .nothing ⟨slots, within⟩ ⟨slots', within⟩
  | setWithin (name : Option Text) (slots : List (Slot Group)) (within : Option Text) :
    Step s n (.setWithin name) .nothing ⟨slots, within⟩ ⟨slots, name.filter (!·.isEmpty)⟩
  | reshape (e : Edit) (o : Outcome) (left : List (Slot Group)) (t : Slot Group)
      (right : List (Slot Group)) (root : Group) (within : Option Text)
      (h : Reshapes s n e o t.root root) :
    Step s n e o ⟨left ++ t :: right, within⟩ ⟨left ++ { t with root } :: right, within⟩

end CorpusQuery
