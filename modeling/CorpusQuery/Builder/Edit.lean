import CorpusQuery.Builder.Load

/-! The edits that a builder offers, one at a time and in runs. -/

namespace CorpusQuery

inductive Edit where
  | parse (pattern : Option Text)
  | populate (query : Option Query)
  | reset
  | createToken
  | removeToken (index : Nat)
  | moveToken (source target : Nat)
  | setMark (index : Nat) (mark : Mark) (value : Bool)
  | setRepeats (index : Nat) (repeats : Repeats)
  | setWithin (name : Option Text)
  | createConstraint (group : NodeId) (operator : Connective) (origin : Option NodeId)
  | removeNode (id : NodeId)
  | setGroupOperator (id : NodeId) (operator : Connective)
  | setField (id : NodeId) (field : Constraint.Field)
deriving DecidableEq, Repr

/-- What an edit brought into being. -/
inductive Outcome where
  | nothing
  | token (index : Nat)
  | node (id : NodeId)
deriving DecidableEq, Repr

namespace BuilderM

def removeToken (index : Nat) : BuilderM Unit := do
  let s ← EditM.look (·.token index)
  modify fun b =>
    { b with slots := b.slots.eraseIdx index, arena := b.arena.removeAll [s.root] }

/-- Adds a blank constraint behind `origin`, or at the end of the group without one, and joins it
there by `operator`. -/
def createConstraint (group : NodeId) (operator : Connective) (origin : Option NodeId) :
    BuilderM NodeId := do
  let s := (← get).settings
  onArena (ArenaM.createLeaf s.operatorLabel (.blank s.defaultAttribute) group operator origin)

def apply : Edit → BuilderM Outcome
  | .parse pattern => do
    parse pattern
    return .nothing
  | .populate query => do
    populate query
    return .nothing
  | .reset => do
    reset
    return .nothing
  | .createToken => do
    return .token (← createToken)
  | .removeToken index => do
    removeToken index
    return .nothing
  | .moveToken source target => do
    onSlots (Slot.move · source target)
    return .nothing
  | .setMark index mark value => do
    onSlots (Slot.set · index (Slot.mark mark value))
    return .nothing
  | .setRepeats index repeats => do
    onSlots (Slot.setRepeats · index repeats)
    return .nothing
  | .setWithin name => do
    setWithin name
    return .nothing
  | .createConstraint group operator origin => do
    return .node (← createConstraint group operator origin)
  | .removeNode id => do
    onArena (ArenaM.removeNode (← get).settings.operatorLabel id)
    return .nothing
  | .setGroupOperator id operator => do
    onArena (ArenaM.setGroupOperator (← get).settings.operatorLabel id operator)
    return .nothing
  | .setField id field => do
    onArena (ArenaM.modifyConstraint id (·.set field))
    return .nothing

end BuilderM

namespace Builder

/-- What an edit gives, and the builder after it. -/
def apply (b : Builder) (e : Edit) : Except BuilderError Outcome × Builder :=
  match BuilderM.apply e b with
  | .ok outcome b => (.ok outcome, b)
  | .error error b => (.error error, b)

def step (b : Builder) (e : Edit) : Builder := (b.apply e).2

/-- The builder after a run of edits, of which some may fail. -/
def run (b : Builder) (edits : List Edit) : Builder := edits.foldl step b

end Builder

end CorpusQuery
