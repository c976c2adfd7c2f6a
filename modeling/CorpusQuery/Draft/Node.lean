import CorpusQuery.Builder.Constraint
import CorpusQuery.Builder.Error

/-! Constraints in nested groups as trees, each group with one connective between its children. -/

namespace CorpusQuery

inductive Node where
  | leaf (id : NodeId) (constraint : Constraint)
  | group (id : NodeId) (operator : Connective) (children : List Node)
deriving Repr

/-- A group on its own, such as the one at the root of a token. -/
structure Group where
  id : NodeId
  operator : Connective
  children : List Node
deriving Repr

def Group.node (g : Group) : Node := .group g.id g.operator g.children

namespace Node

def id : Node → NodeId
  | .leaf id _ => id
  | .group id _ _ => id

mutual

/-- The ids of a node and of all below it, each before those below it. -/
def ids : Node → List NodeId
  | .leaf id _ => [id]
  | .group id _ children => id :: idsAll children

def idsAll : List Node → List NodeId
  | [] => []
  | n :: rest => n.ids ++ idsAll rest

end

def isGroupWith (operator : Connective) : Node → Bool
  | .leaf _ _ => false
  | .group _ inner _ => inner == operator

/-- The children in place of a group with the connective `around`. -/
def unnest (around : Connective) : Node → List Node
  | .leaf id c => [.leaf id c]
  | .group id operator children =>
    if operator = around then children else [.group id operator children]

def unnestAll (around : Connective) (nodes : List Node) : List Node :=
  nodes.flatMap (unnest around)

end Node

@[simp] theorem Group.id_node (g : Group) : g.node.id = g.id := rfl

end CorpusQuery
