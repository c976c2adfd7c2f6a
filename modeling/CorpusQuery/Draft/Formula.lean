import CorpusQuery.Builder.Edit
import CorpusQuery.Draft.Node

/-!
What a tree asks of a match, whichever way its groups are nested: groups without children are left
out, a group with one child comes to that child, and groups that are joined alike are merged.
-/

namespace CorpusQuery

inductive Formula where
  | constraint (id : NodeId) (constraint : Constraint)
  /-- At least two operands. -/
  | joined (operator : Connective) (first second : Formula) (rest : List Formula)
deriving Repr

namespace Formula

def isJoinedBy (operator : Connective) : Formula → Bool
  | constraint _ _ => false
  | joined inner _ _ _ => inner == operator

/-- What a formula contributes to one that is joined by `around`. -/
def operandsIn (around : Connective) : Formula → List Formula
  | constraint id c => [constraint id c]
  | joined operator first second rest =>
    if operator = around then first :: second :: rest else [joined operator first second rest]

/-- Operands side by side, if there are any. One by itself is not joined to anything. -/
def join? (operator : Connective) : List Formula → Option Formula
  | [] => none
  | [x] => some x
  | first :: second :: rest => some (joined operator first second rest)

end Formula

namespace Node

mutual

/-- None for groups without constraints. -/
def formula? : Node → Option Formula
  | .leaf id c => some (.constraint id c)
  | .group _ operator children =>
    Formula.join? operator ((formulas children).flatMap (Formula.operandsIn operator))

def formulas : List Node → List Formula
  | [] => []
  | n :: rest => n.formula?.toList ++ formulas rest

end

/-- The same constraints in the same order, grouped alike but for what associativity allows. -/
def Equivalent (ms ns : List Node) : Prop := formulas ms = formulas ns

mutual

/-- What is left of a node when `f` says what comes in place of the node numbered `id`. -/
def substitute (id : NodeId) (f : Node → List Node) : Node → List Node
  | .leaf i c => if i = id then f (.leaf i c) else [.leaf i c]
  | .group i operator children =>
    if i = id then f (.group i operator children)
    else [.group i operator (substituteAll id f children)]

def substituteAll (id : NodeId) (f : Node → List Node) : List Node → List Node
  | [] => []
  | n :: rest => n.substitute id f ++ substituteAll id f rest

end

/-- A node with a new one behind it, in a group of their own. -/
def joinedWith (wrapper : NodeId) (operator : Connective) (new n : Node) : List Node :=
  [.group wrapper operator [n, new]]

def withOperator (operator : Connective) : Node → Node
  | .leaf id c => .leaf id c
  | .group id _ children => .group id operator children

end Node

/-- What an edit of a tree asks for: which node is to give way, and what comes in its place. What
number a wrapping group has makes no difference. -/
inductive Edit.Asks (s : Settings) : Edit → Outcome → NodeId → (Node → List Node) → Prop where
  /-- The new node stands behind `origin`, or behind the whole group without one. -/
  | createConstraint (group : NodeId) (operator : Connective) (origin : Option NodeId)
      (new wrapper : NodeId) :
    Asks s (.createConstraint group operator origin) (.node new) (origin.getD group)
      (Node.joinedWith wrapper operator (.leaf new (.blank s.defaultAttribute)))
  | removeNode (id : NodeId) : Asks s (.removeNode id) .nothing id fun _ => []
  | setGroupOperator (id : NodeId) (operator : Connective) :
    Asks s (.setGroupOperator id operator) .nothing id fun n => [n.withOperator operator]

namespace Builder

/-- The tree below a node. -/
def tree (b : Builder) (id : NodeId) : Except BuilderError Node :=
  b.arena.fold .leaf (fun id g children => .group id g.operator children) id

/-- What `f` puts in place of the node `id` is what comes of its tree, up to associativity. All
other trees are as they were, and so is what stands around them. -/
structure Rewrites (b : Builder) (id : NodeId) (f : Node → List Node) (b' : Builder) : Prop where
  settings_eq : b'.settings = b.settings
  slots_eq : b'.slots = b.slots
  within_eq : b'.within = b.within
  found : ∃ t ∈ b.slots, ∃ tree, b.tree t.root = .ok tree ∧ id ∈ tree.ids
  trees : ∀ t ∈ b.slots, ∃ tree tree', b.tree t.root = .ok tree ∧ b'.tree t.root = .ok tree' ∧
    Node.Equivalent [tree'] (tree.substitute id f) ∧ (id ∉ tree.ids → tree' = tree)

end Builder

end CorpusQuery
