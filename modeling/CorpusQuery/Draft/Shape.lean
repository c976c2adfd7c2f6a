import CorpusQuery.Builder.Cql
import CorpusQuery.Draft.Node

/-! The shape of a tree: what its constraints write and how they are nested, without numbers. -/

namespace CorpusQuery

inductive Shape where
  | leaf (text : Text)
  /-- The connective counts where there is something to join. -/
  | group (operator : Option Connective) (children : List Shape)
deriving Repr

namespace Shape

def ofGroup (operator : Connective) (children : List Shape) : Shape :=
  .group (if children.length < 2 then none else some operator) children

mutual

/-- The number of groups from here down to the deepest one. -/
def levels : Shape → Nat
  | .leaf _ => 0
  | .group _ children => levelsAll children + 1

def levelsAll : List Shape → Nat
  | [] => 0
  | c :: rest => max c.levels (levelsAll rest)

end

end Shape

namespace Node

mutual

def shape : Node → Shape
  | .leaf _ c => .leaf c.cql
  | .group _ operator children => .ofGroup operator (shapes children)

def shapes : List Node → List Shape
  | [] => []
  | n :: rest => n.shape :: shapes rest

end

end Node

def Group.shape (g : Group) : Shape := .ofGroup g.operator (Node.shapes g.children)

/-- The shape of the tree below a node. -/
def Builder.shape (b : Builder) (id : NodeId) : Except BuilderError Shape :=
  b.arena.fold (fun _ c => .leaf c.cql) (fun _ g children => .ofGroup g.operator children) id

end CorpusQuery
