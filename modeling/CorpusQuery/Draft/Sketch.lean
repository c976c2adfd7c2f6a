import CorpusQuery.Draft.Basic

/-! Trees without their numbers, and what an expression comes to when it is flattened. -/

namespace CorpusQuery

inductive Sketch where
  | leaf (constraint : Constraint)
  | group (operator : Connective) (children : List Sketch)
deriving Repr

namespace Node

mutual

def sketch : Node → Sketch
  | .leaf _ c => .leaf c
  | .group _ operator children => .group operator (sketches children)

def sketches : List Node → List Sketch
  | [] => []
  | n :: rest => n.sketch :: sketches rest

end

mutual

/-- The ids of a node and of all below it, each before those below it, with the last child of a
group first. -/
def idsBackward : Node → List NodeId
  | .leaf id _ => [id]
  | .group id _ children => id :: idsBackwardAll children

def idsBackwardAll : List Node → List NodeId
  | [] => []
  | n :: rest => idsBackwardAll rest ++ n.idsBackward

end

end Node

/-- What comes side by side in a group that is joined by `around`. Constraints on attributes that
the settings do not know are left out. -/
def Expr.flat (s : Settings) : Expr → Connective → List Sketch
  | .constraint name equality written, _ =>
    (s.constraint? name equality written).toList.map .leaf
  | .binary operator left right, around =>
    let operands := left.flat s operator ++ right.flat s operator
    if operator = around then operands else [.group operator operands]

/-- The tree of a token. The connective of the settings is for tokens that have none of their
own. -/
def Token.sketch (s : Settings) (t : Token) : Sketch :=
  match t.expression with
  | none => .group s.rootOperator []
  | some (.constraint name equality written) =>
    .group s.rootOperator ((s.constraint? name equality written).toList.map .leaf)
  | some (.binary operator left right) =>
    .group operator (left.flat s operator ++ right.flat s operator)

end CorpusQuery
