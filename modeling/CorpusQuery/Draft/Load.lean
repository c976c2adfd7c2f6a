import CorpusQuery.Builder.Load
import CorpusQuery.Draft.Node

/-! Expressions as trees, by recursion on the expression. -/

namespace CorpusQuery

/-- All names are those of attributes that the settings know. -/
def Expr.Configured (s : Settings) : Expr → Prop
  | .constraint name _ _ => s.hasAttribute name
  | .binary _ left right => left.Configured s ∧ right.Configured s

def Query.Configured (s : Settings) (q : Query) : Prop :=
  ∀ t ∈ q.tokens, ∀ e ∈ t.expression, e.Configured s

/-- What an expression adds to a group that is joined by `around`, with the next free number. The
right operand is numbered before the left one, and a group before what it holds. -/
def Expr.nodes (s : Settings) : Expr → Connective → NodeId → List Node × NodeId
  | .constraint name equality written, _, next =>
    match s.constraint? name equality written with
    | some c => ([.leaf next c], next + 1)
    | none => ([], next)
  | .binary operator left right, around, next =>
    if operator = around then
      let r := right.nodes s operator next
      let l := left.nodes s operator r.2
      (l.1 ++ r.1, l.2)
    else
      let r := right.nodes s operator (next + 1)
      let l := left.nodes s operator r.2
      ([.group next operator (l.1 ++ r.1)], l.2)

/-- The connective of an expression, if it has operands. -/
def Expr.connective? : Expr → Option Connective
  | .constraint _ _ _ => none
  | .binary operator _ _ => some operator

namespace Group

/-- A root without children. -/
def bare (s : Settings) (id : NodeId) : Group := ⟨id, s.rootOperator, []⟩

/-- The root takes the connective of the expression over. -/
def ofExpr (s : Settings) (id : NodeId) (e : Expr) (next : NodeId) : Group :=
  let operator := e.connective?.getD s.rootOperator
  ⟨id, operator, (e.nodes s operator next).1⟩

end Group

end CorpusQuery
