import CorpusQuery.Draft.Load

/-! A query as it is edited, with a tree for each token. -/

namespace CorpusQuery

structure Draft where
  slots : List (Slot Group)
  within : Option Text
deriving Repr

namespace Slot

/-- A token with one blank constraint, which is numbered before the root. -/
def blank (s : Settings) (next : NodeId) : Slot Group :=
  .ofRoot ⟨next + 1, s.rootOperator, [.leaf next (.blank s.defaultAttribute)]⟩

/-- The trees of a query's token, with the root numbered first. -/
def rootOf (s : Settings) (t : Token) (next : NodeId) : Group :=
  match t.expression with
  | some e => .ofExpr s next e (next + 1)
  | none => .bare s next

/-- The next free number after the nodes of a query's token. -/
def nextAfter (s : Settings) (t : Token) (next : NodeId) : NodeId :=
  match t.expression with
  | some e => (e.nodes s (e.connective?.getD s.rootOperator) (next + 1)).2
  | none => next + 1

/-- The next free number after the nodes of all tokens of a query. -/
def nextAfterAll (s : Settings) : List Token → NodeId → NodeId
  | [], next => next
  | t :: rest, next => nextAfterAll s rest (nextAfter s t next)

def ofToken (s : Settings) (t : Token) (next : NodeId) : Slot Group where
  root := rootOf s t next
  repeats := t.bounds
  optional := t.optional
  opensSentence := isSentenceTag false t.leadingTag
  closesSentence := isSentenceTag true t.trailingTag

end Slot

namespace Draft

def ofTokens (s : Settings) : List Token → NodeId → List (Slot Group)
  | [], _ => []
  | t :: rest, next => Slot.ofToken s t next :: ofTokens s rest (Slot.nextAfter s t next)

/-- No query stands for one blank token. -/
def ofQuery (s : Settings) : Option Query → Draft
  | none => ⟨[.blank s 0], none⟩
  | some q => ⟨ofTokens s q.tokens 0, q.within.filter (!·.isEmpty)⟩

end Draft

end CorpusQuery
