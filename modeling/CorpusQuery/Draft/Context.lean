import CorpusQuery.Draft.Node

/-! What lies around a group inside a token. -/

namespace CorpusQuery

/-- A tree with a group missing, seen from the missing group outwards. -/
inductive Context where
  /-- The group is the root. -/
  | top
  /-- The group stands between siblings in a group that has a context of its own. -/
  | under (outer : Context) (id : NodeId) (operator : Connective) (left right : List Node)
deriving Repr

namespace Context

/-- The tree with a group put in. -/
def fill : Context → Group → Group
  | top, g => g
  | under outer id operator left right, g => outer.fill ⟨id, operator, left ++ g.node :: right⟩

def isRoot : Context → Bool
  | top => true
  | under .. => false

/-- The group right around the missing one. -/
def parent? : Context → Option NodeId
  | top => none
  | under _ id _ _ _ => some id

/-- The connective right around the missing group. -/
def operator? : Context → Option Connective
  | top => none
  | under _ _ operator _ _ => some operator

end Context

end CorpusQuery
