import CorpusQuery.Builder.Regroup
import CorpusQuery.Builder.Slot
import CorpusQuery.Settings.Basic

/-! The query builder: a query as it is edited, token by token, and what can be read off it. -/

namespace CorpusQuery

structure Builder where
  settings : Settings
  /-- The nodes of all tokens. -/
  arena : Arena
  slots : List (Slot NodeId)
  /-- Name of the element a match has to lie in; never empty. -/
  within : Option Text
deriving DecidableEq, Repr

namespace Builder

/-- Nothing at all, not even a token. -/
def empty (s : Settings) : Builder := ⟨s, .empty, [], none⟩

/-- The number of nodes. -/
def size (b : Builder) : Nat := b.arena.size

def contains (b : Builder) (id : NodeId) : Bool := b.arena.contains id

def node (b : Builder) (id : NodeId) : Except BuilderError Entry := b.arena.entry id

def group (b : Builder) (id : NodeId) : Except BuilderError GroupCell := b.arena.group id

def constraint (b : Builder) (id : NodeId) : Except BuilderError Constraint :=
  b.arena.constraint id

def children (b : Builder) (id : NodeId) : Except BuilderError (List NodeId) := do
  return (← b.group id).children

/-- The group a node is in; none for roots. -/
def parent? (b : Builder) (id : NodeId) : Option NodeId := b.arena.parent? id

def token (b : Builder) (index : Nat) : Except BuilderError (Slot NodeId) :=
  Slot.get b.slots index

end Builder

abbrev BuilderM (α : Type) := EditM Builder α

namespace BuilderM

def onArena {α : Type} (m : ArenaM α) : BuilderM α := fun b =>
  match m b.arena with
  | .ok x arena => .ok x { b with arena }
  | .error e arena => .error e { b with arena }

def onSlots (f : List (Slot NodeId) → Except BuilderError (List (Slot NodeId))) :
    BuilderM Unit := do
  let slots ← EditM.look fun b => f b.slots
  modify ({ · with slots })

end BuilderM

end CorpusQuery
