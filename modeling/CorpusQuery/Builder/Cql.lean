import CorpusQuery.Builder.Basic
import CorpusQuery.Query.Parser

/-! The query a builder stands for, in its canonical spelling. -/

namespace CorpusQuery

/-- Parts of a group, joined; parts that say nothing are left out. -/
def Connective.joinParts (operator : Connective) (parts : List Text) : Text :=
  ([' '] ++ operator.symbol ++ [' ']).intercalate (parts.filter (!·.isEmpty))

/-- At least two parts that say something stand in parentheses. -/
def Connective.enclosedParts (operator : Connective) (parts : List Text) : Text :=
  if (parts.filter (!·.isEmpty)).length < 2 then operator.joinParts parts
  else ['('] ++ operator.joinParts parts ++ [')']

/-- A root goes without parentheses. -/
def GroupCell.cql (g : GroupCell) (parts : List Text) : Text :=
  if g.isRoot then g.operator.joinParts parts else g.operator.enclosedParts parts

def Repeats.cql (r : Repeats) : Text :=
  if r = ⟨1, some 1⟩ then []
  else if r = ⟨0, some 1⟩ then ['?']
  else if r = ⟨0, none⟩ then ['*']
  else if r = ⟨1, none⟩ then ['+']
  else
    let min := Text.decimal r.min.toNat
    match r.max with
    | none => ['{'] ++ min ++ [',', '}']
    | some max =>
      if r.min = max then ['{'] ++ min ++ ['}']
      else ['{'] ++ min ++ [','] ++ Text.decimal max.toNat ++ ['}']

namespace Slot

variable {ρ : Type}

/-- Repetition and option. A token that may occur no time is optional without saying so. -/
def suffix (s : Slot ρ) : Text :=
  s.repeats.cql ++ if s.optional && s.repeats.min != 0 then ['?'] else []

/-- A token, given what stands in its brackets. -/
def cqlAround (s : Slot ρ) (inner : Text) : Text :=
  (if s.opensSentence then ['<', 's', '>', ' '] else []) ++ ['['] ++ inner ++ [']'] ++
    s.suffix ++ if s.closesSentence then [' ', '<', '/', 's', '>'] else []

end Slot

/-- What matches have to lie in. -/
def withinText : Option Text → Text
  | some name => [' '] ++ Parser.withinSymbol ++ [' ', '<'] ++ name ++ ['/', '>']
  | none => []

/-- The tokens of a query in a row, with what they have to lie in. -/
def joinTokens (tokens : List Text) (within : Option Text) : Text :=
  [' '].intercalate tokens ++ withinText within

namespace Builder

def nodeCql (b : Builder) (id : NodeId) : Except BuilderError Text :=
  b.arena.fold (fun _ c => c.cql) (fun _ => GroupCell.cql) id

def slotCql (b : Builder) (s : Slot NodeId) : Except BuilderError Text := do
  return s.cqlAround (← b.nodeCql s.root)

def tokenCql (b : Builder) (index : Nat) : Except BuilderError Text := do
  b.slotCql (← b.token index)

/-- The whole query; none without tokens. -/
def cql? (b : Builder) : Except BuilderError (Option Text) :=
  if b.slots.isEmpty then .ok none
  else do
    let tokens ← b.slots.mapM b.slotCql
    return some (joinTokens tokens b.within)

end Builder

end CorpusQuery
