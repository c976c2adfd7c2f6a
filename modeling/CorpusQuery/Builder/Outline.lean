import CorpusQuery.Builder.Cql
import CorpusQuery.Text.Quoted

/-! The nodes of a builder on lines of their own, indented by depth. -/

namespace CorpusQuery

structure OutlineLine where
  level : Nat
  text : Text
  /-- The node that the line shows, if it shows one. -/
  id : Option NodeId
deriving DecidableEq, Repr

def OutlineLine.render (l : OutlineLine) : Text :=
  List.replicate (2 * l.level) ' ' ++ l.text ++
    (match l.id with
      | some id => ' ' :: NodeId.display id
      | none => []) ++ ['\n']

def Constraint.summary (c : Constraint) : Text :=
  c.name ++ [' '] ++ c.comparator.symbol ++ [' '] ++ Text.quotedList c.regexes ++
    if c.caseSensitive then " (case sensitive)".toList else []

def GroupCell.summary (g : GroupCell) : Text :=
  (if g.isRoot then "root ".toList else "group ".toList) ++ g.label

/-- The lines of a node and of all below it, given the depth of the node. -/
def Arena.lines (a : Arena) : NodeId → Except BuilderError (Nat → List OutlineLine) :=
  a.fold (fun id c level => [⟨level, c.summary, some id⟩])
    (fun id g parts level =>
      ⟨level, g.summary, some id⟩ :: parts.flatMap fun lines => lines (level + 1))

def Repeats.summary (r : Repeats) : Text :=
  "repeats ".toList ++ Text.decimal r.min.toNat ++ ['.', '.'] ++
    match r.max with
    | some max => Text.decimal max.toNat
    | none => "unbounded".toList

/-- What sets a token apart from a plain one. -/
def Slot.remarks {ρ : Type} (t : Slot ρ) : List Text :=
  (if t.opensSentence then ["sentence start".toList] else []) ++
  (if t.closesSentence then ["sentence end".toList] else []) ++
  (if t.optional then ["optional".toList] else []) ++
  (if t.repeats = .once then [] else [t.repeats.summary])

namespace Builder

/-- The lines of a token, whose root stands one level below it. -/
def slotLines (b : Builder) (number : Nat) (t : Slot NodeId) :
    Except BuilderError (List OutlineLine) := do
  let cql ← b.slotCql t
  let lines ← b.arena.lines t.root
  return ⟨0, "token ".toList ++ Text.decimal number ++ [' '] ++ cql, none⟩ ::
    (if t.remarks.isEmpty then []
      else [⟨1, ['('] ++ [',', ' '].intercalate t.remarks ++ [')'], none⟩]) ++ lines 1

/-- The lines of all tokens, counted from one. -/
def lines (b : Builder) : Except BuilderError (List OutlineLine) := do
  let tokens ← (b.slots.zipIdx 1).mapM fun (t, number) => b.slotLines number t
  return tokens.flatten ++
    match b.within with
    | some name => [⟨0, "within ".toList ++ name, none⟩]
    | none => []

def outline (b : Builder) : Except BuilderError Text := do
  return (← b.lines).flatMap OutlineLine.render

end Builder

end CorpusQuery
