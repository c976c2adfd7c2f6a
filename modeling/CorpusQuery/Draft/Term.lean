import CorpusQuery.Builder.Cql
import CorpusQuery.Draft.Basic

/-! What a query writes of a tree: its constraints, and its groups in parentheses. -/

namespace CorpusQuery

inductive Term where
  | leaf (name : Text) (equality : Equality) (raw : Text)
  | group (operator : Connective) (first : Term) (rest : List Term)
deriving Repr

namespace Term

mutual

def text : Term → Text
  | .leaf name equality raw => name ++ ([' '] ++ equality.symbol ++ [' ', '"']) ++ raw ++ ['"']
  | .group operator first rest => ['('] ++ (first.text ++ restText operator rest) ++ [')']

/-- Operands behind the first one. -/
def restText (operator : Connective) : List Term → Text
  | [] => []
  | t :: rest => [' '] ++ operator.symbol ++ [' '] ++ (t.text ++ restText operator rest)

end

/-- What stands between brackets, where a group goes without parentheses. -/
def inner : Term → Text
  | .leaf name equality raw => (leaf name equality raw).text
  | .group operator first rest => first.text ++ restText operator rest

mutual

/-- The expression that is read, joined from the left. -/
def expr : Term → Expr
  | .leaf name equality raw => .constraint name equality raw
  | .group operator first rest => restExpr operator first.expr rest

def restExpr (operator : Connective) (left : Expr) : List Term → Expr
  | [] => left
  | t :: rest => restExpr operator (.binary operator left t.expr) rest

end

mutual

/-- How deep parentheses nest. -/
def depth : Term → Nat
  | .leaf _ _ _ => 0
  | .group _ first rest => max first.depth (restDepth rest) + 1

def restDepth : List Term → Nat
  | [] => 0
  | t :: rest => max t.depth (restDepth rest)

end

mutual

/-- All constraints in it have the property. -/
def Every (P : Text → Equality → Text → Prop) : Term → Prop
  | .leaf name equality raw => P name equality raw
  | .group _ first rest => first.Every P ∧ EveryRest P rest

def EveryRest (P : Text → Equality → Text → Prop) : List Term → Prop
  | [] => True
  | t :: rest => t.Every P ∧ EveryRest P rest

end

/-- Operands side by side, if there are any. -/
def join? (operator : Connective) : List Term → Option Term
  | [] => none
  | first :: rest => some (.group operator first rest)

/-- An operand by itself needs no parentheses. -/
def operand? (operator : Connective) : List Term → Option Term
  | [t] => some t
  | ts => join? operator ts

end Term

/-- A blank constraint writes nothing. -/
def Constraint.term? (c : Constraint) : Option Term :=
  if c.isBlank then none
  else some (.leaf c.name c.comparator.equality (Quotes.escape c.written))

/-- What is written of a constraint that is read; nothing where the attribute is not configured. -/
def Settings.term? (s : Settings) (name : Text) (equality : Equality) (raw : Text) : Option Term :=
  (s.constraint? name equality raw).bind Constraint.term?

namespace Node

mutual

def term? : Node → Option Term
  | .leaf _ c => c.term?
  | .group _ operator children => Term.operand? operator (terms children)

def terms : List Node → List Term
  | [] => []
  | n :: rest => n.term?.toList ++ terms rest

end

end Node

def Group.term? (g : Group) : Option Term := Term.join? g.operator (Node.terms g.children)

/-- How often a token may stand in a row, the option to leave it out included. -/
def Token.Admits (t : Token) (n : Nat) : Prop := t.bounds.Admits n ∨ t.optional = true ∧ n = 0

def Slot.Admits {ρ : Type} (t : Slot ρ) (n : Nat) : Prop :=
  t.repeats.Admits n ∨ t.optional = true ∧ n = 0

/-- The bounds that are written out. -/
def Repeats.written? (r : Repeats) : Option Repeats :=
  if r = .once ∨ r = ⟨0, some 1⟩ then none else some r

namespace Slot

/-- A question mark is written, be it as a mark or as bounds. -/
def marked {ρ : Type} (t : Slot ρ) : Bool :=
  t.repeats == ⟨0, some 1⟩ || (t.optional && t.repeats.min != 0)

/-- The token of a query that is read from what is written of a token. -/
def token (t : Slot (Option Term)) : Token where
  leadingTag := if t.opensSentence then some ⟨sentenceTag, false⟩ else none
  trailingTag := if t.closesSentence then some ⟨sentenceTag, true⟩ else none
  expression := t.root.map Term.expr
  optional := t.marked
  repeats := t.repeats.written?

def text (t : Slot (Option Term)) : Text := t.cqlAround ((t.root.map Term.inner).getD [])

end Slot

end CorpusQuery
