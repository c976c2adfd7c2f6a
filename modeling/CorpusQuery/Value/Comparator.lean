import CorpusQuery.Query.Basic
import CorpusQuery.Value.Alternation

/-! Comparing the beginning or the end of a word, which a query writes as a value with `.*`. -/

namespace CorpusQuery

inductive Comparator where
  | equal
  | notEqual
  | startsWith
  | endsWith
deriving DecidableEq, Repr

namespace Comparator

def symbol : Comparator → Text
  | .equal => ['=']
  | .notEqual => ['!', '=']
  | .startsWith => ['s', 't', 'a', 'r', 't', 's', ' ', 'w', 'i', 't', 'h']
  | .endsWith => ['e', 'n', 'd', 's', ' ', 'w', 'i', 't', 'h']

def ofSymbol? (symbol : Text) : Option Comparator :=
  [equal, notEqual, startsWith, endsWith].find? (·.symbol = symbol)

def ofEquality : Equality → Comparator
  | .equal => .equal
  | .notEqual => .notEqual

theorem ofSymbol?_symbol (c : Comparator) : ofSymbol? c.symbol = some c := by
  cases c <;> decide

def anything : Text := ['.', '*']

/-- The comparison a query writes. -/
def equality : Comparator → Equality
  | .notEqual => .notEqual
  | _ => .equal

/-- The value a query writes. -/
def pattern : Comparator → Text → Text
  | .startsWith, value => value ++ anything
  | .endsWith, value => anything ++ value
  | _, value => value

def encode (c : Comparator) (value : Text) : Comparator × Text :=
  (ofEquality c.equality, c.pattern value)

/-- What stands in front of a final `.*` whose point is not escaped. -/
def stem? (value : Text) : Option Text :=
  match value.reverse with
  | '*' :: '.' :: stem => if endsEscaping stem.reverse then none else some stem.reverse
  | _ => none

/-- The comparison a written value stands for. An alternation stands for itself, and so does a
value that is nothing but `.*`. -/
def decode (c : Comparator) (value : Text) : Comparator × Text :=
  if c = .equal ∧ 2 ≤ value.length ∧ value ≠ anything ∧ ¬ Alternation.hasBar value then
    match value with
    | '.' :: '*' :: rest => (.endsWith, rest)
    | _ =>
      match stem? value with
      | some stem => (.startsWith, stem)
      | none => (c, value)
  else (c, value)

end Comparator

end CorpusQuery
