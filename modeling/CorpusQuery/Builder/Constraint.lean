import CorpusQuery.Text.Blank
import CorpusQuery.Value.CaseFlag
import CorpusQuery.Value.Comparator
import CorpusQuery.Value.Quotes

/-! One constraint as it is edited, and as a query writes it. -/

namespace CorpusQuery

inductive Value where
  | unset
  /-- A regex, written as it is. -/
  | text (regex : Text)
  /-- Literals, any of which may match. -/
  | multiple (literals : List Text)
deriving DecidableEq, Repr

namespace Value

def isUnset : Value → Bool
  | .unset => true
  | _ => false

def isEmpty : Value → Bool
  | .unset => true
  | .text regex => regex.isEmpty
  | .multiple literals => literals.all (·.isEmpty)

def regexes : Value → List Text
  | .unset => []
  | .text regex => [regex]
  | .multiple literals => literals.map Alternation.escape

end Value

structure Constraint where
  name : Text
  comparator : Comparator
  caseSensitive : Bool
  value : Value
  /-- Literals loaded in bulk, one on a line, which take the place of `value`. -/
  uploaded : Option Text
deriving DecidableEq, Repr

namespace Constraint

def blank (name : Text) : Constraint := ⟨name, .equal, false, .unset, none⟩

/-- A field with what it is to hold. -/
inductive Field where
  | name (name : Text)
  | comparator (comparator : Comparator)
  | caseSensitive (value : Bool)
  | value (value : Value)
  | uploaded (text : Option Text)
deriving DecidableEq, Repr

def set (c : Constraint) : Field → Constraint
  | .name name => { c with name }
  | .comparator comparator => { c with comparator }
  | .caseSensitive value => { c with caseSensitive := value }
  | .value value => { c with value }
  | .uploaded text => { c with uploaded := text }

/-- Never given a value. -/
def isBlank (c : Constraint) : Bool := c.uploaded.isNone && c.value.isUnset

def uploadedLiterals (text : Text) : List Text :=
  ((Text.lines text).map Text.trim).filter (!·.isEmpty)

/-- What may match, before the comparator and the case flag are written into it. -/
def regexes (c : Constraint) : List Text :=
  match c.uploaded with
  | some text => (uploadedLiterals text).map Alternation.escape
  | none => c.value.regexes

/-- The value of a query, up to its quotes. No regex at all is the empty one. -/
def written (c : Constraint) : Text :=
  let regexes := match c.regexes with
    | [] => [[]]
    | found => found
  CaseFlag.encode c.caseSensitive (['|'].intercalate (regexes.map c.comparator.pattern))

/-- A blank constraint is left out of a query. -/
def cql (c : Constraint) : Text :=
  if c.isBlank then []
  else
    c.name ++ [' '] ++ c.comparator.equality.symbol ++ [' ', '"'] ++
      Quotes.escape c.written ++ ['"']

end Constraint

end CorpusQuery
