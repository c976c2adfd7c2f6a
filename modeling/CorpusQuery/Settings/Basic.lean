import CorpusQuery.Query.Basic
import CorpusQuery.Text.LowerCase

/-! What is known about a corpus: its attributes and their values, and the words for operators. -/

namespace CorpusQuery

structure ValueOption where
  value : Text
  label : Option Text
deriving DecidableEq, Repr

/-- An annotation of words that queries may constrain. -/
structure Attribute where
  id : Text
  label : Option Text
  caseSensitive : Bool
  /-- The values it can have, if they are known. -/
  values : Option (List ValueOption)
deriving DecidableEq, Repr

namespace Attribute

def options (a : Attribute) : List ValueOption := a.values.getD []

def hasValueList (a : Attribute) : Bool := !a.options.isEmpty

/-- The listed spelling of a value, whatever its case. -/
def canonical? (a : Attribute) (value : Text) : Option Text :=
  (a.options.find? fun option => Text.lower option.value == Text.lower value).map (·.value)

end Attribute

structure OperatorLabel where
  operator : Connective
  label : Text
deriving DecidableEq, Repr

/-- A choice of where a match has to lie; an empty value stands for the whole document. -/
structure WithinOption where
  value : Text
  label : Text
deriving DecidableEq, Repr

structure Settings where
  attributes : List Attribute
  defaultAttribute : Text
  /-- What joins the constraints of a fresh token. -/
  rootOperator : Connective
  operators : List OperatorLabel
  withinOptions : List WithinOption
deriving DecidableEq, Repr

namespace Settings

def attribute? (s : Settings) (id : Text) : Option Attribute :=
  s.attributes.find? (·.id == id)

def hasAttribute (s : Settings) (id : Text) : Bool := (s.attribute? id).isSome

/-- The first label given for an operator, else its symbol. -/
def operatorLabel (s : Settings) (operator : Connective) : Text :=
  match s.operators.find? (·.operator == operator) with
  | some entry => entry.label
  | none => operator.symbol

def standard : Settings where
  attributes := [
    ⟨"word".toList, some "word".toList, true, none⟩,
    ⟨"lemma".toList, some "lemma".toList, true, none⟩,
    ⟨"pos".toList, some "Part of speech".toList, false, none⟩]
  defaultAttribute := "word".toList
  rootOperator := .and
  operators := [⟨.and, "AND".toList⟩, ⟨.or, "OR".toList⟩]
  withinOptions := [
    ⟨[], "document".toList⟩, ⟨"p".toList, "paragraph".toList⟩, ⟨"s".toList, "sentence".toList⟩]

end Settings

end CorpusQuery
