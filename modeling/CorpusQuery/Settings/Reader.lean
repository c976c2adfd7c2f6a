import CorpusQuery.Json.Decode
import CorpusQuery.Settings.Basic

/-! Reading settings from a JSON document. -/

namespace CorpusQuery

inductive SettingsError where
  /-- The document cannot be had at all. -/
  | unreadable
  /-- The text is no JSON document, or not one of the right form. -/
  | malformed
  | unknownDefaultAttribute (name : Text)
deriving DecidableEq, Repr

def SettingsError.message : SettingsError → String
  | unreadable => "Cannot read settings"
  | malformed => "Invalid settings"
  | unknownDefaultAttribute name =>
    "Default attribute '" ++ String.ofList name ++ "' is not a configured attribute"

open Json

def ValueOption.ofJson? (v : Json) : Option ValueOption := do
  match ← record? ["value".toList, "label".toList] v with
  | [value, label] => do
    let value ← required? text? value
    let label ← orDefault? (orNull? text?) none label
    some ⟨value, label⟩
  | _ => none

def Attribute.ofJson? (v : Json) : Option Attribute := do
  match ← record? ["id".toList, "label".toList, "caseSensitive".toList, "values".toList] v with
  | [id, label, caseSensitive, values] => do
    let id ← required? text? id
    let label ← orDefault? (orNull? text?) none label
    let caseSensitive ← orDefault? bool? false caseSensitive
    let values ← orDefault? (orNull? (list? ValueOption.ofJson?)) none values
    some ⟨id, label, caseSensitive, values⟩
  | _ => none

/-- An operator is named by its symbol, or by a record with nothing under its symbol. -/
def Connective.ofJson? : Json → Option Connective
  | .string written => (unescape? written).bind ofSymbol?
  | .object [(key, .null)] => (unescape? key).bind ofSymbol?
  | _ => none

def OperatorLabel.ofJson? (v : Json) : Option OperatorLabel := do
  match ← record? ["operator".toList, "label".toList] v with
  | [operator, label] => do
    let operator ← required? Connective.ofJson? operator
    let label ← required? text? label
    some ⟨operator, label⟩
  | _ => none

def WithinOption.ofJson? (v : Json) : Option WithinOption := do
  match ← record? ["value".toList, "label".toList] v with
  | [value, label] => do
    let value ← required? text? value
    let label ← required? text? label
    some ⟨value, label⟩
  | _ => none

namespace Settings

def keys : List Text :=
  ["attributes".toList, "defaultAttribute".toList, "rootOperator".toList, "operators".toList,
    "withinOptions".toList]

/-- What is left out is as in the standard settings. -/
def ofJson? (v : Json) : Option Settings := do
  match ← record? keys v with
  | [attributes, defaultAttribute, rootOperator, operators, withinOptions] => do
    let attributes ← orDefault? (list? Attribute.ofJson?) standard.attributes attributes
    let defaultAttribute ← orDefault? text? standard.defaultAttribute defaultAttribute
    let rootOperator ← orDefault? Connective.ofJson? standard.rootOperator rootOperator
    let operators ← orDefault? (list? OperatorLabel.ofJson?) standard.operators operators
    let withinOptions ←
      orDefault? (list? WithinOption.ofJson?) standard.withinOptions withinOptions
    some ⟨attributes, defaultAttribute, rootOperator, operators, withinOptions⟩
  | _ => none

/-- The default attribute has to be one of the attributes. -/
def read (text : Text) : Except SettingsError Settings :=
  match (Json.read? text).bind ofJson? with
  | some s =>
    if s.hasAttribute s.defaultAttribute then .ok s
    else .error (.unknownDefaultAttribute s.defaultAttribute)
  | none => .error .malformed

end Settings

end CorpusQuery
