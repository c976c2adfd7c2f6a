import CorpusQuery.Json.Basic

/-! Two layouts of a document: without white space, and with one item or field on a line. Each
writes a value in front of the text that follows it. -/

namespace CorpusQuery.Json

/-- A written string in its quotes. -/
def inQuotes (written rest : Text) : Text := '"' :: written ++ '"' :: rest

def boolWord : Bool → Text
  | true => ['t', 'r', 'u', 'e']
  | false => ['f', 'a', 'l', 's', 'e']

def nullWord : Text := ['n', 'u', 'l', 'l']

mutual

def compactTo : Json → Text → Text
  | .null, rest => nullWord ++ rest
  | .bool value, rest => boolWord value ++ rest
  | .number written, rest => written ++ rest
  | .string written, rest => inQuotes written rest
  | .array [], rest => '[' :: ']' :: rest
  | .array (item :: more), rest => '[' :: compactTo item (compactItemsTo more (']' :: rest))
  | .object [], rest => '{' :: '}' :: rest
  | .object (field :: more), rest =>
    '{' :: compactFieldTo field (compactFieldsTo more ('}' :: rest))

def compactItemsTo : List Json → Text → Text
  | [], rest => rest
  | item :: more, rest => ',' :: compactTo item (compactItemsTo more rest)

def compactFieldTo : Text × Json → Text → Text
  | (key, value), rest => inQuotes key (':' :: compactTo value rest)

def compactFieldsTo : List (Text × Json) → Text → Text
  | [], rest => rest
  | field :: more, rest => ',' :: compactFieldTo field (compactFieldsTo more rest)

end

def compact (v : Json) : Text := compactTo v []

/-- A line break, and two spaces for each level. -/
def newLine (level : Nat) (rest : Text) : Text := '\n' :: List.replicate (2 * level) ' ' ++ rest

mutual

def prettyTo (level : Nat) : Json → Text → Text
  | .null, rest => nullWord ++ rest
  | .bool value, rest => boolWord value ++ rest
  | .number written, rest => written ++ rest
  | .string written, rest => inQuotes written rest
  | .array [], rest => '[' :: ']' :: rest
  | .array (item :: more), rest =>
    '[' :: newLine (level + 1) (prettyTo (level + 1) item
      (prettyItemsTo (level + 1) more (newLine level (']' :: rest))))
  | .object [], rest => '{' :: '}' :: rest
  | .object (field :: more), rest =>
    '{' :: newLine (level + 1) (prettyFieldTo (level + 1) field
      (prettyFieldsTo (level + 1) more (newLine level ('}' :: rest))))

def prettyItemsTo (level : Nat) : List Json → Text → Text
  | [], rest => rest
  | item :: more, rest => ',' :: newLine level (prettyTo level item (prettyItemsTo level more rest))

def prettyFieldTo (level : Nat) : Text × Json → Text → Text
  | (key, value), rest => inQuotes key (':' :: ' ' :: prettyTo level value rest)

def prettyFieldsTo (level : Nat) : List (Text × Json) → Text → Text
  | [], rest => rest
  | field :: more, rest =>
    ',' :: newLine level (prettyFieldTo level field (prettyFieldsTo level more rest))

end

def pretty (v : Json) : Text := prettyTo 0 v []

end CorpusQuery.Json
