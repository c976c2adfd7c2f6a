import CorpusQuery.Query.Basic

/-! Why a text is not a query. -/

namespace CorpusQuery

inductive ParseError where
  /-- Another character stands where one of `symbols` has to. -/
  | expected (symbols : List Text) (found : Char) (position : Nat)
  | unexpectedEnd (symbols : List Text) (position : Nat)
  | unknownOperator (operator : Text) (position : Nat)
  | invalidAttributeName (name : Text) (position : Nat)
  | invalidNumber (text : Text) (position : Nat)
  /-- The lower bound of a repetition exceeds the upper one. -/
  | invalidRepeats (min max : UInt32) (position : Nat)
  | tooDeeplyNested (limit : Nat) (position : Nat)
deriving DecidableEq, Repr

namespace ParseError

def position : ParseError → Nat
  | expected _ _ position
  | unexpectedEnd _ position
  | unknownOperator _ position
  | invalidAttributeName _ position
  | invalidNumber _ position
  | invalidRepeats _ _ position
  | tooDeeplyNested _ position => position

/-- White space goes by its name, anything else stands in quotes. -/
def symbolName : Text → String
  | [' '] => "space"
  | ['\t'] => "tab"
  | ['\n'] => "newline"
  | ['\r'] => "newline"
  | symbol => "'" ++ String.ofList symbol ++ "'"

def symbolNames (symbols : List Text) : String :=
  "[" ++ ", ".intercalate (symbols.map symbolName) ++ "]"

def message : ParseError → String
  | expected symbols found position =>
    "expected one of " ++ symbolNames symbols ++ " but found '" ++ String.singleton found ++
      "' at " ++ toString position
  | unexpectedEnd symbols position =>
    "unexpected end of input, expected one of " ++ symbolNames symbols ++ " at " ++
      toString position
  | unknownOperator operator position =>
    "unknown operator '" ++ String.ofList operator ++ "' at " ++ toString position
  | invalidAttributeName name position =>
    "invalid attribute name '" ++ String.ofList name ++ "' at " ++ toString position
  | invalidNumber text position =>
    "'" ++ String.ofList text ++ "' is not a valid repetition count at " ++ toString position
  | invalidRepeats min max position =>
    "minimum repetition " ++ toString min.toNat ++ " exceeds maximum " ++ toString max.toNat ++
      " at " ++ toString position
  | tooDeeplyNested limit position =>
    "parentheses nested deeper than " ++ toString limit ++ " levels at " ++ toString position

end ParseError

end CorpusQuery
