import CorpusQuery.Value.Escape

/-! Alternations of literals: each literal matches only itself, and bars stand between them. -/

namespace CorpusQuery.Alternation

/-- Characters a regex gives a meaning to. -/
def metacharacters : Text :=
  ['^', '$', '-', '\\', '.', '(', ')', '{', '}', '[', ']', '+', '*', '?', '|']

def escapeChar (c : Char) : Text :=
  if metacharacters.contains c then ['\\', c] else [c]

/-- The regex that matches `literal` alone. -/
def escape (literal : Text) : Text := literal.flatMap escapeChar

def encode (literals : List Text) : Text := ['|'].intercalate (literals.map escape)

/-- Cuts at every bar that is not escaped, and takes the escaping backslashes off. -/
def decode : Text → List Text
  | [] => [[]]
  | ['\\'] => [[]]
  | '\\' :: c :: rest => Text.consFirst c (decode rest)
  | '|' :: rest => [] :: decode rest
  | c :: rest => Text.consFirst c (decode rest)

def hasBarFrom (escaped : Bool) : Text → Bool
  | [] => false
  | c :: rest => (c == '|' && !escaped) || hasBarFrom (escapesNext escaped c) rest

/-- Whether a bar that is not escaped occurs. -/
def hasBar (value : Text) : Bool := hasBarFrom false value

end CorpusQuery.Alternation
