import CorpusQuery.Text.Basic

/-! Patterns with `*` for any text and `?` for any character, and the regexes that say the same. -/

namespace CorpusQuery.Wildcard

/-- Characters that a regex gives a meaning to and a pattern does not. -/
def literals : Text :=
  ['^', '$', '-', '\\', '.', '(', ')', '{', '}', '[', ']', '+']

def escapeChar (c : Char) : Text := if literals.contains c then ['\\', c] else [c]

/-- Puts `replacement` wherever `old` stands. -/
def replace (old : Char) (replacement text : Text) : Text :=
  text.flatMap fun c => if c = old then replacement else [c]

/-- Three rewritings of the whole text, one after the other. -/
def toRegex (pattern : Text) : Text :=
  replace '?' ['.'] (replace '*' ['.', '*'] (pattern.flatMap escapeChar))

/-- Undoes `toRegex`. A regex that no pattern gives comes back as it stands, piece by piece. -/
def ofRegex : Text → Text
  | '\\' :: c :: rest =>
    if literals.contains c then c :: ofRegex rest else '\\' :: ofRegex (c :: rest)
  | '.' :: '*' :: rest => '*' :: ofRegex rest
  | '.' :: rest => '?' :: ofRegex rest
  | c :: rest => c :: ofRegex rest
  | [] => []

end CorpusQuery.Wildcard
