import CorpusQuery.Value.Escape

/-! Double quotes inside a quoted value. -/

namespace CorpusQuery.Quotes

def escapeFrom (escaped : Bool) : Text → Text
  | [] => []
  | c :: rest =>
    (if c == '"' && !escaped then ['\\', c] else [c]) ++ escapeFrom (escapesNext escaped c) rest

/-- Puts a backslash in front of every quote that is not escaped already. -/
def escape (value : Text) : Text := escapeFrom false value

/-- Takes the backslash off every quote that has one right in front. -/
def unescape : Text → Text
  | '\\' :: '"' :: rest => '"' :: unescape rest
  | c :: rest => c :: unescape rest
  | [] => []

end CorpusQuery.Quotes
