import CorpusQuery.Text.Basic

/-! The mark of a case-sensitive value, outermost in front of it. -/

namespace CorpusQuery.CaseFlag

def mark : Text := ['(', '?', '-', 'i', ')']

def encode (sensitive : Bool) (value : Text) : Text :=
  if sensitive then mark ++ value else value

/-- A second spelling of the mark is read and never written. -/
def decode (value : Text) : Bool × Text :=
  match value with
  | '(' :: '?' :: '-' :: 'i' :: ')' :: rest => (true, rest)
  | '(' :: '?' :: 'c' :: ')' :: rest => (true, rest)
  | _ => (false, value)

theorem decode_encode_sensitive (value : Text) : decode (encode true value) = (true, value) := rfl

end CorpusQuery.CaseFlag
