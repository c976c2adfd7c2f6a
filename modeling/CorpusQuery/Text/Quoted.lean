import CorpusQuery.Text.UnprintableTable

/-! Display of texts in double quotes, with everything that would not show written as an escape. -/

namespace CorpusQuery.Text

def quotedChar (c : Char) : Text :=
  match c with
  | '\x00' => ['\\', '0']
  | '\t' => ['\\', 't']
  | '\n' => ['\\', 'n']
  | '\r' => ['\\', 'r']
  | '"' => ['\\', '"']
  | '\\' => ['\\', '\\']
  | c =>
    if unprintablePoints.has c then
      ['\\', 'u', '{'] ++ Nat.toDigits 16 c.toNat ++ ['}']
    else [c]

def quoted (t : Text) : Text := ['"'] ++ t.flatMap quotedChar ++ ['"']

/-- Brackets around quoted texts, as in `["a", "b"]`. -/
def quotedList (ts : List Text) : Text :=
  ['['] ++ [',', ' '].intercalate (ts.map quoted) ++ [']']

example : quotedList ["a\"b".toList, "é\u0301".toList] =
    "[\"a\\\"b\", \"é\\u\x7b301\x7d\"]".toList := by
  decide +kernel

end CorpusQuery.Text
