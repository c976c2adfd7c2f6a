import CorpusQuery.Json.Basic

/-! Reading a document, to the letter of the format: no comments, no mark in front, nothing
behind. -/

namespace CorpusQuery.Json

def isSpace (c : Char) : Bool := c == ' ' || c == '\t' || c == '\n' || c == '\r'

def skipSpace (t : Text) : Text := t.dropWhile isSpace

/-- A written string and what follows its closing quote, from behind the opening one. -/
def string? : Text → Option (Text × Text)
  | '"' :: rest => some ([], rest)
  | '\\' :: 'u' :: a :: b :: c :: d :: rest =>
    match unit? a b c d, string? rest with
    | some _, some (written, rest) => some ('\\' :: 'u' :: a :: b :: c :: d :: written, rest)
    | _, _ => none
  | '\\' :: c :: rest =>
    match shortEscape? c, string? rest with
    | some _, some (written, rest) => some ('\\' :: c :: written, rest)
    | _, _ => none
  | c :: rest =>
    if c.toNat < 0x20 then none
    else match string? rest with
      | some (written, rest) => some (c :: written, rest)
      | none => none
  | [] => none

def digits (t : Text) : Text × Text := t.span Char.isDigit

/-- At least one digit. -/
def digits? (t : Text) : Option (Text × Text) :=
  match digits t with
  | ([], _) => none
  | found => some found

/-- Digits that do not begin with a needless zero. -/
def whole? : Text → Option (Text × Text)
  | '0' :: rest => some (['0'], rest)
  | t => digits? t

def fraction? : Text → Option (Text × Text)
  | '.' :: rest => do
    let (ds, rest) ← digits? rest
    some ('.' :: ds, rest)
  | t => some ([], t)

def sign : Text → Text × Text
  | '+' :: rest => (['+'], rest)
  | '-' :: rest => (['-'], rest)
  | t => ([], t)

def exponent? : Text → Option (Text × Text)
  | [] => some ([], [])
  | c :: rest =>
    if c == 'e' || c == 'E' then do
      let (s, rest) := sign rest
      let (ds, rest) ← digits? rest
      some (c :: s ++ ds, rest)
    else some ([], c :: rest)

def unsigned? (t : Text) : Option (Text × Text) := do
  let (whole, rest) ← whole? t
  let (fraction, rest) ← fraction? rest
  let (exponent, rest) ← exponent? rest
  some (whole ++ fraction ++ exponent, rest)

def number? : Text → Option (Text × Text)
  | '-' :: rest => do
    let (written, rest) ← unsigned? rest
    some ('-' :: written, rest)
  | t => unsigned? t

/-- Items behind the first, up to the closing bracket. The text left bounds their number. -/
def itemsAfter? (value? : Text → Option (Json × Text)) : Nat → Text → Option (List Json × Text)
  | 0, _ => none
  | turns + 1, t =>
    match skipSpace t with
    | ']' :: rest => some ([], rest)
    | ',' :: rest => do
      let (item, rest) ← value? rest
      let (more, rest) ← itemsAfter? value? turns rest
      some (item :: more, rest)
    | _ => none

def items? (value? : Text → Option (Json × Text)) (t : Text) : Option (List Json × Text) :=
  match skipSpace t with
  | ']' :: rest => some ([], rest)
  | t => do
    let (item, rest) ← value? t
    let (more, rest) ← itemsAfter? value? rest.length rest
    some (item :: more, rest)

def field? (value? : Text → Option (Json × Text)) (t : Text) : Option ((Text × Json) × Text) :=
  match skipSpace t with
  | '"' :: rest => do
    let (key, rest) ← string? rest
    match skipSpace rest with
    | ':' :: rest => do
      let (value, rest) ← value? rest
      some ((key, value), rest)
    | _ => none
  | _ => none

/-- Fields behind the first, up to the closing brace. -/
def fieldsAfter? (value? : Text → Option (Json × Text)) :
    Nat → Text → Option (List (Text × Json) × Text)
  | 0, _ => none
  | turns + 1, t =>
    match skipSpace t with
    | '}' :: rest => some ([], rest)
    | ',' :: rest => do
      let (field, rest) ← field? value? rest
      let (more, rest) ← fieldsAfter? value? turns rest
      some (field :: more, rest)
    | _ => none

def fields? (value? : Text → Option (Json × Text)) (t : Text) :
    Option (List (Text × Json) × Text) :=
  match skipSpace t with
  | '}' :: rest => some ([], rest)
  | t => do
    let (field, rest) ← field? value? t
    let (more, rest) ← fieldsAfter? value? rest.length rest
    some (field :: more, rest)

/-- A value nested less than `depth` deep, and what follows it. -/
def value? : Nat → Text → Option (Json × Text)
  | 0, _ => none
  | depth + 1, t =>
    match skipSpace t with
    | 'n' :: 'u' :: 'l' :: 'l' :: rest => some (.null, rest)
    | 't' :: 'r' :: 'u' :: 'e' :: rest => some (.bool true, rest)
    | 'f' :: 'a' :: 'l' :: 's' :: 'e' :: rest => some (.bool false, rest)
    | '"' :: rest => do
      let (written, rest) ← string? rest
      some (.string written, rest)
    | '[' :: rest => do
      let (items, rest) ← items? (value? depth) rest
      some (.array items, rest)
    | '{' :: rest => do
      let (fields, rest) ← fields? (value? depth) rest
      some (.object fields, rest)
    | t => do
      let (written, rest) ← number? t
      some (.number written, rest)

/-- The document a text holds. A value nests less deep than its text is long. -/
def read? (t : Text) : Option Json :=
  match value? t.length t with
  | some (v, rest) => if (skipSpace rest).isEmpty then some v else none
  | none => none

end CorpusQuery.Json
