import CorpusQuery.Text.Basic

/-! JSON documents, and the escapes of their strings. -/

namespace CorpusQuery

/-- A document. Numbers and strings are kept as they are written, a string without its quotes;
fields are kept in order, repeated ones included. -/
inductive Json where
  | null
  | bool (value : Bool)
  | number (written : Text)
  | string (written : Text)
  | array (items : List Json)
  | object (fields : List (Text × Json))
deriving Repr

namespace Json

def hexDigit (n : Nat) : Char := Nat.digitChar n

/-- Only quotes, backslashes and control characters need an escape. -/
def escapeChar (c : Char) : Text :=
  match c with
  | '"' => ['\\', '"']
  | '\\' => ['\\', '\\']
  | '\x08' => ['\\', 'b']
  | '\x09' => ['\\', 't']
  | '\x0a' => ['\\', 'n']
  | '\x0c' => ['\\', 'f']
  | '\x0d' => ['\\', 'r']
  | c =>
    if c.toNat < 0x20 then
      ['\\', 'u', '0', '0', hexDigit (c.toNat / 16), hexDigit (c.toNat % 16)]
    else [c]

def escape (t : Text) : Text := t.flatMap escapeChar

def hexValue? (c : Char) : Option Nat :=
  if c.isDigit then some (c.toNat - '0'.toNat)
  else if 'a' ≤ c ∧ c ≤ 'f' then some (c.toNat - 'a'.toNat + 10)
  else if 'A' ≤ c ∧ c ≤ 'F' then some (c.toNat - 'A'.toNat + 10)
  else none

/-- Four hexadecimal digits. -/
def unit? (a b c d : Char) : Option Nat :=
  match hexValue? a, hexValue? b, hexValue? c, hexValue? d with
  | some a, some b, some c, some d => some (((a * 16 + b) * 16 + c) * 16 + d)
  | _, _, _, _ => none

/-- The character behind a backslash in a short escape, and what it stands for. -/
def shortEscape? : Char → Option Char
  | '"' => some '"'
  | '\\' => some '\\'
  | '/' => some '/'
  | 'b' => some '\x08'
  | 'f' => some '\x0c'
  | 'n' => some '\x0a'
  | 'r' => some '\x0d'
  | 't' => some '\x09'
  | _ => none

def isHighSurrogate (unit : Nat) : Bool := 0xd800 ≤ unit && unit < 0xdc00

def isLowSurrogate (unit : Nat) : Bool := 0xdc00 ≤ unit && unit < 0xe000

/-- The character that two surrogates stand for. -/
def pairChar (high low : Nat) : Char :=
  Char.ofNat (0x10000 + (high - 0xd800) * 0x400 + (low - 0xdc00))

/-- The text of what is left of a written string, where `high` still waits for its partner. -/
def unescapeFrom? : Option Nat → Text → Option Text
  | none, [] => some []
  | none, '\\' :: 'u' :: a :: b :: c :: d :: rest =>
    match unit? a b c d with
    | some unit =>
      if isHighSurrogate unit then unescapeFrom? (some unit) rest
      else if isLowSurrogate unit then none
      else (unescapeFrom? none rest).map (Char.ofNat unit :: ·)
    | none => none
  | some high, '\\' :: 'u' :: a :: b :: c :: d :: rest =>
    match unit? a b c d with
    | some low =>
      if isLowSurrogate low then (unescapeFrom? none rest).map (pairChar high low :: ·) else none
    | none => none
  | none, '\\' :: c :: rest =>
    match shortEscape? c with
    | some plain => (unescapeFrom? none rest).map (plain :: ·)
    | none => none
  | none, c :: rest => (unescapeFrom? none rest).map (c :: ·)
  | some _, _ => none

/-- The text a written string stands for. A surrogate without its partner stands for none. -/
def unescape? (written : Text) : Option Text := unescapeFrom? none written

def text (t : Text) : Json := .string (escape t)

def nat (n : Nat) : Json := .number (Text.decimal n)

def orNull {α : Type} (write : α → Json) : Option α → Json
  | some a => write a
  | none => .null

end Json

end CorpusQuery
