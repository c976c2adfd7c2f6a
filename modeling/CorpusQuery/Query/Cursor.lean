import CorpusQuery.Query.ParseError
import CorpusQuery.Value.Escape

/-! A place in the text of a query, and the moves a reader makes from it. -/

namespace CorpusQuery

/-- A place in a text: the number of characters before it, and the characters after it. -/
structure Cursor where
  offset : Nat
  rest : Text
deriving DecidableEq, Repr

/-- White space between symbols. -/
def isLayout (c : Char) : Bool :=
  c == ' ' || c == '\t' || c == '\n' || c == '\r'

/-- Whether white space around a symbol is passed over. -/
inductive Layout where
  | skip
  | keep
deriving DecidableEq, Repr

namespace Cursor

def start (text : Text) : Cursor := ⟨0, text⟩

def atEnd (c : Cursor) : Bool := c.rest.isEmpty

def peek? (c : Cursor) : Option Char := c.rest.head?

/-- Whether `symbol` comes next. -/
def sees (c : Cursor) (symbol : Text) : Bool := symbol.isPrefixOf c.rest

def skipLayout (c : Cursor) : Cursor :=
  ⟨c.offset + (c.rest.takeWhile isLayout).length, c.rest.dropWhile isLayout⟩

def pass (c : Cursor) : Layout → Cursor
  | .skip => c.skipLayout
  | .keep => c

/-- Past a symbol that comes next. -/
def past (c : Cursor) (symbol : Text) : Cursor :=
  ⟨c.offset + symbol.length, c.rest.drop symbol.length⟩

/-- Takes the first of `symbols` that comes next. -/
def accept? (c : Cursor) (layout : Layout) (symbols : List Text) : Option (Text × Cursor) :=
  let here := c.pass layout
  match symbols.find? here.sees with
  | some symbol => some (symbol, (here.past symbol).pass layout)
  | none => none

/-- As `accept?`, with the error that a missing symbol is. -/
def expect (c : Cursor) (layout : Layout) (symbols : List Text) :
    Except ParseError (Text × Cursor) :=
  match c.accept? layout symbols with
  | some taken => .ok taken
  | none =>
    let here := c.pass layout
    match here.rest with
    | found :: _ => .error (.expected symbols found here.offset)
    | [] => .error (.unexpectedEnd symbols here.offset)

/-- Cuts before the first place where one of `stops` begins. -/
def cutBefore? (stops : List Text) : Text → Option (Text × Text)
  | [] => none
  | ch :: rest =>
    if stops.any (·.isPrefixOf (ch :: rest)) then some ([], ch :: rest)
    else match cutBefore? stops rest with
      | some (passed, rest) => some (ch :: passed, rest)
      | none => none

/-- Cuts before the first `stop` that is not escaped. -/
def cutUnescaped? (stop : Char) (escaped : Bool) : Text → Option (Text × Text)
  | [] => none
  | ch :: rest =>
    if !escaped && ch == stop then some ([], ch :: rest)
    else match cutUnescaped? stop (escapesNext escaped ch) rest with
      | some (passed, rest) => some (ch :: passed, rest)
      | none => none

def last (c : Cursor) : Cursor := ⟨c.offset + c.rest.length, []⟩

/-- The text up to the first of `stops`, which stays. -/
def upTo (c : Cursor) (stops : List Text) : Except ParseError (Text × Cursor) :=
  match cutBefore? stops c.rest with
  | some (passed, rest) => .ok (passed, ⟨c.offset + passed.length, rest⟩)
  | none => .error (.unexpectedEnd stops c.last.offset)

/-- The text up to the first `stop` that no backslash escapes; the stop stays. -/
def upToUnescaped (c : Cursor) (stop : Char) : Except ParseError (Text × Cursor) :=
  match cutUnescaped? stop false c.rest with
  | some (passed, rest) => .ok (passed, ⟨c.offset + passed.length, rest⟩)
  | none => .error (.unexpectedEnd [[stop]] c.last.offset)

/-- One step of a scan. -/
inductive Move where
  | accept (layout : Layout) (symbols : List Text)
  | expect (layout : Layout) (symbols : List Text)
  | upTo (stops : List Text)
  | upToUnescaped (stop : Char)
  | skipLayout
deriving DecidableEq, Repr

/-- The text a move takes, if it takes any, and the place afterwards. A missing symbol leaves the
place alone; a missing stop uses the text up. -/
def move (c : Cursor) : Move → Except ParseError (Option Text) × Cursor
  | .accept layout symbols =>
    match c.accept? layout symbols with
    | some (symbol, next) => (.ok (some symbol), next)
    | none => (.ok none, c)
  | .expect layout symbols =>
    match c.expect layout symbols with
    | .ok (symbol, next) => (.ok (some symbol), next)
    | .error e => (.error e, c)
  | .upTo stops =>
    match c.upTo stops with
    | .ok (passed, next) => (.ok (some passed), next)
    | .error e => (.error e, c.last)
  | .upToUnescaped stop =>
    match c.upToUnescaped stop with
    | .ok (passed, next) => (.ok (some passed), next)
    | .error e => (.error e, c.last)
  | .skipLayout => (.ok none, c.skipLayout)

end Cursor

end CorpusQuery
