import CorpusQuery.Query.Cursor
import CorpusQuery.Text.Blank

/-!
Reading a query.

    query      := token (token | within)*
    token      := tag? ('[' expression? ']' | '"' word '"') repetition? closing tag?
    repetition := ('{' n '}' | '{' n ',' n? '}' | '*' | '+')? '?'?
    expression := operand (('&' | '|') operand)*
    operand    := '(' expression ')' | name ('=' | '!=') '"' value '"'
    within     := 'within' '<' name '/' '>'

White space may stand between symbols. The first fault ends the reading.
-/

namespace CorpusQuery

namespace Parser

/-- Deepest nesting of parentheses. -/
def maxNesting : Nat := 256

/-- Largest bound of a repetition. -/
def maxCount : Nat := 4294967295

def layoutStops : List Text := [[' '], ['\t'], ['\n'], ['\r']]

/-- Characters with a meaning of their own, which no attribute name holds. -/
def reserved : Text := ['"', '[', ']', '(', ')', '&', '|', '<', '>', '{', '}']

def isName (name : Text) : Bool :=
  !name.isEmpty && name.all fun c => !Text.isBlank c && !reserved.contains c

/-- A value with its closing quote, from behind the opening one. -/
def quotedRest (layout : Layout) (c : Cursor) : Except ParseError (Text × Cursor) := do
  let (value, c) ← c.upToUnescaped '"'
  let (_, c) ← c.expect layout [['"']]
  return (value, c)

def constraint (c : Cursor) : Except ParseError (Expr × Cursor) := do
  let atName := c.skipLayout
  let (name, atOperator) ← atName.upTo [['='], ['!']]
  let name := Text.trim name
  if isName name then
    let (operator, c) ← atOperator.upTo [['"']]
    let operator := Text.trim operator
    match Equality.ofSymbol? operator with
    | some equality =>
      let (_, c) ← c.expect .keep [['"']]
      let (value, c) ← quotedRest .keep c
      return (.constraint name equality value, c)
    | none => throw (.unknownOperator operator atOperator.offset)
  else
    throw (.invalidAttributeName name atName.offset)

/-- An operand; `enclosed` reads on behind an opening parenthesis at the given position. -/
def operand (enclosed : Nat → Cursor → Except ParseError (Expr × Cursor)) (c : Cursor) :
    Except ParseError (Expr × Cursor) :=
  let here := c.skipLayout
  match here.accept? .skip [['(']] with
  | some (_, inside) => enclosed here.offset inside
  | none => constraint here

/-- What follows the operand `left`, joined to it from the left. Each turn uses up a connective, so
that the text left over bounds the number of turns. -/
def chain (next : Cursor → Except ParseError (Expr × Cursor)) :
    Nat → Expr → Cursor → Except ParseError (Expr × Cursor)
  | 0, left, c => .ok (left, c)
  | turns + 1, left, c =>
    match c.accept? .skip [['&'], ['|']] with
    | none => .ok (left, c)
    | some (symbol, c) => do
      let (right, c) ← next c
      chain next turns (.binary (if symbol = ['&'] then .and else .or) left right) c

def chainOf (next : Cursor → Except ParseError (Expr × Cursor)) (c : Cursor) :
    Except ParseError (Expr × Cursor) := do
  let (first, c) ← next c
  chain next c.rest.length first c

/-- An operand below which parentheses may nest `levels` deep. -/
def operandWithin : Nat → Cursor → Except ParseError (Expr × Cursor)
  | 0 => operand fun position _ => .error (.tooDeeplyNested maxNesting position)
  | levels + 1 => operand fun _ inside => do
    let (expression, c) ← chainOf (operandWithin levels) inside
    let (_, c) ← c.expect .skip [[')']]
    return (expression, c)

def expression (c : Cursor) : Except ParseError (Expr × Cursor) :=
  chainOf (operandWithin maxNesting) c

/-- Whether a symbol comes next, and the place behind it. -/
def mark (symbol : Text) (c : Cursor) : Bool × Cursor :=
  match c.accept? .skip [symbol] with
  | some (_, c) => (true, c)
  | none => (false, c)

def tag (c : Cursor) : Except ParseError (XmlTag × Cursor) := do
  let (_, c) ← c.expect .skip [['<']]
  let (closing, c) := mark ['/'] c
  let (name, c) ← c.upTo (layoutStops ++ [['>']])
  let (_, c) ← c.expect .skip [['>']]
  return (⟨name, closing⟩, c)

/-- Value of decimal digits, if there are only such. -/
def digits? (t : Text) : Option Nat :=
  if t.all Char.isDigit && !t.isEmpty then
    some (t.foldl (fun n c => 10 * n + (c.toNat - '0'.toNat)) 0)
  else none

/-- A bound of a repetition: decimal digits, with a plus sign or without. -/
def count? (t : Text) : Option UInt32 :=
  let digits := match t with
    | '+' :: rest => rest
    | _ => t
  match digits? digits with
  | some n => if n ≤ maxCount then some (UInt32.ofNat n) else none
  | none => none

/-- The bound written as `text` at `position`. -/
def count (position : Nat) (text : Text) : Except ParseError UInt32 :=
  match count? (Text.trim text) with
  | some n => .ok n
  | none => .error (.invalidNumber (Text.trim text) position)

/-- The upper bound after the lower bound `min`; a comma with nothing behind it lifts the bound. -/
def upperBound (min : UInt32) (c : Cursor) : Except ParseError (Option UInt32 × Cursor) :=
  match c.accept? .skip [[',']] with
  | none => return (some min, c)
  | some (_, atMax) => do
    let (text, c) ← atMax.upTo [['}']]
    if Text.allBlank text then return (none, c)
    else
      let max ← count atMax.offset text
      return (some max, c)

/-- Bounds in braces, from behind the opening brace at `position`. -/
def bounds (position : Nat) (c : Cursor) : Except ParseError (Repeats × Cursor) := do
  let (text, atEnd) ← c.upTo [[','], ['}']]
  let min ← count c.offset text
  let (max, c) ← upperBound min atEnd
  let (_, c) ← c.expect .skip [['}']]
  let r : Repeats := ⟨min, max⟩
  match r.exceeded? with
  | some top => throw (.invalidRepeats min top position)
  | none => return (r, c)

def repeats (c : Cursor) : Except ParseError (Option Repeats × Cursor) :=
  match c.accept? .skip [['{']] with
  | some (_, inside) => do
    let (r, c) ← bounds c.offset inside
    return (some r, c)
  | none =>
    match c.accept? .skip [['*']] with
    | some (_, c) => return (some ⟨0, none⟩, c)
    | none =>
      match c.accept? .skip [['+']] with
      | some (_, c) => return (some ⟨1, none⟩, c)
      | none => return (none, c)

/-- A tag, if the cursor stands at `symbol`. -/
def tagAt (symbol : Text) (c : Cursor) : Except ParseError (Option XmlTag × Cursor) :=
  if c.sees symbol then do
    let (t, c) ← tag c
    return (some t, c)
  else return (none, c)

/-- The constraint of a token. A word in quotes constrains the attribute `default`. -/
def body (default : Text) (c : Cursor) : Except ParseError (Option Expr × Cursor) :=
  match c.accept? .skip [['[']] with
  | some (_, c) =>
    match c.accept? .skip [[']']] with
    | some (_, c) => return (none, c)
    | none => do
      let (e, c) ← expression c
      let (_, c) ← c.expect .skip [[']']]
      return (some e, c)
  | none => do
    let (_, c) ← c.expect .keep [['"']]
    let (word, c) ← quotedRest .skip c
    return (some (.constraint default .equal word), c)

/-- A closing tag right behind a token belongs to it, an opening tag to the next one. -/
def token (default : Text) (c : Cursor) : Except ParseError (Token × Cursor) := do
  let (leadingTag, c) ← tagAt ['<'] c.skipLayout
  let (expression, c) ← body default c
  let (repeats, c) ← repeats c
  let (optional, c) := mark ['?'] c
  let (trailingTag, c) ← tagAt ['<', '/'] c.skipLayout
  return (⟨leadingTag, trailingTag, expression, optional, repeats⟩, c)

def withinSymbol : Text := ['w', 'i', 't', 'h', 'i', 'n']

/-- The element name of a `within` clause. -/
def within (c : Cursor) : Except ParseError (Text × Cursor) := do
  let (_, c) ← c.expect .skip [withinSymbol]
  let (_, c) ← c.expect .skip [['<']]
  let (name, c) ← c.upTo (layoutStops ++ [['/']])
  let (_, c) ← c.expect .skip [['/']]
  let (_, c) ← c.expect .skip [['>']]
  return (name, c)

/-- What a query is a sequence of. -/
inductive Item where
  | token (token : Token)
  | within (name : Text)
deriving DecidableEq, Repr

def item (default : Text) (c : Cursor) : Except ParseError (Item × Cursor) :=
  if c.sees withinSymbol then do
    let (name, c) ← within c
    return (.within name, c)
  else do
    let (t, c) ← token default c
    return (.token t, c)

/-- All items up to the end. Each uses text up, so that its length bounds their number. -/
def items (default : Text) : Nat → Cursor → Except ParseError (List Item)
  | 0, _ => .ok []
  | turns + 1, c =>
    let here := c.skipLayout
    if here.atEnd then .ok []
    else do
      let (first, c) ← item default here
      let rest ← items default turns c
      return first :: rest

def Item.token? : Item → Option Token
  | .token t => some t
  | .within _ => none

def Item.within? : Item → Option Text
  | .token _ => none
  | .within name => some name

end Parser

namespace Query

/-- Attribute of a word in quotes where nothing else is configured. -/
def defaultAttribute : Text := ['w', 'o', 'r', 'd']

/-- The last `within` clause counts. -/
def ofItems (first : Token) (items : List Parser.Item) : Query where
  tokens := first :: items.filterMap Parser.Item.token?
  within := (items.filterMap Parser.Item.within?).getLast?

/-- Reads a query; a text of white space alone holds none. A query begins with a token. -/
def parse (default : Text) (text : Text) : Except ParseError (Option Query) :=
  let c := (Cursor.start text).skipLayout
  if c.atEnd then return none
  else do
    let (first, c) ← Parser.token default c
    let items ← Parser.items default c.rest.length c
    return some (ofItems first items)

end Query

end CorpusQuery
