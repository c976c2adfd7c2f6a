import CorpusQuery.Query.Parser

/-!
Reading a query, with a record of what comes about on the way. Calls and turns of loops are not
counted out beforehand here, so that a reading might as well go on for ever; it then gives nothing.
-/

namespace CorpusQuery

/-- What a reading is at. -/
inductive Task where
  /-- A turn of the loop over a query: a token or a `within` clause. -/
  | item
  | token
  | within
  | tag
  | repetition
  | expression
  /-- A turn of the loop over an expression: a connective and the operand behind it. -/
  | link
  | operand
  | constraint
deriving DecidableEq, Repr

/-- A place in the text, and how many parentheses are open there. -/
structure Place where
  offset : Nat
  depth : Nat
deriving DecidableEq, Repr

inductive Event where
  | begun (task : Task) (start : Place)
  | ended (task : Task) (start stop : Place)
  | failed (task : Task) (start : Place) (error : ParseError)
deriving DecidableEq, Repr

/-- A reading under way, with its events in the order in which they came about. -/
structure Reading where
  cursor : Cursor
  depth : Nat
  events : List Event

/-- A part of a reading. It ends with a result, with an error or not at all. -/
abbrev ReadM (α : Type) := ExceptT ParseError (StateT Reading Option) α

namespace Reading

variable {α : Type}

def start (text : Text) : Reading := ⟨.start text, 0, []⟩

def place (r : Reading) : Place := ⟨r.cursor.offset, r.depth⟩

def note (r : Reading) (event : Event) : Reading := { r with events := r.events ++ [event] }

def goTo (r : Reading) (c : Cursor) : Reading := { r with cursor := c }

def enter (task : Task) : StateT Reading Option Place := fun r =>
  some (r.place, r.note (.begun task r.place))

def leave (task : Task) (start : Place) (result : Except ParseError α) :
    StateT Reading Option (Except ParseError α) := fun r =>
  match result with
  | .ok _ => some (result, r.note (.ended task start r.place))
  | .error e => some (result, r.note (.failed task start e))

/-- A task from its beginning to its end. -/
def during (task : Task) (m : ReadM α) : ReadM α := (do
  let start ← enter task
  let result ← m.run
  leave task start result : StateT Reading Option (Except ParseError α))

/-- What calls nothing that goes on record. -/
def reads (f : Cursor → Except ParseError (α × Cursor)) : ReadM α := fun r =>
  match f r.cursor with
  | .ok (x, c) => some (.ok x, r.goTo c)
  | .error e => some (.error e, r)

def skipLayout : ReadM Unit := reads fun c => .ok ((), c.skipLayout)

def accept (symbols : List Text) : ReadM (Option Text) := reads fun c =>
  match c.accept? .skip symbols with
  | some (symbol, c) => .ok (some symbol, c)
  | none => .ok (none, c)

def expect (symbol : Text) : ReadM Text := reads (·.expect .skip [symbol])

/-- One more parenthesis is open, the one at the given position. -/
def nest (position : Nat) : ReadM Unit := fun r =>
  if r.depth ≥ Parser.maxNesting then
    some (.error (.tooDeeplyNested Parser.maxNesting position), r)
  else some (.ok (), { r with depth := r.depth + 1 })

def unnest : ReadM Unit := fun r => some (.ok (), { r with depth := r.depth - 1 })

/-! ### Expressions -/

/-- A part of an expression that is about to be read. -/
inductive Part where
  | expression
  /-- The loop over what follows the operand `left`. -/
  | links (left : Expr)
  /-- A turn of that loop; the connective ends at `behind`. -/
  | link (left : Expr) (symbol : Text) (behind : Cursor)
  | operand
  /-- What stands behind an opening parenthesis, with the closing one. -/
  | enclosed (position : Nat)

-- A task that goes back to the function is written out: a fixed point is not looked for below
-- `during`.
def Part.read : Part → ReadM Expr
  | .expression => (do
    let start ← enter .expression
    let result ← ExceptT.run do
      let first ← Part.operand |>.read
      Part.links first |>.read
    leave .expression start result : StateT Reading Option (Except ParseError Expr))
  | .links left => do
    let here ← get
    match here.cursor.accept? .skip [['&'], ['|']] with
    | none => return left
    | some (symbol, behind) =>
      let joined ← Part.link left symbol behind |>.read
      Part.links joined |>.read
  | .link left symbol behind => (do
    let start ← enter .link
    let result ← ExceptT.run do
      modify (·.goTo behind)
      let right ← Part.operand |>.read
      return .binary (if symbol = ['&'] then .and else .or) left right
    leave .link start result : StateT Reading Option (Except ParseError Expr))
  | .operand => (do
    let start ← enter .operand
    let result ← ExceptT.run do
      skipLayout
      let here ← get
      match ← accept [['(']] with
      | some _ => Part.enclosed here.cursor.offset |>.read
      | none => during .constraint (reads Parser.constraint)
    leave .operand start result : StateT Reading Option (Except ParseError Expr))
  | .enclosed position => do
    nest position
    let e ← Part.expression |>.read
    let _ ← expect [')']
    unnest
    return e
partial_fixpoint

/-! ### Tokens -/

def tagAt (symbol : Text) : ReadM (Option XmlTag) := do
  if (← get).cursor.sees symbol then
    let tag ← during .tag (reads Parser.tag)
    return some tag
  else return none

def body (default : Text) : ReadM (Option Expr) := do
  match ← accept [['[']] with
  | some _ =>
    match ← accept [[']']] with
    | some _ => return none
    | none =>
      let e ← Part.expression.read
      let _ ← expect [']']
      return some e
  | none =>
    let _ ← reads (·.expect .keep [['"']])
    let word ← reads (Parser.quotedRest .skip)
    return some (.constraint default .equal word)

def repetition : ReadM (Option Repeats × Bool) := during .repetition do
  let repeats ← reads Parser.repeats
  let optional ← reads fun c => .ok (Parser.mark ['?'] c)
  return (repeats, optional)

def token (default : Text) : ReadM Token := during .token do
  skipLayout
  let leadingTag ← tagAt ['<']
  let expression ← body default
  let (repeats, optional) ← repetition
  skipLayout
  let trailingTag ← tagAt ['<', '/']
  return ⟨leadingTag, trailingTag, expression, optional, repeats⟩

/-! ### Queries -/

def item (default : Text) : ReadM Parser.Item := during .item do
  if (← get).cursor.sees Parser.withinSymbol then
    let name ← during .within (reads Parser.within)
    return .within name
  else
    let t ← token default
    return .token t

end Reading

/-- The last `within` clause counts. -/
def Query.add (q : Query) : Parser.Item → Query
  | .token t => { q with tokens := q.tokens ++ [t] }
  | .within name => { q with within := some name }

/-- The loop over a query, behind what has been read of it. -/
def Query.readOn (q : Query) (default : Text) : ReadM Query := do
  Reading.skipLayout
  if (← get).cursor.atEnd then return q
  else
    let next ← Reading.item default
    q.add next |>.readOn default
partial_fixpoint

def Reading.query (default : Text) : ReadM (Option Query) := do
  skipLayout
  if (← get).cursor.atEnd then return none
  else
    let first ← token default
    let q ← Query.readOn ⟨[first], none⟩ default
    return some q

end CorpusQuery
