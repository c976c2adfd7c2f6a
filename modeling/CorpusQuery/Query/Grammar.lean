import CorpusQuery.Query.Parser

/-!
The grammar of queries, as a relation between texts and what they stand for. Each rule shows a text
piece by piece; pieces called `w` are the white space that may stand there.
-/

namespace CorpusQuery

namespace Grammar

def Gap (w : Text) : Prop := ∀ c ∈ w, isLayout c

/-- What may stand in quotes: a quote only behind a backslash, and some character behind each
backslash. -/
inductive Value : Text → Prop where
  | nil : Value []
  | plain (c : Char) (rest : Text) (hquote : c ≠ '"') (hbackslash : c ≠ '\\') (h : Value rest) :
    Value (c :: rest)
  | escaped (c : Char) (rest : Text) (h : Value rest) : Value ('\\' :: c :: rest)

/-! ### Expressions -/

/-- The name ends at the first sign of an operator, and the operator at the first quote. Both are
trimmed of white space of any kind. -/
inductive Constraint : Text → Expr → Prop where
  | mk (name symbol value : Text) (equality : Equality) (hequals : '=' ∉ name) (hbang : '!' ∉ name)
      (hname : Text.trim name ≠ [])
      (hchars : ∀ c ∈ Text.trim name, Text.isBlank c = false ∧ c ∉ Parser.reserved)
      (hquote : '"' ∉ symbol) (hsymbol : Text.trim symbol = equality.symbol)
      (hvalue : Value value) :
    Constraint (name ++ (symbol ++ '"' :: (value ++ ['"'])))
      (.constraint (Text.trim name) equality value)

inductive Enclosed (P : Text → Expr → Prop) : Text → Expr → Prop where
  | mk (w t w' : Text) (e : Expr) (hw : Gap w) (ht : P t e) (hw' : Gap w') :
    Enclosed P ('(' :: (w ++ (t ++ (w' ++ [')'])))) e

/-- Operands that are joined to what stands to their left, without precedence. -/
inductive Chain (P : Text → Expr → Prop) : Expr → Text → Expr → Prop where
  | nil (left : Expr) : Chain P left [] left
  | cons (left right e : Expr) (w w' t rest : Text) (operator : Connective) (hw : Gap w)
      (hw' : Gap w') (ht : P t right) (hrest : Chain P (.binary operator left right) rest e) :
    Chain P left (w ++ (operator.symbol ++ (w' ++ (t ++ rest)))) e

inductive ChainOf (P : Text → Expr → Prop) : Text → Expr → Prop where
  | mk (first e : Expr) (t rest : Text) (ht : P t first) (hrest : Chain P first rest e) :
    ChainOf P (t ++ rest) e

/-- An operand in which parentheses nest `levels` deep at most. -/
def Operand : Nat → Text → Expr → Prop
  | 0 => Constraint
  | levels + 1 => fun t e => Constraint t e ∨ Enclosed (ChainOf (Operand levels)) t e

def Expression : Text → Expr → Prop := ChainOf (Operand Parser.maxNesting)

/-! ### Tokens -/

/-- A tag without a slash is an opening one; its name does not begin with a slash. -/
inductive Tag : Text → XmlTag → Prop where
  | opening (w name w' : Text) (hw : Gap w) (hname : ∀ c ∈ name, isLayout c = false ∧ c ≠ '>')
      (hslash : name.head? ≠ some '/') (hw' : Gap w') :
    Tag ('<' :: (w ++ (name ++ (w' ++ ['>'])))) ⟨name, false⟩
  | closing (w w' name w'' : Text) (hw : Gap w) (hw' : Gap w')
      (hname : ∀ c ∈ name, isLayout c = false ∧ c ≠ '>') (hw'' : Gap w'') :
    Tag ('<' :: (w ++ '/' :: (w' ++ (name ++ (w'' ++ ['>']))))) ⟨name, true⟩

/-- The slash of a tag behind a token follows at once. -/
def TrailingTag (t : Text) (tag : XmlTag) : Prop := Tag t tag ∧ ['<', '/'] <+: t

/-- Decimal digits, with a plus sign or without, of a number below 2^32. -/
inductive Count : Text → UInt32 → Prop where
  | mk (t : Text) (n : UInt32) (sign digits : Text) (hsign : sign = [] ∨ sign = ['+'])
      (hne : digits ≠ []) (hdigits : ∀ c ∈ digits, c.isDigit) (ht : Text.trim t = sign ++ digits)
      (hn : Nat.ofDigitChars 10 digits 0 = n.toNat) : Count t n

/-- An upper bound of white space alone is none. -/
inductive Bounds : Text → Repeats → Prop where
  | exactly (w t : Text) (n : UInt32) (hw : Gap w) (ht : Count t n) :
    Bounds ('{' :: (w ++ (t ++ ['}']))) ⟨n, some n⟩
  | atLeast (w t w' blank : Text) (n : UInt32) (hw : Gap w) (ht : Count t n) (hw' : Gap w')
      (hblank : Text.allBlank blank) :
    Bounds ('{' :: (w ++ (t ++ ',' :: (w' ++ (blank ++ ['}']))))) ⟨n, none⟩
  | between (w t w' t' : Text) (n m : UInt32) (hw : Gap w) (ht : Count t n) (hw' : Gap w')
      (ht' : Count t' m) (hle : n ≤ m) :
    Bounds ('{' :: (w ++ (t ++ ',' :: (w' ++ (t' ++ ['}']))))) ⟨n, some m⟩
  | star : Bounds ['*'] ⟨0, none⟩
  | plus : Bounds ['+'] ⟨1, none⟩

inductive Mark : Text → Unit → Prop where
  | mk : Mark ['?'] ()

/-- A piece that may be left out, with white space in front. -/
inductive Behind {α : Type} (P : Text → α → Prop) : Text → Option α → Prop where
  | absent : Behind P [] none
  | present (w t : Text) (x : α) (hw : Gap w) (ht : P t x) : Behind P (w ++ t) (some x)

/-- A piece that may be left out, with white space behind. -/
inductive Ahead {α : Type} (P : Text → α → Prop) : Text → Option α → Prop where
  | absent : Ahead P [] none
  | present (t w : Text) (x : α) (ht : P t x) (hw : Gap w) : Ahead P (t ++ w) (some x)

/-- A word in quotes constrains the attribute `default`. -/
inductive Body (default : Text) : Text → Option Expr → Prop where
  | any (w : Text) (hw : Gap w) : Body default ('[' :: (w ++ [']'])) none
  | brackets (w t w' : Text) (e : Expr) (hw : Gap w) (ht : Expression t e) (hw' : Gap w') :
    Body default ('[' :: (w ++ (t ++ (w' ++ [']'])))) (some e)
  | word (value : Text) (hvalue : Value value) :
    Body default ('"' :: (value ++ ['"'])) (some (.constraint default .equal value))

inductive Token (default : Text) : Text → CorpusQuery.Token → Prop where
  | mk (ahead body bounds mark behind : Text) (leading trailing : Option XmlTag) (e : Option Expr)
      (r : Option Repeats) (optional : Option Unit) (hahead : Ahead Tag ahead leading)
      (hbody : Body default body e) (hbounds : Behind Bounds bounds r)
      (hmark : Behind Mark mark optional) (hbehind : Behind TrailingTag behind trailing) :
    Token default (ahead ++ (body ++ (bounds ++ (mark ++ behind))))
      ⟨leading, trailing, e, optional.isSome, r⟩

/-! ### Queries -/

inductive Within : Text → Text → Prop where
  | mk (w w' name v v' : Text) (hw : Gap w) (hw' : Gap w')
      (hname : ∀ c ∈ name, isLayout c = false ∧ c ≠ '/') (hv : Gap v) (hv' : Gap v') :
    Within (Parser.withinSymbol ++ (w ++ '<' :: (w' ++ (name ++ (v ++ '/' :: (v' ++ ['>'])))))) name

/-- A closing tag right behind a token belongs to the token, not to the next one. -/
inductive Items (default : Text) : Text → List Parser.Item → Prop where
  | nil (w : Text) (hw : Gap w) : Items default w []
  | token (w t rest : Text) (x : CorpusQuery.Token) (items : List Parser.Item) (hw : Gap w)
      (ht : Token default t x)
      (hbehind : x.trailingTag = none → ¬ ['<', '/'] <+: rest.dropWhile isLayout)
      (hrest : Items default rest items) : Items default (w ++ (t ++ rest)) (.token x :: items)
  | within (w t rest name : Text) (items : List Parser.Item) (hw : Gap w) (ht : Within t name)
      (hrest : Items default rest items) : Items default (w ++ (t ++ rest)) (.within name :: items)

/-- A query begins with a token. The last `within` clause counts. -/
inductive Query (default : Text) : Text → CorpusQuery.Query → Prop where
  | mk (text : Text) (first : CorpusQuery.Token) (items : List Parser.Item)
      (h : Items default text (.token first :: items)) :
    Query default text (.ofItems first items)

end Grammar

end CorpusQuery
