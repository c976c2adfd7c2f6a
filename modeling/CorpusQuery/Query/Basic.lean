import CorpusQuery.Text.Basic

/-! Queries over a corpus: a sequence of tokens, each constraining the annotations of one word. -/

namespace CorpusQuery

/-- How two constraints on one word combine. Neither binds tighter than the other. -/
inductive Connective where
  | and
  | or
deriving DecidableEq, Repr

namespace Connective

def symbol : Connective → Text
  | .and => ['&']
  | .or => ['|']

def ofSymbol? : Text → Option Connective
  | ['&'] => some .and
  | ['|'] => some .or
  | _ => none

theorem ofSymbol?_symbol (c : Connective) : ofSymbol? c.symbol = some c := by
  cases c <;> rfl

end Connective

/-- Whether a value has to match or must not. -/
inductive Equality where
  | equal
  | notEqual
deriving DecidableEq, Repr

namespace Equality

def symbol : Equality → Text
  | .equal => ['=']
  | .notEqual => ['!', '=']

def ofSymbol? : Text → Option Equality
  | ['='] => some .equal
  | ['!', '='] => some .notEqual
  | _ => none

theorem ofSymbol?_symbol (e : Equality) : ofSymbol? e.symbol = some e := by
  cases e <;> rfl

end Equality

/-- Constraint on one word. The value is a regex fragment as it stands between
the quotes, with its case flag and its escaped quotes. -/
inductive Expr where
  | constraint (name : Text) (equality : Equality) (value : Text)
  | binary (operator : Connective) (left right : Expr)
deriving DecidableEq, Repr

/-- The number of constraints. -/
def Expr.size : Expr → Nat
  | .constraint _ _ _ => 1
  | .binary _ left right => left.size + right.size

/-- Markup beside a token, such as `<s>` or `</s>`. -/
structure XmlTag where
  name : Text
  closing : Bool
deriving DecidableEq, Repr

/-- How often a token may occur in a row; no `max` means any number of times. -/
structure Repeats where
  min : UInt32
  max : Option UInt32
deriving DecidableEq, Repr

namespace Repeats

def once : Repeats := ⟨1, some 1⟩

/-- The upper bound, if the lower one exceeds it. -/
def exceeded? (r : Repeats) : Option UInt32 := r.max.filter (· < r.min)

def isValid (r : Repeats) : Bool := r.exceeded?.isNone

theorem isValid_iff (r : Repeats) : r.isValid ↔ ∀ max ∈ r.max, r.min ≤ max := by
  rcases r with ⟨min, _ | max⟩ <;> simp [isValid, exceeded?]

/-- Whether `n` occurrences are admitted. -/
def Admits (r : Repeats) (n : Nat) : Prop :=
  r.min.toNat ≤ n ∧ ∀ max ∈ r.max, n ≤ max.toNat

end Repeats

/-- One word position. Without an expression any word fits. -/
structure Token where
  leadingTag : Option XmlTag
  trailingTag : Option XmlTag
  expression : Option Expr
  optional : Bool
  repeats : Option Repeats
deriving DecidableEq, Repr

structure Query where
  tokens : List Token
  /-- Name of the element a match has to lie in. -/
  within : Option Text
deriving DecidableEq, Repr

end CorpusQuery
