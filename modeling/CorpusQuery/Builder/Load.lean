import CorpusQuery.Builder.Basic
import CorpusQuery.Query.Parser

/-! Filling a builder with a query. -/

namespace CorpusQuery

namespace Attribute

/-- A value of an attribute with known values is taken apart where it is an alternation of exactly
escaped literals; these come in their listed spelling unless case counts. -/
def valueOf (a : Attribute) (caseSensitive : Bool) (written : Text) : Value :=
  let literals := Alternation.decode written
  if a.hasValueList && Alternation.encode literals == written then
    .multiple (if caseSensitive then literals else literals.map fun l => (a.canonical? l).getD l)
  else .text written

def constraintOf (a : Attribute) (equality : Equality) (written : Text) : Constraint :=
  let (caseSensitive, rest) := CaseFlag.decode (Quotes.unescape written)
  let (comparator, rest) := (Comparator.ofEquality equality).decode rest
  ⟨a.id, comparator, caseSensitive, a.valueOf caseSensitive rest, none⟩

end Attribute

/-- None where the attribute is not configured. -/
def Settings.constraint? (s : Settings) (name : Text) (equality : Equality) (written : Text) :
    Option Constraint :=
  (s.attribute? name).map (·.constraintOf equality written)

/-- The query a text holds; none if nothing is written. -/
def Settings.readQuery (s : Settings) : Option Text → Except BuilderError (Option Query)
  | none => .ok none
  | some text =>
    if Text.allBlank text then .ok none
    else (Query.parse s.defaultAttribute text).mapError .parse

def sentenceTag : Text := ['s']

def isSentenceTag (closing : Bool) (tag : Option XmlTag) : Bool :=
  tag == some ⟨sentenceTag, closing⟩

namespace Token

def bounds (t : Token) : Repeats := t.repeats.getD .once

/-- What keeps a token out of a builder. -/
def fault? (t : Token) : Option BuilderError :=
  t.bounds.exceeded?.map (.invalidRepeats t.bounds.min)

end Token

namespace ArenaM

/-- The group that takes the operands of `operator`: the root itself at level 0, which takes the
connective over, else a new group in front of all others if `group` is joined otherwise. -/
def groupFor (label : Connective → Text) (group : NodeId) (operator : Connective) :
    Nat → ArenaM NodeId
  | 0 => do
    retype label group operator
    return group
  | _ + 1 => do
    let g ← EditM.look (·.group group)
    if g.operator = operator then return group
    else
      let subgroup ← newGroup label operator
      attach group subgroup (some 0)
      return subgroup

/-- Puts expressions into groups, each at its level. What comes goes to the front of its group, so
that the right operand is taken before the left one. -/
def load (s : Settings) : List (Expr × NodeId × Nat) → ArenaM Unit
  | [] => return
  | (.binary operator left right, group, level) :: rest => do
    let target ← groupFor s.operatorLabel group operator level
    load s ((right, target, level + 1) :: (left, target, level + 1) :: rest)
  | (.constraint name equality value, group, _) :: rest => do
    match s.constraint? name equality value with
    | some c =>
      let leaf ← new (.leaf c)
      attach group leaf (some 0)
    | none => pure ()
    load s rest
termination_by pending => pending.foldr (fun (e, _) size => sizeOf e + size) 0
decreasing_by
  · simp only [List.foldr_cons, Expr.binary.sizeOf_spec]
    omega
  · simp only [List.foldr_cons, Expr.constraint.sizeOf_spec]
    omega

end ArenaM

namespace BuilderM

open ArenaM (new)

/-- Adds a token with a group of the given loose nodes. -/
def pushRoot (children : List NodeId) : BuilderM NodeId := do
  let s := (← get).settings
  let root ← onArena (new (.group ⟨s.rootOperator, s.operatorLabel s.rootOperator, true, children⟩))
  modify fun b =>
    { b with
      arena := children.foldl (fun a child => a.setParent child (some root)) b.arena
      slots := b.slots ++ [.ofRoot root] }
  return root

/-- Adds a token with one blank constraint, and gives its position. -/
def createToken : BuilderM Nat := do
  let b ← get
  let leaf ← onArena (new (.leaf (.blank b.settings.defaultAttribute)))
  let _ ← pushRoot [leaf]
  return b.slots.length

def reset : BuilderM Unit := do
  modify fun b => .empty b.settings
  let _ ← createToken
  return

def setWithin (name : Option Text) : BuilderM Unit :=
  modify ({ · with within := name.filter (!·.isEmpty) })

/-- Adds a token of a query. Of tags only those of sentences have a place in a builder. -/
def pushToken (t : Token) : BuilderM Unit := do
  match t.fault? with
  | some e => throw e
  | none =>
    let index := (← get).slots.length
    let root ← pushRoot []
    onSlots (Slot.set · index fun s =>
      { s with
        repeats := t.bounds
        optional := t.optional
        opensSentence := isSentenceTag false t.leadingTag
        closesSentence := isSentenceTag true t.trailingTag })
    match t.expression with
    | some e => onArena (ArenaM.load (← get).settings [(e, root, 0)])
    | none => return

def pushTokens : List Token → BuilderM Unit
  | [] => return
  | t :: rest => do
    pushToken t
    pushTokens rest

/-- Adds the tokens of a query. -/
def build (q : Query) : BuilderM Unit := do
  pushTokens q.tokens
  setWithin q.within

/-- Takes a query in place of what was there, once all of it is built. No query stands for a blank
token. -/
def populate : Option Query → BuilderM Unit
  | none => reset
  | some q => do
    match build q (.empty (← get).settings) with
    | .ok () staged => set staged
    | .error e _ => throw e

/-- Takes the query a text holds in place of what was there. -/
def parse (text : Option Text) : BuilderM Unit := do
  populate (← EditM.look fun b => b.settings.readQuery text)

end BuilderM

/-- A builder with one blank token. -/
def Builder.new (s : Settings) : Builder :=
  match BuilderM.createToken (.empty s) with
  | .ok _ b => b
  | .error _ b => b

end CorpusQuery
