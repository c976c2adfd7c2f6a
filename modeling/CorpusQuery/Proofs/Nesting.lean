import CorpusQuery.Proofs.Grammar.Complete
import CorpusQuery.Proofs.Normal

/-!
How deep parentheses nest in the normal spelling of a query. Chains of operators have no limit, but
the parentheses that tell their connectives apart have one: beyond it nothing can be read again.
-/

namespace CorpusQuery

namespace Term

theorem length_operand? (operator : Connective) (ts : List Term) :
    (operand? operator ts).toList.length = min 1 ts.length := by
  match ts with
  | [] => rfl
  | [t] => rfl
  | t :: u :: rest =>
    show 1 = min 1 (rest.length + 1 + 1)
    omega

/-- Two operands and more take one pair of parentheses. -/
theorem restDepth_operand?_eq (operator : Connective) (ts : List Term) :
    restDepth (operand? operator ts).toList =
      if 2 ≤ ts.length then restDepth ts + 1 else restDepth ts := by
  match ts with
  | [] => rfl
  | [t] => rfl
  | t :: u :: rest => simp [operand?, join?, restDepth, depth]

end Term

namespace Expr

variable (s : Settings)

/-- The number of operands that are written of an expression in a group joined by `around`. What
names an unknown attribute is left out. -/
def operands : Expr → Connective → Nat
  | .constraint name _ _, _ => if s.hasAttribute name then 1 else 0
  | .binary operator left right, around =>
    let inner := left.operands operator + right.operands operator
    if operator = around then inner else min 1 inner

/-- How deep parentheses nest in that. -/
def nestingIn : Expr → Connective → Nat
  | .constraint _ _ _, _ => 0
  | .binary operator left right, around =>
    let inner := max (left.nestingIn operator) (right.nestingIn operator)
    if operator ≠ around ∧ 2 ≤ left.operands s operator + right.operands s operator then inner + 1
    else inner

/-- How deep parentheses nest between the brackets of a token. -/
def nesting (e : Expr) : Nat := e.nestingIn s (e.connective?.getD s.rootOperator)

variable {s}

theorem length_terms (e : Expr) (around : Connective) :
    (e.terms s around).length = e.operands s around := by
  induction e generalizing around with
  | constraint name equality raw =>
    rw [terms, operands, Settings.term?_eq_map, Settings.hasAttribute]
    cases s.attribute? name <;> rfl
  | binary operator left right ihl ihr =>
    rw [terms, operands]
    split
    next => rw [List.length_append, ihl, ihr]
    next => rw [Term.length_operand?, List.length_append, ihl, ihr]

theorem restDepth_terms (e : Expr) (around : Connective) :
    Term.restDepth (e.terms s around) = e.nestingIn s around := by
  induction e generalizing around with
  | constraint name equality raw =>
    rw [terms, nestingIn, Settings.term?_eq_map]
    cases s.attribute? name <;> rfl
  | binary operator left right ihl ihr =>
    have hinner : Term.restDepth (left.terms s operator ++ right.terms s operator) =
        max (left.nestingIn s operator) (right.nestingIn s operator) := by
      rw [Term.restDepth_append, ihl, ihr]
    rw [terms, nestingIn]
    by_cases hsame : operator = around
    · subst hsame
      simpa using hinner
    · rw [if_neg hsame, Term.restDepth_operand?_eq, hinner, List.length_append, length_terms,
        length_terms]
      simp [hsame]

/-- What is written of an expression can be read just if its parentheses do not nest too deep. -/
theorem nesting_le_iff (e : Expr) :
    (∀ u ∈ e.term? s, u.depth ≤ Parser.maxNesting + 1) ↔ e.nesting s ≤ Parser.maxNesting := by
  rw [term?, nesting, ← restDepth_terms]
  generalize e.terms s (e.connective?.getD s.rootOperator) = ts
  cases ts with
  | nil => simp [Term.join?, Term.restDepth]
  | cons first rest =>
    -- The brackets stand for the parentheses around everything, so these do not count.
    simp only [Term.join?, Option.mem_some_iff, forall_eq', Term.depth, Term.restDepth]
    omega

/-! ### Depth and size -/

theorem size_pos (e : Expr) : 0 < e.size := by
  induction e with
  | constraint => exact Nat.one_pos
  | binary operator left right ihl ihr =>
    show 0 < left.size + right.size
    omega

/-- Each pair of parentheses keeps a constraint out. -/
theorem nestingIn_lt_size (e : Expr) (around : Connective) : e.nestingIn s around < e.size := by
  induction e generalizing around with
  | constraint => exact Nat.one_pos
  | binary operator left right ihl ihr =>
    have hl := ihl operator
    have hr := ihr operator
    rw [nestingIn, size]
    split <;> omega

/-- The two innermost constraints share the brackets with all parentheses. -/
theorem nesting_le_size (e : Expr) : e.nesting s ≤ e.size - 2 := by
  cases e with
  | constraint => exact Nat.zero_le _
  | binary operator left right =>
    have hl := left.nestingIn_lt_size (s := s) operator
    have hr := right.nestingIn_lt_size (s := s) operator
    have hleft := left.size_pos
    have hright := right.size_pos
    rw [nesting, connective?, Option.getD_some, nestingIn, if_neg (by simp), size]
    omega

end Expr

theorem Slot.shallow_loaded_iff {s : Settings} (t : Token) :
    (loaded s t).Shallow ↔ ∀ e ∈ t.expression, e.nesting s ≤ Parser.maxNesting := by
  rw [Shallow, root_loaded]
  cases t.expression with
  | none => simp
  | some e => simpa using e.nesting_le_iff

theorem Query.givesIf_normalText_nesting {s : Settings} (hdefault : s.defaultAttribute.Readable)
    {q : Query} (hq : q.Spelled s.defaultAttribute) :
    GivesIf (∀ t ∈ q.tokens, ∀ e ∈ t.expression, e.nesting s ≤ Parser.maxNesting)
      (parse s.defaultAttribute (q.normalText s)) (some (q.normal s)) := by
  refine (givesIf_normalText hdefault hq).congr ?_
  simp only [Slot.shallow_loaded_iff]

/-- A query is normalized to a text, and that can be read just if no parentheses nest too deep in
it. There is no need for so many of them in an expression of few constraints. -/
theorem Builder.normalizes_readable_iff (s : Settings) (hdefault : s.defaultAttribute.Readable)
    {text : Text} {q : Query} (hq : Query.parse s.defaultAttribute text = .ok (some q)) :
    ∃ written, Normalizes s text written ∧
      ((∃ q', Query.parse s.defaultAttribute written = .ok (some q')) ↔
        ∀ t ∈ q.tokens, ∀ e ∈ t.expression, e.nesting s ≤ Parser.maxNesting) ∧
      ((∀ t ∈ q.tokens, ∀ e ∈ t.expression, e.size ≤ Parser.maxNesting + 2) →
        ∃ q', Query.parse s.defaultAttribute written = .ok (some q')) := by
  have hnormal := q.givesIf_normalText_nesting hdefault (Query.ensures_parse _ _ _ hq q rfl)
  have hiff : (∃ q', Query.parse s.defaultAttribute (q.normalText s) = .ok (some q')) ↔
      ∀ t ∈ q.tokens, ∀ e ∈ t.expression, e.nesting s ≤ Parser.maxNesting := by
    constructor
    · rintro ⟨q', hq'⟩
      by_contra hdeep
      obtain ⟨e, he⟩ := hnormal.fails hdeep
      rw [he] at hq'
      cases hq'
    · exact fun hshallow => ⟨_, hnormal.gives hshallow⟩
  refine ⟨_, Query.normalizes hq, hiff, fun hsize => hiff.mpr fun t ht e he => ?_⟩
  have hle := e.nesting_le_size (s := s)
  have hfew := hsize t ht e he
  omega

/-! ### Chains -/

/-- The other connective. -/
def Connective.flip : Connective → Connective
  | .and => .or
  | .or => .and

theorem Connective.flip_ne (c : Connective) : c.flip ≠ c := by
  cases c <;> decide

namespace Expr

/-- The constraint `word = "a"`. -/
def link : Expr := .constraint ['w', 'o', 'r', 'd'] .equal ['a']

def linkText : Text := (Term.leaf ['w', 'o', 'r', 'd'] .equal ['a']).text

/-- More constraints, joined by the one connective and the other in turns. -/
def chainFrom (left : Expr) (operator : Connective) : Nat → Expr
  | 0 => left
  | more + 1 => chainFrom (.binary operator left link) operator.flip more

def chainRest (operator : Connective) : Nat → Text
  | 0 => []
  | more + 1 => [' '] ++ (operator.symbol ++ ([' '] ++ (linkText ++ chainRest operator.flip more)))

theorem constraint_linkText : Grammar.Constraint linkText link := by
  apply Grammar.Constraint.of_leaf
  · exact Parser.readable_of_isName (by decide) (by decide) (by decide)
  · exact (Grammar.Value.plain 'a' [] (by decide) (by decide) .nil).closed

theorem chain_chainRest (levels more : Nat) (left : Expr) (operator : Connective) :
    Grammar.Chain (Grammar.Operand levels) left (chainRest operator more)
      (chainFrom left operator more) := by
  have hspace : Grammar.Gap [' '] := by simp [Grammar.Gap, isLayout]
  induction more generalizing left operator with
  | zero => exact .nil left
  | succ more ih =>
    exact .cons left link _ [' '] [' '] linkText _ operator hspace hspace
      (constraint_linkText.toOperand levels) (ih _ _)

variable {s : Settings}

/-- With each turn all that stands to the left goes into one more pair of parentheses. -/
theorem nesting_chainFrom (hword : s.hasAttribute ['w', 'o', 'r', 'd']) (more : Nat)
    (left right : Expr) (operator : Connective)
    (htwo : 2 ≤ left.operands s operator + right.operands s operator) :
    (chainFrom (.binary operator left right) operator.flip more).nesting s =
      (Expr.binary operator left right).nesting s + more := by
  induction more generalizing left right operator with
  | zero => rfl
  | succ more ih =>
    have hlink : link.operands s operator.flip = 1 := if_pos hword
    have hleft : (Expr.binary operator left right).operands s operator.flip = 1 := by
      rw [operands, if_neg (Connective.flip_ne _).symm]
      omega
    have hturn : (Expr.binary operator.flip (.binary operator left right) link).nesting s =
        (Expr.binary operator left right).nesting s + 1 := by
      simp [nesting, connective?, nestingIn, link, (Connective.flip_ne _).symm, htwo]
    rw [chainFrom, ih _ _ _ (by omega), hturn]
    omega

end Expr

namespace Query

/-- One token, of a constraint and so many more in a chain. -/
def chain (more : Nat) : Query :=
  ⟨[⟨none, none, some (Expr.chainFrom Expr.link .and more), false, none⟩], none⟩

/-- The text `[word = "a" & word = "a" | word = "a" & …]`. -/
def chainText (more : Nat) : Text := '[' :: (Expr.linkText ++ (Expr.chainRest .and more ++ [']']))

theorem parse_chainText (default : Text) (more : Nat) :
    parse default (chainText more) = .ok (some (chain more)) := by
  have hlink := Expr.constraint_linkText.toOperand Parser.maxNesting
  have hexpression : Grammar.Expression _ _ :=
    .mk _ _ _ _ hlink (Expr.chain_chainRest Parser.maxNesting more Expr.link .and)
  simpa [chainText, chain] using hexpression.parse_eq_ok default

/-- A chain can be read however long it is, but its normal spelling only up to a length. -/
theorem parse_normalText_chain {s : Settings} (hdefault : s.defaultAttribute.Readable)
    (hword : s.hasAttribute ['w', 'o', 'r', 'd']) (more : Nat) :
    GivesIf (more ≤ Parser.maxNesting + 1)
      (parse s.defaultAttribute ((chain more).normalText s)) (some ((chain more).normal s)) := by
  have hspelled := ensures_parse _ _ _ (parse_chainText s.defaultAttribute more) _ rfl
  refine (givesIf_normalText_nesting hdefault hspelled).congr ?_
  have hnesting : (Expr.chainFrom Expr.link .and more).nesting s = more - 1 := by
    cases more with
    | zero => rfl
    | succ more =>
      have hlink : Expr.link.operands s .and = 1 := if_pos hword
      have hpair : (Expr.binary .and Expr.link Expr.link).nesting s = 0 := by
        simp [Expr.nesting, Expr.connective?, Expr.nestingIn, Expr.link]
      rw [Expr.chainFrom, Expr.nesting_chainFrom hword _ _ _ _ (by omega), hpair]
      omega
  simp only [chain, List.forall_mem_singleton, Option.mem_some_iff, forall_eq', hnesting]
  omega

end Query

/-- The longest chain whose normal spelling can be read again. -/
theorem Builder.normalizes_readable_iff_longest :
    ∃ written, Normalizes .standard (Query.chainText 257) written ∧
      ∃ q', Query.parse Settings.standard.defaultAttribute written = .ok (some q') := by
  have hdefault : Settings.standard.defaultAttribute.Readable :=
    Parser.readable_of_isName (by decide) (by decide) (by decide)
  obtain ⟨written, hwritten, -, hfew⟩ :=
    Builder.normalizes_readable_iff .standard hdefault (Query.parse_chainText _ 257)
  have hsize : (Expr.chainFrom Expr.link .and 257).size ≤ Parser.maxNesting + 2 := by
    decide +kernel
  refine ⟨written, hwritten, hfew fun t ht e he => ?_⟩
  rw [Query.chain, List.mem_singleton] at ht
  subst ht
  cases he
  exact hsize

/-- With one more constraint it cannot, though the chain itself can. -/
theorem Builder.normalizes_unreadable :
    Settings.standard.hasAttribute Settings.standard.defaultAttribute ∧
      Settings.standard.defaultAttribute.Readable ∧
      Query.parse Settings.standard.defaultAttribute (Query.chainText 258) =
        .ok (some (Query.chain 258)) ∧
      ∃ written, Normalizes .standard (Query.chainText 258) written ∧
        ∃ e, Query.parse Settings.standard.defaultAttribute written = .error e := by
  have hdefault : Settings.standard.defaultAttribute.Readable :=
    Parser.readable_of_isName (by decide) (by decide) (by decide)
  have hparse := Query.parse_chainText Settings.standard.defaultAttribute 258
  have hnormal := Query.parse_normalText_chain hdefault (by decide) 258
  exact ⟨by decide, hdefault, hparse, _, Query.normalizes hparse, hnormal.fails (by decide)⟩

end CorpusQuery
