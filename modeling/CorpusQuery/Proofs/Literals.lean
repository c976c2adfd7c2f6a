import CorpusQuery.Proofs.Cql
import CorpusQuery.Proofs.Query.Parse
import CorpusQuery.Proofs.Query.WellFormed
import CorpusQuery.Proofs.Value.Stable

/-!
Literals stay inside their constraint. Three layers are written around a literal: the escapes of a
regex, the bars and wildcards between literals, and the escapes of a quoted value. No literal, and
no row of literals, can be taken for a part of any of them.
-/

namespace CorpusQuery

namespace Constraint

/-- The literals that a constraint allows. A regex is not known to be a literal. -/
def literals? (c : Constraint) : Option (List Text) :=
  match c.uploaded with
  | some text => some (uploadedLiterals text)
  | none =>
    match c.value with
    | .multiple literals => some literals
    | _ => none

variable {c : Constraint} {literals : List Text}

theorem regexes_of_literals? (h : c.literals? = some literals) :
    c.regexes = literals.map Alternation.escape := by
  obtain ⟨name, comparator, caseSensitive, value, uploaded⟩ := c
  cases uploaded with
  | some text =>
    cases h
    rfl
  | none =>
    cases value with
    | multiple literals =>
      cases h
      rfl
    | unset => cases h
    | text regex => cases h

theorem isBlank_of_literals? (h : c.literals? = some literals) : c.isBlank = false := by
  obtain ⟨name, comparator, caseSensitive, value, uploaded⟩ := c
  cases uploaded with
  | some text => rfl
  | none =>
    cases value with
    | multiple literals => rfl
    | unset => cases h
    | text regex => cases h

/-- Escaping leaves nothing to settle. -/
theorem settled_of_literals? (h : c.literals? = some literals) : c.Settled := by
  intro regex huploaded hvalue
  simp [literals?, huploaded, hvalue] at h

/-- A constraint of literals is read as one constraint of the same literals, whatever stands in
them. -/
theorem parse_literals (hname : c.name.Readable) (hliterals : c.literals? = some literals)
    (hne : literals ≠ []) (default : Text) :
    ∃ equality raw,
      Query.parse default ('[' :: (c.cql ++ [']'])) =
        .ok (some ⟨[⟨none, none, some (.constraint c.name equality raw), false, none⟩], none⟩) ∧
      (equality = .notEqual ↔ c.comparator = .notEqual) ∧
      CaseFlag.decode (Quotes.unescape raw) =
        (c.caseSensitive, c.comparator.alternation literals) ∧
      (c.comparator = .equal ∨ c.comparator = .notEqual →
        Alternation.decode (c.comparator.alternation literals) = literals) := by
  have hregexes := regexes_of_literals? hliterals
  have hcql : c.cql = (Term.leaf c.name c.comparator.equality (Quotes.escape c.written)).text := by
    rw [cql_eq, term?, isBlank_of_literals? hliterals]
    rfl
  have hconstraint := Grammar.Constraint.of_leaf hname (settled_of_literals? hliterals).closed
    c.comparator.equality
  have hexpression : Grammar.Expression _ _ :=
    .mk _ _ _ [] (hconstraint.toOperand Parser.maxNesting) (.nil _)
  rw [List.append_nil, ← hcql] at hexpression
  refine ⟨c.comparator.equality, Quotes.escape c.written, hexpression.parse_eq_ok default, ?_,
    decode_escape_written hregexes hne, fun hplain => ?_⟩
  · cases c.comparator <;> simp [Comparator.equality]
  · have hequality : c.comparator = .ofEquality c.comparator.equality := by
      rcases hplain with h | h <;> rw [h] <;> rfl
    rw [hequality, Comparator.alternation_ofEquality, Alternation.decode_encode hne]

/-- Four literals that are made of what could break out: a backslash and a quote, a case mark with a
bar behind it, a wildcard, and a backslash at the end. -/
theorem parse_literals_breakout :
    let literals : List Text :=
      [['\\', '"'], ['(', '?', 'c', ')', '|', '"'], ['.', '*'], ['c', '\\']]
    let c : Constraint := ⟨['w', 'o', 'r', 'd'], .equal, true, .multiple literals, none⟩
    c.name.Readable ∧ c.literals? = some literals ∧ literals ≠ [] ∧
      ∃ raw regex, Query.parse [] ('[' :: (c.cql ++ [']'])) =
          .ok (some ⟨[⟨none, none, some (.constraint c.name .equal raw), false, none⟩], none⟩) ∧
        CaseFlag.decode (Quotes.unescape raw) = (true, regex) ∧
        Alternation.decode regex = literals := by
  intro literals c
  have hname : c.name.Readable := Parser.readable_of_isName (by decide) (by decide) (by decide)
  have hliterals : c.literals? = some literals := rfl
  have hne : literals ≠ [] := List.cons_ne_nil _ _
  obtain ⟨equality, raw, hparse, hequality, hflag, hdecode⟩ := parse_literals hname hliterals hne []
  have hequal : equality = .equal := by
    cases equality with
    | equal => rfl
    | notEqual => cases hequality.mp rfl
  subst hequal
  exact ⟨hname, hliterals, hne, raw, _, hparse, hflag, hdecode (.inl rfl)⟩

end Constraint

end CorpusQuery
