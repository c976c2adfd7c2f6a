import CorpusQuery.Proofs.Cql
import CorpusQuery.Proofs.Query.Term
import CorpusQuery.Proofs.Value.Written

/-! What a tree writes that was loaded from an expression. -/

namespace CorpusQuery

/-- What is written of the operands that an expression brings into a group joined by `around`. -/
def Expr.terms (s : Settings) : Expr → Connective → List Term
  | .constraint name equality raw, _ => (s.term? name equality raw).toList
  | .binary operator left right, around =>
    if operator = around then left.terms s operator ++ right.terms s operator
    else (Term.operand? operator (left.terms s operator ++ right.terms s operator)).toList

theorem Node.terms_append (ms ns : List Node) : terms (ms ++ ns) = terms ms ++ terms ns := by
  induction ms with
  | nil => rfl
  | cons m rest ih => rw [List.cons_append, terms, terms, ih, List.append_assoc]

namespace Expr

variable (s : Settings)

/-- The numbers of the nodes make no difference. -/
theorem terms_nodes (e : Expr) (around : Connective) (next : NodeId) :
    Node.terms (e.nodes s around next).1 = e.terms s around := by
  induction e generalizing around next with
  | constraint name equality raw =>
    rw [nodes, terms, Settings.term?]
    cases s.constraint? name equality raw with
    | none => rfl
    | some c => simp [Node.terms, Node.term?]
  | binary operator left right ihl ihr =>
    rw [nodes, terms]
    split
    next => rw [Node.terms_append, ihl, ihr]
    next => simp only [Node.terms, Node.term?, Node.terms_append, ihl, ihr, List.append_nil]

theorem term?_ofExpr (id : NodeId) (e : Expr) (next : NodeId) :
    (Group.ofExpr s id e next).term? =
      Term.join? (e.connective?.getD s.rootOperator)
        (e.terms s (e.connective?.getD s.rootOperator)) := by
  rw [Group.term?, Group.ofExpr, terms_nodes]

end Expr

theorem Group.term?_bare (s : Settings) (id : NodeId) : (Group.bare s id).term? = none := rfl

namespace Settings

variable {s : Settings}

/-- A constraint that is read is written, if the attribute is known. -/
theorem term?_eq_map (name : Text) (equality : Equality) (raw : Text) :
    s.term? name equality raw = (s.attribute? name).map fun a =>
      .leaf name equality (Quotes.escape (a.constraintOf equality raw).written) := by
  unfold term? constraint?
  cases ha : s.attribute? name with
  | none => rfl
  | some a =>
    have hid : a.id = name := by simpa using List.find?_some ha
    simp [Constraint.term?, Attribute.isBlank_constraintOf, Attribute.equality_constraintOf,
      Attribute.name_constraintOf, hid]

/-- Without lists of values the value is as it was, but for the spelling of the case mark. -/
theorem term?_eq (hlists : ∀ a ∈ s.attributes, a.hasValueList = false) (name : Text)
    (equality : Equality) {raw : Text} (hraw : Quotes.Closed raw) :
    s.term? name equality raw =
      if s.hasAttribute name then some (.leaf name equality (CaseFlag.respell raw)) else none := by
  rw [term?_eq_map, hasAttribute]
  cases ha : s.attribute? name with
  | none => rfl
  | some a =>
    obtain ⟨regex, hvalue⟩ : ∃ regex, (a.constraintOf equality raw).value = .text regex :=
      Attribute.exists_value_constraintOf equality (hlists a (List.mem_of_find?_eq_some ha))
    simp [Attribute.escape_written_constraintOf equality hvalue hraw]

end Settings

namespace Term

variable {P : Text → Equality → Text → Prop}

theorem everyRest_iff {ts : List Term} : EveryRest P ts ↔ ∀ t ∈ ts, t.Every P := by
  induction ts with
  | nil => simp [EveryRest]
  | cons t rest ih => simp [EveryRest, ih]

theorem every_join? {operator : Connective} {ts : List Term} (h : ∀ t ∈ ts, t.Every P) :
    ∀ t ∈ join? operator ts, t.Every P := by
  cases ts with
  | nil => simp [join?]
  | cons first rest =>
    rintro _ ⟨⟩
    rw [List.forall_mem_cons] at h
    exact ⟨h.1, everyRest_iff.mpr h.2⟩

theorem every_operand? {operator : Connective} {ts : List Term} (h : ∀ t ∈ ts, t.Every P) :
    ∀ t ∈ operand? operator ts, t.Every P := by
  match ts with
  | [] => simp [operand?, join?]
  | [t] => simpa [operand?] using h
  | t :: u :: rest => exact every_join? h

end Term

end CorpusQuery
