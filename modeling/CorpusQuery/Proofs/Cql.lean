import CorpusQuery.Draft.Term
import CorpusQuery.Proofs.WellFormed

/-! The text of a builder is that of the terms that its trees come to. -/

namespace CorpusQuery

namespace Term

theorem text_ne_nil (t : Term) : t.text ≠ [] := by
  cases t <;> simp [text]

/-- Operands with their connective between them. -/
theorem intercalate_text (operator : Connective) (first : Term) (rest : List Term) :
    ([' '] ++ operator.symbol ++ [' ']).intercalate ((first :: rest).map text) =
      first.text ++ restText operator rest := by
  induction rest generalizing first with
  | nil => simp [restText]
  | cons t rest ih =>
    have htail := ih t
    simp only [List.map_cons] at htail ⊢
    rw [List.intercalate_cons_cons, htail, restText, List.append_assoc]

end Term

namespace Connective

variable {operator : Connective} {parts : List Text} {ts : List Term}

theorem joinParts_eq (h : parts.filter (!·.isEmpty) = ts.map Term.text) :
    operator.joinParts parts = ((Term.join? operator ts).map Term.inner).getD [] := by
  rw [joinParts, h]
  cases ts with
  | nil => rfl
  | cons first rest => exact Term.intercalate_text operator first rest

theorem enclosedParts_eq (h : parts.filter (!·.isEmpty) = ts.map Term.text) :
    operator.enclosedParts parts = ((Term.operand? operator ts).map Term.text).getD [] := by
  rw [enclosedParts, joinParts_eq h, h, List.length_map]
  match ts with
  | [] => rfl
  | [t] => simp [Term.join?, Term.operand?, Term.inner, Term.restText]
  | t :: u :: rest => simp [Term.join?, Term.operand?, Term.inner, Term.text]

end Connective

theorem Constraint.cql_eq (c : Constraint) : c.cql = (c.term?.map Term.text).getD [] := by
  unfold cql term?
  split <;> simp [Term.text]

theorem Option.filter_text (t : Option Term) :
    [(t.map Term.text).getD []].filter (!·.isEmpty) = t.toList.map Term.text := by
  cases t with
  | none => rfl
  | some t => simp [t.text_ne_nil]

namespace Node

variable (label : Connective → Text)

mutual

/-- What is written of a node. -/
theorem fold_cql : (n : Node) → n.fold label (fun _ c => c.cql) (fun _ => GroupCell.cql) =
    (n.term?.map Term.text).getD []
  | .leaf _ c => c.cql_eq
  | .group _ _ children => Connective.enclosedParts_eq (filter_foldAll_cql children)

/-- Nodes that write nothing are left out. -/
theorem filter_foldAll_cql : (ns : List Node) →
    (foldAll label (fun _ c => c.cql) (fun _ => GroupCell.cql) ns).filter (!·.isEmpty) =
      (terms ns).map Term.text
  | [] => rfl
  | n :: rest => by
    rw [foldAll, ← List.singleton_append, List.filter_append, fold_cql n, Option.filter_text,
      filter_foldAll_cql rest, terms, List.map_append]

end

end Node

theorem Group.fold_cql (label : Connective → Text) (g : Group) :
    g.fold label (fun _ c => c.cql) (fun _ => GroupCell.cql) = (g.term?.map Term.inner).getD [] :=
  Connective.joinParts_eq (Node.filter_foldAll_cql label g.children)

namespace Builder.Shows

variable {b : Builder} {s : Settings} {n : NodeId} {d : Draft}

theorem slotCql_eq (hb : b.Shows s n d) {t : Slot Group} (ht : t ∈ d.slots) :
    b.slotCql (t.mapRoot Group.id) = .ok (t.mapRoot Group.term?).text := by
  obtain ⟨h, ha⟩ := hb.holds_token ht
  have hroot : b.nodeCql t.root.id = .ok ((t.root.term?.map Term.inner).getD []) := by
    rw [nodeCql, Group.arena_fold s.operatorLabel _ _ t.root ha, Group.fold_cql]
  rw [slotCql, Slot.mapRoot, hroot]
  rfl

/-- A builder always has a text, unless it has no tokens. -/
theorem cql?_eq (hb : b.Shows s n d) (hne : d.slots ≠ []) :
    b.cql? = .ok (some (joinTokens ((d.slots.map (Slot.mapRoot Group.term?)).map Slot.text)
      d.within)) := by
  have hempty : ¬ b.slots.isEmpty := by simpa [hb.slots_eq] using hne
  rw [cql?, if_neg hempty, hb.mapM_slots fun t ht => hb.slotCql_eq ht, hb.within_eq, List.map_map]
  rfl

end Builder.Shows

end CorpusQuery
