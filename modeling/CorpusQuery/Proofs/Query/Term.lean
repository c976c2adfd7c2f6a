import CorpusQuery.Draft.Term
import CorpusQuery.Proofs.Grammar.Complete

/-! Terms are read as the expressions they stand for, if parentheses nest no deeper than allowed. -/

namespace CorpusQuery

/-- A name that can be told from what stands around it. -/
def Text.Readable (name : Text) : Prop :=
  name ≠ [] ∧ ∀ c ∈ name, isBlank c = false ∧ c ∉ '=' :: '!' :: Parser.reserved

namespace Text.Readable

variable {name : Text}

theorem isLayout (h : name.Readable) {c : Char} (hc : c ∈ name) : CorpusQuery.isLayout c = false :=
  Text.isLayout_eq_false (h.2 c hc).1

/-- White space is trimmed off behind a name. -/
theorem trim (h : name.Readable) : Text.trim (name ++ [' ']) = name :=
  (Text.trim_append (w := []) rfl (by decide) name).trans
    (Text.trim_eq_self fun c hc => (h.2 c hc).1)

end Text.Readable

/-- What is written of a constraint stands for it. -/
theorem Grammar.Constraint.of_leaf {name raw : Text} (hname : name.Readable)
    (hraw : Quotes.Closed raw) (equality : Equality) :
    Grammar.Constraint (Term.leaf name equality raw).text (.constraint name equality raw) := by
  have hsign : ∀ d ∈ ['=', '!'], d ∉ name ++ [' '] := by
    intro d hd hmem
    rcases List.mem_append.mp hmem with hmem | hmem
    · exact (hname.2 d hmem).2 (List.mem_append_left Parser.reserved hd)
    · obtain rfl := List.mem_singleton.mp hmem
      simp at hd
  have hquote : '"' ∉ equality.symbol ++ [' '] := by cases equality <;> decide
  have hsymbol : Text.trim (equality.symbol ++ [' ']) = equality.symbol := by
    cases equality <;> decide
  have hchars : ∀ d ∈ name, Text.isBlank d = false ∧ d ∉ Parser.reserved := fun d hd =>
    ⟨(hname.2 d hd).1, fun hmem => (hname.2 d hd).2 (List.mem_append_right ['=', '!'] hmem)⟩
  have hconstraint := Grammar.Constraint.mk (name ++ [' ']) (equality.symbol ++ [' ']) raw equality
    (hsign '=' (by simp)) (hsign '!' (by simp)) (by rw [hname.trim]; exact hname.1)
    (by rw [hname.trim]; exact hchars) hquote hsymbol (Grammar.value_of_closed hraw)
  rw [hname.trim] at hconstraint
  simpa [Term.text] using hconstraint

/-- Names and values can be told from what stands around them. -/
def Term.Readable : Term → Prop :=
  Term.Every fun name _ raw => name.Readable ∧ Quotes.Closed raw

def Term.ReadableRest : List Term → Prop :=
  Term.EveryRest fun name _ raw => name.Readable ∧ Quotes.Closed raw

namespace Parser

/-- No parenthesis is opened where none may. -/
theorem not_reads_enclosed {t : Text} {c : Cursor} (hc : c.Before ('(' :: t)) :
    ∃ e, operandWithin 0 c = .error e := by
  obtain ⟨inside, haccept, -⟩ := hc.skipLayout.before.accept?_char (by decide)
  rw [operandWithin, operand, haccept]
  exact ⟨_, rfl⟩

end Parser

namespace Term

mutual

/-- An operand is read if parentheses nest in it no deeper than allowed. -/
theorem readsIf : (t : Term) → t.Readable → (levels : Nat) → (tail : Text) → (c : Cursor) →
    c.Before (t.text ++ tail) →
    ReadsIf (t.depth ≤ levels) (Parser.operandWithin levels c) t.expr (·.Before tail)
  | .leaf name equality raw, ht, levels, tail, c, hc => by
    have hreads := (Grammar.Constraint.of_leaf ht.1 ht.2 equality).reads_operand hc
    cases levels with
    | zero => exact (hreads _).readsIf (Nat.zero_le 0)
    | succ levels => exact (hreads _).readsIf (Nat.zero_le _)
  | .group operator first rest, ht, levels, tail, c, hc => by
    have hparens : c.Before ('(' :: (first.text ++ restText operator rest ++ ')' :: tail)) := by
      simpa [text] using hc
    cases levels with
    | zero => exact ⟨fun h => absurd h (by simp [depth]), fun _ => Parser.not_reads_enclosed hparens⟩
    | succ levels =>
      have hfits : first.depth ≤ levels ∧ restDepth rest ≤ levels ↔
          (group operator first rest).depth ≤ levels + 1 := by
        -- A pair of parentheses uses up one level for all its operands.
        rw [depth, Nat.succ_le_succ_iff, Nat.max_le]
      refine (Grammar.readsIf_enclosed hparens fun inside hinside => ?_).congr hfits
      rw [List.append_assoc] at hinside
      exact Grammar.readsIf_chainOf hinside (readsIf first ht.1 levels _) fun hturns c hc =>
        rest_readsIf rest ht.2 operator first.expr levels _ (Text.next?_ne (by decide) (by decide) tail)
          (Text.next?_ne (by decide) (by decide) tail) _ hturns c hc

/-- So are the operands that follow another. -/
theorem rest_readsIf : (rest : List Term) → ReadableRest rest → (operator : Connective) →
    (left : Expr) → (levels : Nat) → (tail : Text) → tail.next? ≠ some '&' →
    tail.next? ≠ some '|' → (turns : Nat) →
    ((restText operator rest ++ tail).dropWhile isLayout).length ≤ turns → (c : Cursor) →
    c.Before (restText operator rest ++ tail) →
    ReadsIf (restDepth rest ≤ levels) (Parser.chain (Parser.operandWithin levels) turns left c)
      (restExpr operator left rest) (·.Before tail)
  | [], _, operator, left, levels, tail, hand, hor, turns, _, c, hc =>
    (Grammar.reads_chain_nil hand hor hc).readsIf (Nat.zero_le levels)
  | t :: rest, hrest, operator, left, levels, tail, hand, hor, turns, hturns, c, hc => by
    have hspace : Grammar.Gap [' '] := by simp [Grammar.Gap, isLayout]
    simp only [restText, List.append_assoc] at hturns hc
    exact (Grammar.readsIf_chain_cons hspace hspace hturns hc (readsIf t hrest.1 levels _)
      fun hturns c hc => rest_readsIf rest hrest.2 operator (.binary operator left t.expr) levels tail
        hand hor _ hturns c hc).congr Nat.max_le.symm

end

/-- Between brackets one level of grouping needs no parentheses. -/
theorem readsIf_inner (t : Term) (ht : t.Readable) {tail : Text} (hand : tail.next? ≠ some '&')
    (hor : tail.next? ≠ some '|') {c : Cursor} (hc : c.Before (t.inner ++ tail)) :
    ReadsIf (t.depth ≤ Parser.maxNesting + 1) (Parser.expression c) t.expr (·.Before tail) := by
  cases t with
  | leaf name equality raw =>
    refine (Grammar.readsIf_chainOf (q := True) hc (readsIf _ ht Parser.maxNesting _)
      fun _ c hc => ?_).congr (by simp [depth])
    exact (Grammar.reads_chain_nil hand hor hc).readsIf trivial
  | group operator first rest =>
    rw [inner, List.append_assoc] at hc
    refine (Grammar.readsIf_chainOf hc (readsIf first ht.1 Parser.maxNesting _)
      fun hturns c hc => rest_readsIf rest ht.2 operator _ Parser.maxNesting tail hand hor _ hturns c
        hc).congr ?_
    rw [depth, Nat.succ_le_succ_iff, Nat.max_le]

/-- What stands between brackets is not taken for the end of the brackets. -/
theorem exists_text_eq (t : Term) (ht : t.Readable) :
    ∃ ch rest, t.text = ch :: rest ∧ isLayout ch = false ∧ ch ≠ ']' := by
  cases t with
  | leaf name equality raw =>
    obtain ⟨ch, rest, rfl⟩ := List.exists_cons_of_ne_nil ht.1.1
    refine ⟨ch, _, rfl, ht.1.isLayout List.mem_cons_self, ?_⟩
    rintro rfl
    exact absurd (ht.1.2 ']' List.mem_cons_self).2 (by decide)
  | group operator first rest => exact ⟨'(', _, rfl, by decide, by decide⟩

theorem exists_inner_eq (t : Term) (ht : t.Readable) :
    ∃ ch rest, t.inner = ch :: rest ∧ isLayout ch = false ∧ ch ≠ ']' := by
  cases t with
  | leaf name equality raw => exact exists_text_eq _ ht
  | group operator first rest =>
    obtain ⟨ch, text, heq, hch⟩ := exists_text_eq first ht.1
    exact ⟨ch, text ++ restText operator rest, by rw [inner, heq, List.cons_append], hch⟩

end Term

end CorpusQuery
