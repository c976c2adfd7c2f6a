import CorpusQuery.Builder.Load
import CorpusQuery.Proofs.Query.WellFormed
import CorpusQuery.Proofs.WellFormed

/-! What a parsed query consists of can be written again: its names, its values and its bounds. -/

namespace CorpusQuery

/-- Names are readable, or the one that words in quotes go by. -/
def Expr.Spelled (default : Text) : Expr → Prop
  | .constraint name _ raw => (name.Readable ∨ name = default) ∧ Quotes.Closed raw
  | .binary _ left right => left.Spelled default ∧ right.Spelled default

structure Token.Spelled (default : Text) (t : Token) : Prop where
  expression : ∀ e ∈ t.expression, e.Spelled default
  bounds : t.fault? = none

structure Query.Spelled (default : Text) (q : Query) : Prop where
  tokens_ne : q.tokens ≠ []
  tokens : ∀ t ∈ q.tokens, t.Spelled default
  within : ∀ name ∈ q.within, name.ReadableElement

theorem Expr.WellFormed.spelled {limit : Nat} {e : Expr} (h : e.WellFormed limit)
    (default : Text) : e.Spelled default := by
  induction e with
  | constraint name equality value =>
    obtain ⟨hname, hvalue⟩ := h.constraints name equality value (self_mem_parts _)
    exact ⟨.inl hname, Quotes.closed_iff_guarded.mpr hvalue⟩
  | binary operator left right ihl ihr =>
    exact ⟨ihl h.of_binary.1, ihr h.of_binary.2⟩

theorem Token.WellFormed.spelled {default : Text} {t : Token} (h : t.WellFormed default) :
    t.Spelled default := by
  refine ⟨fun e he => ?_, ?_⟩
  · rcases h.expression e he with h | ⟨value, rfl, hvalue⟩
    · exact h.spelled default
    · exact ⟨.inr rfl, Quotes.closed_iff_guarded.mpr hvalue⟩
  · have hvalid : t.bounds.exceeded? = none := by
      rw [bounds]
      cases hr : t.repeats with
      | none => rfl
      | some r => exact Repeats.exceeded?_eq_none.mpr (h.repeats r hr)
    simp [fault?, hvalid]

theorem Query.WellFormed.spelled {default : Text} {q : Query} (h : q.WellFormed default) :
    q.Spelled default :=
  ⟨h.tokens_ne, fun t ht => (h.tokens t ht).spelled, h.within⟩

/-- What has been read can be written again. -/
theorem Query.ensures_parse (default text : Text) :
    Ensures (Query.parse default text) fun x => ∀ q ∈ x, q.Spelled default :=
  fun x hx q hq => ((Grammar.ensures_parse default text x hx).2 q hq).wellFormed.spelled

/-- A text of nothing but white space holds no query. -/
theorem Query.not_parse_of_allBlank {default text : Text} (h : Text.allBlank text) (q : Query) :
    Query.parse default text ≠ .ok (some q) := by
  intro hparse
  obtain ⟨first, items, hitems⟩ := (Grammar.ensures_parse default text _ hparse).2 q rfl
  cases hitems with
  | token w t rest x items hw ht hbehind hrest =>
    -- No token begins with white space of any kind.
    obtain ⟨d, u, rfl, hblank, -⟩ := ht.exists_eq
    rw [List.all_eq_true.mp h d (by simp)] at hblank
    cases hblank

end CorpusQuery
