import CorpusQuery.Builder.Load
import CorpusQuery.Proofs.Value.Written

/-! Alternations of literals come back as they were written, and so do listed spellings. -/

namespace CorpusQuery

theorem Text.consFirst_ne_nil (c : Char) (ts : List Text) : consFirst c ts ≠ [] := by
  cases ts <;> simp [consFirst]

namespace Alternation

theorem decode_escapeChar (c : Char) (rest : Text) :
    decode (escapeChar c ++ rest) = Text.consFirst c (decode rest) := by
  unfold escapeChar
  split
  next => rfl
  next h =>
    have hslash : c ≠ '\\' := fun heq => h (heq ▸ rfl)
    have hbar : c ≠ '|' := fun heq => h (heq ▸ rfl)
    simp [decode, hslash]

theorem decode_escape (literal : Text) {rest first : Text} {more : List Text}
    (h : decode rest = first :: more) :
    decode (escape literal ++ rest) = (literal ++ first) :: more := by
  induction literal with
  | nil => exact h
  | cons c literal ih =>
    rw [escape, List.flatMap_cons, List.append_assoc, decode_escapeChar]
    exact congrArg (Text.consFirst c) ih

theorem decode_encode {literals : List Text} (h : literals ≠ []) :
    decode (encode literals) = literals := by
  induction literals with
  | nil => exact absurd rfl h
  | cons literal rest ih =>
    cases rest with
    | nil =>
      have hnil : decode [] = [[]] := rfl
      simpa [encode] using decode_escape literal hnil
    | cons next rest =>
      have hrest : decode ('|' :: encode (next :: rest)) = [] :: next :: rest := by
        rw [decode, ih (List.cons_ne_nil next rest)]
      simpa [encode] using decode_escape literal hrest

theorem decode_ne_nil (value : Text) : decode value ≠ [] := by
  unfold decode
  split <;> simp [Text.consFirst_ne_nil]

/-! ### Bars -/

theorem hasBarFrom_append_left {escaped : Bool} {t u : Text}
    (h : hasBarFrom escaped (t ++ u) = false) : hasBarFrom escaped t = false := by
  induction t generalizing escaped with
  | nil => rfl
  | cons c t ih =>
    rw [List.cons_append, hasBarFrom, Bool.or_eq_false_iff] at h
    rw [hasBarFrom, h.1, ih h.2]
    rfl

theorem hasBar_escape_append (literal rest : Text) :
    hasBar (escape literal ++ rest) = hasBar rest := by
  have hchar : ∀ c rest, hasBar (escapeChar c ++ rest) = hasBar rest := by
    intro c rest
    unfold escapeChar
    split
    next => simp [hasBar, hasBarFrom, escapesNext]
    next h =>
      have hslash : c ≠ '\\' := fun heq => h (heq ▸ rfl)
      have hbar : c ≠ '|' := fun heq => h (heq ▸ rfl)
      simp [hasBar, hasBarFrom, escapesNext, beq_eq_false_iff_ne.mpr hslash,
        beq_eq_false_iff_ne.mpr hbar]
  induction literal with
  | nil => rfl
  | cons c literal ih => rw [escape, List.flatMap_cons, List.append_assoc, hchar, ← escape, ih]

theorem hasBar_escape (literal : Text) : hasBar (escape literal) = false := by
  simpa [hasBar, hasBarFrom] using hasBar_escape_append literal []

/-- A bar stands for each literal behind the first one. -/
theorem hasBar_encode {first next : Text} {rest : List Text} :
    hasBar (encode (first :: next :: rest)) = true := by
  have hbar : hasBar ('|' :: encode (next :: rest)) = true := by simp [hasBar, hasBarFrom]
  rw [← hasBar_escape_append first] at hbar
  simpa [encode] using hbar

theorem exists_eq_singleton {literals : List Text} (hne : literals ≠ [])
    (hbar : hasBar (encode literals) = false) : ∃ literal, literals = [literal] := by
  match literals with
  | [] => exact absurd rfl hne
  | [literal] => exact ⟨literal, rfl⟩
  | first :: next :: rest => simp [hasBar_encode] at hbar

theorem escape_ne_nil {literal : Text} (h : literal ≠ []) : escape literal ≠ [] := by
  obtain ⟨c, rest, rfl⟩ := List.exists_cons_of_ne_nil h
  rw [escape, List.flatMap_cons, escapeChar]
  split <;> simp

end Alternation

/-! ### Wildcards beside a literal -/

namespace Comparator

open Alternation

/-- A wildcard is taken off a value only where something is left that is no alternation. -/
theorem decode_wildcard {equality : Equality} {value : Text} {c : Comparator} {rest : Text}
    (h : (ofEquality equality).decode value = (c, rest)) :
    c = ofEquality equality ∨
      (c = .startsWith ∨ c = .endsWith) ∧ rest ≠ [] ∧ hasBar rest = false := by
  unfold decode at h
  split at h
  next hplain =>
    obtain ⟨-, -, hne, hbar⟩ := hplain
    rw [Bool.not_eq_true] at hbar
    split at h
    next rest' =>
      cases h
      refine .inr ⟨.inr rfl, fun hnil => hne (by rw [hnil]; rfl), ?_⟩
      simpa [hasBar, hasBarFrom, escapesNext] using hbar
    next =>
      split at h
      next stem hstem =>
        cases h
        rw [stem?_eq_some hstem] at hne hbar
        exact .inr ⟨.inl rfl, fun hnil => hne (by rw [hnil]; rfl), hasBarFrom_append_left hbar⟩
      next => cases h; exact .inl rfl
  next => cases h; exact .inl rfl

/-- An escaped literal has no wildcard at its end. -/
theorem stem?_escape (literal : Text) : stem? (escape literal) = none := by
  have hlast : ∀ init c stem, (init ++ escapeChar c).reverse ≠ '*' :: '.' :: stem := by
    intro init c stem heq
    unfold escapeChar at heq
    split at heq
    next => simp at heq
    next h =>
      simp only [List.reverse_append, List.reverse_singleton, List.singleton_append,
        List.cons.injEq] at heq
      exact h (heq.1 ▸ rfl)
  unfold stem?
  split
  next stem heq =>
    rcases literal.eq_nil_or_concat with rfl | ⟨init, c, rfl⟩
    · cases heq
    · rw [List.concat_eq_append, escape, List.flatMap_append, List.flatMap_singleton] at heq
      exact absurd heq (hlast _ c stem)
  next => rfl

theorem stem?_append_anything (literal : Text) :
    stem? (escape literal ++ anything) = some (escape literal) := by
  have hreverse : (escape literal ++ anything).reverse = '*' :: '.' :: (escape literal).reverse := by
    simp [anything]
  rw [stem?, hreverse]
  simp [endsEscaping_escape]

/-- Literals with a comparison, as a query writes them. -/
def alternation (c : Comparator) (literals : List Text) : Text :=
  ['|'].intercalate ((literals.map escape).map c.pattern)

theorem alternation_ofEquality (equality : Equality) (literals : List Text) :
    (ofEquality equality).alternation literals = Alternation.encode literals := by
  have hpattern : (literals.map escape).map (ofEquality equality).pattern = literals.map escape := by
    cases equality <;> exact List.map_id' _
  rw [alternation, hpattern, Alternation.encode]

/-- A wildcard stands beside one literal, so it makes no difference where it is put. -/
theorem pattern_encode {c : Comparator} {literals : List Text}
    (hwild : c ≠ ofEquality c.equality → ∃ literal, literals = [literal]) :
    c.pattern (Alternation.encode literals) = c.alternation literals := by
  by_cases hplain : c = ofEquality c.equality
  · rw [hplain, alternation_ofEquality]
    cases c.equality <;> rfl
  · obtain ⟨literal, rfl⟩ := hwild hplain
    simp [Alternation.encode, alternation]

/-- The comparison is told from what it writes of literals. A wildcard stands beside one literal
that is not empty. -/
theorem decode_alternation {c : Comparator} {literals : List Text} (hne : literals ≠ [])
    (hwild : c ≠ ofEquality c.equality → ∃ literal, literals = [literal] ∧ literal ≠ []) :
    (ofEquality c.equality).decode (c.alternation literals) = (c, Alternation.encode literals) := by
  have hdot : ∀ literal : Text, (escape literal).head? ≠ some '.' := fun literal =>
    head?_escape_ne literal (by decide) (by decide)
  cases c with
  | notEqual =>
    rw [show alternation .notEqual literals = _ from alternation_ofEquality .notEqual literals]
    simp [ofEquality, equality, decode]
  | equal =>
    rw [show alternation .equal literals = _ from alternation_ofEquality .equal literals]
    simp only [ofEquality, equality, decode]
    split
    next hplain =>
      obtain ⟨literal, rfl⟩ := exists_eq_singleton hne (by simpa using hplain.2.2.2)
      have hencode : Alternation.encode [literal] = escape literal := by
        simp [Alternation.encode]
      rw [hencode]
      split
      next rest heq => exact absurd (congrArg List.head? heq) (hdot literal)
      next => rw [stem?_escape]
    next => rfl
  | startsWith =>
    obtain ⟨literal, rfl, hliteral⟩ := hwild (by decide)
    obtain ⟨d, rest, heq⟩ := List.exists_cons_of_ne_nil (escape_ne_nil hliteral)
    have hd : d ≠ '.' := fun hd => hdot literal (by rw [heq, hd]; rfl)
    have hplain : 2 ≤ (escape literal ++ anything).length ∧ escape literal ++ anything ≠ anything ∧
        ¬ hasBar (escape literal ++ anything) := by
      refine ⟨by simp [anything], by simp [heq, anything, hd], ?_⟩
      rw [hasBar_escape_append]
      decide
    simp only [alternation, List.map_cons, List.map_nil, List.intercalate_singleton, pattern,
      Alternation.encode, equality, ofEquality, decode, true_and]
    rw [if_pos hplain]
    split
    next rest' hrest => exact absurd (List.cons.inj (heq ▸ hrest)).1 hd
    next => rw [stem?_append_anything]
  | endsWith =>
    obtain ⟨literal, rfl, hliteral⟩ := hwild (by decide)
    have hplain : 2 ≤ (anything ++ escape literal).length ∧ anything ++ escape literal ≠ anything ∧
        ¬ hasBar (anything ++ escape literal) := by
      refine ⟨by simp [anything], by simpa using escape_ne_nil hliteral, ?_⟩
      have hbar := hasBar_escape literal
      simpa [anything, hasBar, hasBarFrom, escapesNext] using hbar
    simp only [alternation, List.map_cons, List.map_nil, List.intercalate_singleton, pattern,
      Alternation.encode, equality, ofEquality, decode, true_and]
    rw [if_pos hplain]
    rfl

end Comparator

end CorpusQuery
