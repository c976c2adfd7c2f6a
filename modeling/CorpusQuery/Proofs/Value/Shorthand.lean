import Mathlib.Tactic.ByContra
import Mathlib.Tactic.Push
import CorpusQuery.Proofs.Value.Written

/-!
Comparisons and the wildcards that a query writes for them. What is read off a value writes the
value again. The other way round some values are taken for another comparison, and it is said which.
-/

namespace CorpusQuery

/-- A bar stands in the text with an even run of backslashes in front of it. -/
def Text.HasOpenBar (t : Text) : Prop :=
  ∃ before behind, t = before ++ '|' :: behind ∧ ¬ before.EndsOdd

namespace Alternation

theorem hasBarFrom_eq_false_iff {escaped : Bool} {t : Text} : hasBarFrom escaped t = false ↔
    ∀ before behind, t = before ++ '|' :: behind → escapesAfter escaped before = true := by
  induction t generalizing escaped with
  | nil => simp [hasBarFrom]
  | cons c t ih =>
    rw [hasBarFrom, Bool.or_eq_false_iff, ih, Text.forall_before_cons]
    refine and_congr_left fun _ => ?_
    simp [escapesAfter]

theorem hasBar_iff {t : Text} : hasBar t = true ↔ t.HasOpenBar := by
  rw [← not_iff_not, Bool.not_eq_true, hasBar, hasBarFrom_eq_false_iff, Text.HasOpenBar]
  push Not
  simp only [Text.endsOdd_iff]
  rfl

theorem hasBarFrom_append (escaped : Bool) (t u : Text) : hasBarFrom escaped (t ++ u) =
    (hasBarFrom escaped t || hasBarFrom (escapesAfter escaped t) u) := by
  induction t generalizing escaped with
  | nil => rfl
  | cons c t ih => rw [List.cons_append, hasBarFrom, hasBarFrom, ih, Bool.or_assoc, escapesAfter_cons]

end Alternation

namespace Comparator

open Alternation

theorem hasBar_anything_append (value : Text) : hasBar (anything ++ value) = hasBar value := rfl

theorem hasBar_append_anything (value : Text) : hasBar (value ++ anything) = hasBar value := by
  have hanything : ∀ escaped, hasBarFrom escaped anything = false := by decide
  rw [hasBar, hasBarFrom_append, hanything, Bool.or_false, hasBar]

theorem anything_prefix_append_iff {value : Text} (h : value ≠ []) :
    anything <+: value ++ anything ↔ anything <+: value := by
  match value with
  | [] => exact absurd rfl h
  | [c] => simp [anything]
  | c :: d :: rest => simp [anything]

theorem stem?_eq_some_iff {value stem : Text} :
    stem? value = some stem ↔ value = stem ++ anything ∧ ¬ stem.EndsOdd := by
  rw [stem.endsOdd_iff, Bool.not_eq_true]
  constructor
  · intro h
    refine ⟨stem?_eq_some h, ?_⟩
    unfold stem? at h
    split at h
    next =>
      split at h
      next => cases h
      next hends => exact Option.some.inj h ▸ Bool.eq_false_iff.mpr hends
    next => cases h
  · rintro ⟨rfl, hends⟩
    have hreverse : (stem ++ anything).reverse = '*' :: '.' :: stem.reverse := by simp [anything]
    simp [stem?, hreverse, hends]

/-- A wildcard at either end of the value is looked for. -/
structure Open (value : Text) : Prop where
  two_le : 2 ≤ value.length
  ne : value ≠ anything
  noBar : ¬ value.HasOpenBar

theorem decode_of_not_open {value : Text} (h : ¬ Open value) :
    decode .equal value = (.equal, value) := by
  refine if_neg ?_
  rintro ⟨-, htwo, hne, hbar⟩
  exact h ⟨htwo, hne, mt hasBar_iff.mpr hbar⟩

theorem Open.decode_anything_append {rest : Text} (h : Open (anything ++ rest)) :
    decode .equal (anything ++ rest) = (.endsWith, rest) :=
  if_pos ⟨rfl, h.two_le, h.ne, mt hasBar_iff.mp h.noBar⟩

theorem Open.decode_of_not_prefix {value : Text} (h : Open value) (hvalue : ¬ anything <+: value) :
    decode .equal value = ((stem? value).map fun stem => (.startsWith, stem)).getD (.equal, value) := by
  rw [decode, if_pos ⟨rfl, h.two_le, h.ne, mt hasBar_iff.mp h.noBar⟩]
  split
  next stem hstem => rw [hstem]; rfl
  next hnone => rw [hnone]; rfl
  next =>
    rintro rest rfl
    exact hvalue ⟨rest, rfl⟩

theorem open_anything_append_iff {value : Text} :
    Open (anything ++ value) ↔ value ≠ [] ∧ ¬ value.HasOpenBar := by
  rw [← hasBar_iff, ← hasBar_anything_append, hasBar_iff]
  refine ⟨fun h => ⟨?_, h.noBar⟩, fun h => ⟨?_, ?_, h.2⟩⟩
  · rintro rfl
    exact h.ne rfl
  · simp [anything]
  · simpa using h.1

theorem open_append_anything_iff {value : Text} :
    Open (value ++ anything) ↔ value ≠ [] ∧ ¬ value.HasOpenBar := by
  rw [← hasBar_iff, ← hasBar_append_anything, hasBar_iff]
  refine ⟨fun h => ⟨?_, h.noBar⟩, fun h => ⟨?_, ?_, h.2⟩⟩
  · rintro rfl
    exact h.ne rfl
  · simp [anything]
  · simpa using h.1

/-- The value is read as it was meant, once the comparison has written it. -/
def ReadsBack : Comparator → Text → Prop
  | .notEqual, _ => True
  | .endsWith, value => value ≠ [] ∧ ¬ value.HasOpenBar
  | .startsWith, value =>
    value ≠ [] ∧ ¬ value.HasOpenBar ∧ ¬ anything <+: value ∧ ¬ value.EndsOdd
  | .equal, value => value.length < 2 ∨ value = anything ∨ value.HasOpenBar ∨
      ¬ anything <+: value ∧ ¬ ∃ stem, value = stem ++ anything ∧ ¬ Text.EndsOdd stem

theorem decode_equal_iff {value : Text} :
    decode .equal value = (.equal, value) ↔ equal.ReadsBack value := by
  have hopen : equal.ReadsBack value ↔ ¬ Open value ∨
      ¬ anything <+: value ∧ ¬ ∃ stem, value = stem ++ anything ∧ ¬ Text.EndsOdd stem := by
    rw [ReadsBack, ← or_assoc, ← or_assoc]
    refine or_congr_left ⟨?_, fun h => ?_⟩
    · rintro ((hlength | heq) | hbar) h
      · exact Nat.not_lt.mpr h.two_le hlength
      · exact h.ne heq
      · exact h.noBar hbar
    · by_contra hnone
      simp only [not_or, Nat.not_lt] at hnone
      exact h ⟨hnone.1.1, hnone.1.2, hnone.2⟩
  rw [hopen]
  by_cases h : Open value
  · rw [or_iff_right (not_not_intro h)]
    by_cases hprefix : anything <+: value
    · obtain ⟨rest, rfl⟩ := hprefix
      simp [h.decode_anything_append]
    · rw [h.decode_of_not_prefix hprefix, and_iff_right hprefix]
      simp only [← stem?_eq_some_iff]
      cases stem? value <;> simp
  · exact iff_of_true (decode_of_not_open h) (.inl h)

theorem decode_endsWith_iff {value : Text} :
    decode .equal (anything ++ value) = (.endsWith, value) ↔ endsWith.ReadsBack value := by
  rw [ReadsBack, ← open_anything_append_iff]
  constructor
  · intro h
    by_contra hopen
    rw [decode_of_not_open hopen] at h
    cases h
  · exact Open.decode_anything_append

theorem decode_startsWith_iff {value : Text} :
    decode .equal (value ++ anything) = (.startsWith, value) ↔ startsWith.ReadsBack value := by
  rw [ReadsBack, ← and_assoc, ← open_append_anything_iff]
  by_cases hopen : Open (value ++ anything)
  · rw [and_iff_right hopen,
      ← anything_prefix_append_iff (open_append_anything_iff.mp hopen).1]
    by_cases hprefix : anything <+: value ++ anything
    · obtain ⟨rest, heq⟩ := hprefix
      rw [← heq] at hopen
      rw [← heq, hopen.decode_anything_append]
      simp
    · rw [hopen.decode_of_not_prefix hprefix, and_iff_right hprefix]
      -- The wildcard behind is taken off, unless its point belongs to what is in front.
      have hstem : stem? (value ++ anything) = some value ↔ ¬ value.EndsOdd := by
        rw [stem?_eq_some_iff, and_iff_right rfl]
      rw [← hstem]
      cases stem? (value ++ anything) <;> simp
  · rw [decode_of_not_open hopen]
    simp [hopen]

theorem decode_encode_iff (c : Comparator) (value : Text) :
    (c.encode value).1.decode (c.encode value).2 = (c, value) ↔ c.ReadsBack value := by
  cases c with
  | equal => exact decode_equal_iff
  | notEqual => exact iff_of_true (if_neg (by simp [encode, equality, ofEquality])) trivial
  | startsWith => exact decode_startsWith_iff
  | endsWith => exact decode_endsWith_iff

theorem encode_decode (equality : Equality) (value : Text) :
    ((ofEquality equality).decode value).1.encode ((ofEquality equality).decode value).2 =
      (ofEquality equality, value) := by
  rw [encode, equality_decode, pattern_decode]

/-- Whatever comparison a value is read as, it is written as the value again; and the values that
are read back as they were meant are known for each comparison. -/
theorem shorthand_roundTrip (value : Text) :
    (∀ equality, ((ofEquality equality).decode value).1.encode
        ((ofEquality equality).decode value).2 = (ofEquality equality, value)) ∧
      ∀ c : Comparator,
        (c.encode value).1.decode (c.encode value).2 = (c, value) ↔ c.ReadsBack value :=
  ⟨fun equality => encode_decode equality value, fun c => decode_encode_iff c value⟩

end Comparator

end CorpusQuery
