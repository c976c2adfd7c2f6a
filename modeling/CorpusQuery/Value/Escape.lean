import CorpusQuery.Text.Basic

/-! Escaping by backslash: a character is escaped when an odd run of backslashes precedes it. -/

namespace CorpusQuery

/-- Whether the character after `c` is escaped, given whether `c` is. -/
def escapesNext (escaped : Bool) (c : Char) : Bool :=
  c == '\\' && !escaped

/-- Whether a character put after `t` would be escaped. -/
def endsEscaping (t : Text) : Bool :=
  t.foldl escapesNext false

theorem endsEscaping_append_singleton (t : Text) (c : Char) :
    endsEscaping (t ++ [c]) = escapesNext (endsEscaping t) c := by
  simp [endsEscaping]

theorem endsEscaping_iff_odd (t : Text) :
    endsEscaping t ↔ (t.reverse.takeWhile (· == '\\')).length % 2 = 1 := by
  rw [← t.reverse_reverse]
  generalize t.reverse = r
  rw [List.reverse_reverse]
  induction r with
  | nil => simp [endsEscaping]
  | cons c r ih =>
    rw [List.reverse_cons, endsEscaping_append_singleton, escapesNext, List.takeWhile_cons]
    by_cases h : c = '\\'
    · subst h
      simp only [beq_self_eq_true, Bool.true_and, ↓reduceIte, List.length_cons]
      cases hr : endsEscaping r.reverse <;> simp [hr] at ih <;> simp <;> omega
    · simp [h]

end CorpusQuery
