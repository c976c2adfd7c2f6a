import CorpusQuery.Query.Cursor
import CorpusQuery.Value.Quotes

/-! What a pair of quotes may hold, and how a value is written between them. -/

namespace CorpusQuery

/-- Whether the character after `t` is escaped, where that is known of its first character. -/
def escapesAfter (escaped : Bool) (t : Text) : Bool := t.foldl escapesNext escaped

@[simp] theorem escapesAfter_cons (escaped : Bool) (c : Char) (t : Text) :
    escapesAfter escaped (c :: t) = escapesAfter (escapesNext escaped c) t := rfl

@[simp] theorem escapesAfter_append (escaped : Bool) (t u : Text) :
    escapesAfter escaped (t ++ u) = escapesAfter (escapesAfter escaped t) u := by
  simp [escapesAfter]

/-- A run of backslashes of odd length stands at the end. -/
def Text.EndsOdd (t : Text) : Prop := (t.reverse.takeWhile (· == '\\')).length % 2 = 1

theorem Text.endsOdd_iff (t : Text) : t.EndsOdd ↔ endsEscaping t = true :=
  (endsEscaping_iff_odd t).symm

/-- What stands in front of each `d` in a text, looked at from the first character on. -/
theorem Text.forall_before_cons {c d : Char} {t : Text} {P : Text → Prop} :
    (∀ before behind, c :: t = before ++ d :: behind → P before) ↔
      (c = d → P []) ∧ ∀ before behind, t = before ++ d :: behind → P (c :: before) := by
  refine ⟨fun h => ⟨?_, ?_⟩, ?_⟩
  · rintro rfl
    exact h [] t rfl
  · rintro before behind rfl
    exact h (c :: before) behind rfl
  · rintro ⟨hfirst, hrest⟩ before behind heq
    rcases List.cons_eq_append_iff.mp heq with ⟨rfl, hcons⟩ | ⟨before', rfl, hrest'⟩
    · exact hfirst (List.cons.inj hcons).1.symm
    · exact hrest before' behind hrest'

namespace Quotes

/-- No quote ends the value, neither inside nor right behind it. -/
def closedFrom (escaped : Bool) : Text → Prop
  | [] => escaped = false
  | c :: rest => (c = '"' → escaped = true) ∧ closedFrom (escapesNext escaped c) rest

def Closed (value : Text) : Prop := closedFrom false value

/-- Backslashes guard each quote inside, and leave alone the quote that comes behind. -/
structure Guarded (value : Text) : Prop where
  quotes : ∀ before behind, value = before ++ '"' :: behind → before.EndsOdd
  not_endsOdd : ¬ value.EndsOdd

theorem closedFrom_iff {escaped : Bool} {value : Text} :
    closedFrom escaped value ↔
      (∀ before behind, value = before ++ '"' :: behind → escapesAfter escaped before = true) ∧
        escapesAfter escaped value = false := by
  induction value generalizing escaped with
  | nil => simp [closedFrom, escapesAfter]
  | cons c rest ih =>
    rw [closedFrom, ih, escapesAfter_cons, ← and_assoc, Text.forall_before_cons]
    rfl

theorem closed_iff_guarded {value : Text} : Closed value ↔ Guarded value := by
  rw [Closed, closedFrom_iff]
  constructor
  · rintro ⟨hquotes, hend⟩
    refine ⟨fun before behind heq => ?_, fun hodd => ?_⟩
    · exact before.endsOdd_iff.mpr (hquotes before behind heq)
    · have hescapes : escapesAfter false value = true := value.endsOdd_iff.mp hodd
      rw [hend] at hescapes
      cases hescapes
  · rintro ⟨hquotes, hend⟩
    refine ⟨fun before behind heq => ?_, ?_⟩
    · exact before.endsOdd_iff.mp (hquotes before behind heq)
    · rw [value.endsOdd_iff, Bool.not_eq_true] at hend
      exact hend

theorem cutUnescaped?_of_closedFrom {escaped : Bool} {value : Text} (h : closedFrom escaped value)
    (rest : Text) :
    Cursor.cutUnescaped? '"' escaped (value ++ '"' :: rest) = some (value, '"' :: rest) := by
  induction value generalizing escaped with
  | nil =>
    have hescaped : escaped = false := h
    simp [Cursor.cutUnescaped?, hescaped]
  | cons c value ih =>
    rw [List.cons_append, Cursor.cutUnescaped?, ih h.2]
    have hc : ¬ (!escaped && c == '"') = true := by
      simp only [Bool.and_eq_true, Bool.not_eq_true', beq_iff_eq, not_and]
      intro hescaped heq
      simp [h.1 heq] at hescaped
    rw [if_neg hc]

/-- What stands before the first quote that is not escaped is closed. -/
theorem closedFrom_of_cutUnescaped? {escaped : Bool} {text value rest : Text}
    (h : Cursor.cutUnescaped? '"' escaped text = some (value, rest)) : closedFrom escaped value := by
  induction text generalizing escaped value with
  | nil => cases h
  | cons c text ih =>
    rw [Cursor.cutUnescaped?] at h
    split at h
    next hc =>
      cases h
      simp only [Bool.and_eq_true, Bool.not_eq_true'] at hc
      exact hc.1
    next hc =>
      split at h
      next passed rest' hcut =>
        cases h
        refine ⟨fun heq => ?_, ih hcut⟩
        simpa [heq] using hc
      next => cases h

theorem closedFrom_escapeFrom (escaped : Bool) {value : Text} :
    closedFrom escaped (escapeFrom escaped value) ↔ escapesAfter escaped value = false := by
  induction value generalizing escaped with
  | nil => exact Iff.rfl
  | cons c value ih =>
    rw [escapeFrom, escapesAfter_cons]
    split
    next hc =>
      simp only [Bool.and_eq_true, beq_iff_eq, Bool.not_eq_true'] at hc
      obtain ⟨rfl, rfl⟩ := hc
      simpa [closedFrom, escapesNext] using ih false
    next hc =>
      simp only [List.singleton_append, closedFrom, ih]
      refine and_iff_right fun heq => ?_
      simpa [heq] using hc

theorem closed_escape {value : Text} : Closed (escape value) ↔ endsEscaping value = false :=
  closedFrom_escapeFrom false

/-- A closed value is what is written again for what it says. -/
theorem escapeFrom_unescape {escaped : Bool} {value : Text} (h : closedFrom escaped value) :
    escapeFrom escaped (unescape value) = value := by
  induction value using unescape.induct generalizing escaped with
  | case1 rest ih =>
    obtain ⟨-, hquote, hrest⟩ := h
    have hescaped : escaped = false := by simpa [escapesNext] using hquote rfl
    subst hescaped
    -- A backslash and a quote: the quote is closed off by the backslash, so the backslash is not
    -- escaped itself.
    rw [unescape, escapeFrom, ih (by simpa [escapesNext] using hrest)]
    rfl
  | case2 c rest hc ih =>
    have hquote : ¬ (c == '"' && !escaped) = true := by
      simp only [Bool.and_eq_true, beq_iff_eq, Bool.not_eq_true', not_and]
      intro heq hescaped
      simp [h.1 heq] at hescaped
    rw [unescape.eq_2 c rest hc, escapeFrom, ih h.2, if_neg hquote]
    rfl
  | case3 => rfl

theorem escape_unescape {value : Text} (h : Closed value) : escape (unescape value) = value :=
  escapeFrom_unescape h

end Quotes

end CorpusQuery
