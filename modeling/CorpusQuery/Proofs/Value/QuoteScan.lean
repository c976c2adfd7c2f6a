import CorpusQuery.Proofs.Value.Stable

/-!
How quoting and scanning fit together. A scan takes characters in pairs with the backslash in front
of them, quoting counts the backslashes in front of each quote, and unquoting takes one backslash
off each quote; all three agree on which quotes are escaped.
-/

namespace CorpusQuery

namespace Quotes

variable {value : Text}

/-- Quoting does not change whether the character behind is escaped. -/
theorem escapesAfter_escapeFrom (escaped : Bool) (value : Text) :
    escapesAfter escaped (escapeFrom escaped value) = escapesAfter escaped value := by
  induction value generalizing escaped with
  | nil => rfl
  | cons c rest ih =>
    rw [escapeFrom, escapesAfter_append, escapesAfter_cons]
    split
    next h =>
      obtain ⟨rfl, rfl⟩ : c = '"' ∧ escaped = false := by simpa using h
      exact ih false
    next => exact ih _

theorem escapeFrom_escapeFrom (escaped : Bool) (value : Text) :
    escapeFrom escaped (escapeFrom escaped value) = escapeFrom escaped value := by
  induction value generalizing escaped with
  | nil => rfl
  | cons c rest ih =>
    rw [escapeFrom]
    split
    next h =>
      obtain ⟨rfl, rfl⟩ : c = '"' ∧ escaped = false := by simpa using h
      -- The quote is escaped by now, and the backslash in front is as good as any other character.
      have hrest := ih false
      simpa [escapeFrom, escapesNext] using hrest
    next h =>
      rw [List.singleton_append, escapeFrom, if_neg h, ih]
      rfl

theorem escape_escape (value : Text) : escape (escape value) = escape value :=
  escapeFrom_escapeFrom false value

theorem closed_of_upToUnescaped {c next : Cursor} (h : c.upToUnescaped '"' = .ok (value, next)) :
    Closed value := by
  unfold Cursor.upToUnescaped at h
  split at h
  next passed behind hcut =>
    obtain ⟨rfl, -⟩ := Prod.mk.inj (Except.ok.inj h)
    exact closedFrom_of_cutUnescaped? hcut
  next => cases h

/-- The scan ends at the quote right behind a quoted value just if no backslash is left over. -/
theorem upToUnescaped_escape_iff (offset : Nat) (rest : Text) :
    Cursor.upToUnescaped ⟨offset, escape value ++ '"' :: rest⟩ '"' =
        .ok (escape value, ⟨offset + (escape value).length, '"' :: rest⟩) ↔ ¬ value.EndsOdd := by
  rw [value.endsOdd_iff, Bool.not_eq_true, ← closed_escape]
  refine ⟨closed_of_upToUnescaped, fun h => ?_⟩
  simp only [Cursor.upToUnescaped, cutUnescaped?_of_closedFrom h]

/-- What a scan may return between two quotes. -/
theorem exists_upToUnescaped_iff :
    (∃ c next, Cursor.upToUnescaped c '"' = .ok (value, next)) ↔
      escape (unescape value) = value ∧ ¬ value.EndsOdd := by
  constructor
  · rintro ⟨c, next, h⟩
    have hclosed := closed_of_upToUnescaped h
    exact ⟨escape_unescape hclosed, (closed_iff_guarded.mp hclosed).not_endsOdd⟩
  · rintro ⟨hsame, hends⟩
    -- Whatever quoting gives can be scanned, and a quoted value ends as it did without quotes.
    have hunquoted : ¬ (unescape value).EndsOdd := by
      rw [Text.endsOdd_iff] at hends ⊢
      rw [← hsame] at hends
      exact fun h => hends ((escapesAfter_escapeFrom false _).trans h)
    have hscan := (upToUnescaped_escape_iff 0 []).mpr hunquoted
    rw [hsame] at hscan
    exact ⟨_, _, hscan⟩

theorem unescape_cons {c : Char} {t : Text} (h : c = '\\' → t.head? ≠ some '"') :
    unescape (c :: t) = c :: unescape t :=
  unescape.eq_2 c t fun _ hc ht => h hc (by rw [ht]; rfl)

/-- A backslash that has been read and not yet been paired with the character behind. -/
def unpaired (escaped : Bool) : Text := if escaped then ['\\'] else []

/-- Quotes come back as long as none was escaped to begin with. -/
theorem unescape_escapeFrom_iff (escaped : Bool) (value : Text) :
    unescape (unpaired escaped ++ escapeFrom escaped value) = unpaired escaped ++ value ↔
      ∀ before behind, value = before ++ '"' :: behind → escapesAfter escaped before = false := by
  induction value generalizing escaped with
  | nil => cases escaped <;> simp [unpaired, escapeFrom, unescape]
  | cons c rest ih =>
    rw [Text.forall_before_cons]
    simp only [escapesAfter_cons]
    rw [← ih]
    by_cases hquote : c = '"'
    · subst hquote
      -- An escaped quote loses the backslash that it came with, any other the one that it got.
      cases escaped <;> simp [unpaired, escapeFrom, escapesNext, escapesAfter, unescape]
    have hkeep : escapeFrom escaped (c :: rest) = c :: escapeFrom (escapesNext escaped c) rest := by
      rw [escapeFrom, if_neg (by simp [hquote])]
      rfl
    rw [hkeep, and_iff_right fun heq => absurd heq hquote]
    cases escaped with
    | true =>
      -- The backslash and the character are a pair, so the character begins no other one.
      have hnext : escapesNext true c = false := by simp [escapesNext]
      have hhead : (escapeFrom false rest).head? ≠ some '"' := head?_escape_ne_quote rest
      have hpair : unescape ('\\' :: c :: escapeFrom false rest) =
          '\\' :: c :: unescape (escapeFrom false rest) := by
        rw [unescape_cons fun _ => by simpa using hquote, unescape_cons fun _ => hhead]
      simp [unpaired, hnext, hpair]
    | false =>
      by_cases hslash : c = '\\'
      · subst hslash
        exact Iff.rfl
      · have hnext : escapesNext false c = false := by simp [escapesNext, hslash]
        simp [unpaired, hnext, unescape_cons fun heq => absurd heq hslash]

theorem unescape_escape_iff : unescape (escape value) = value ↔
    ∀ before behind, value = before ++ '"' :: behind → ¬ before.EndsOdd := by
  simp only [Text.endsOdd_iff, Bool.not_eq_true]
  exact unescape_escapeFrom_iff false value

/-- Quoting and scanning for any text: where the scan of a quoted value ends, which values come back
from their quotes, which texts a scan returns, and that quoting twice is quoting once. -/
theorem quoting_scanning (value : Text) :
    (∀ offset rest, Cursor.upToUnescaped ⟨offset, escape value ++ '"' :: rest⟩ '"' =
        .ok (escape value, ⟨offset + (escape value).length, '"' :: rest⟩) ↔ ¬ value.EndsOdd) ∧
      (unescape (escape value) = value ↔
        ∀ before behind, value = before ++ '"' :: behind → ¬ before.EndsOdd) ∧
      ((∃ c next, Cursor.upToUnescaped c '"' = .ok (value, next)) ↔
        escape (unescape value) = value ∧ ¬ value.EndsOdd) ∧
      escape (escape value) = escape value :=
  ⟨upToUnescaped_escape_iff, unescape_escape_iff, exists_upToUnescaped_iff, escape_escape value⟩

end Quotes

end CorpusQuery
