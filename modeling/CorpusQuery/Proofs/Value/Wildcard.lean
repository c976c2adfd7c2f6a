import CorpusQuery.Value.Wildcard
import Mathlib.Logic.Function.Basic

/-!
Patterns come back from the regexes that they become. Those regexes are the ones that are put
together from a few kinds of pieces.
-/

namespace CorpusQuery

namespace Wildcard

/-- What becomes of one character, all rewritings taken together. -/
def regexOfChar (c : Char) : Text :=
  if c = '*' then ['.', '*']
  else if c = '?' then ['.']
  else escapeChar c

/-- No rewriting touches what another one has written. -/
theorem replace_escapeChar (c : Char) :
    replace '?' ['.'] (replace '*' ['.', '*'] (escapeChar c)) = regexOfChar c := by
  by_cases hstar : c = '*'
  · subst hstar
    rfl
  by_cases hmark : c = '?'
  · subst hmark
    rfl
  unfold regexOfChar escapeChar replace
  rw [if_neg hstar, if_neg hmark]
  split <;> simp [hstar, hmark]

theorem replace_append (old : Char) (replacement t u : Text) :
    replace old replacement (t ++ u) = replace old replacement t ++ replace old replacement u :=
  List.flatMap_append

/-- The rewritings go through a text character by character. -/
theorem toRegex_eq_flatMap (pattern : Text) : toRegex pattern = pattern.flatMap regexOfChar := by
  induction pattern with
  | nil => rfl
  | cons c rest ih =>
    rw [toRegex, List.flatMap_cons, replace_append, replace_append, replace_escapeChar, ← toRegex,
      ih, List.flatMap_cons]

@[simp] theorem toRegex_nil : toRegex [] = [] := rfl

@[simp] theorem toRegex_cons (c : Char) (rest : Text) :
    toRegex (c :: rest) = regexOfChar c ++ toRegex rest := by
  rw [toRegex_eq_flatMap, List.flatMap_cons, ← toRegex_eq_flatMap]

/-! ### From regexes back to patterns -/

/-- A star is written with a point in front of it. -/
theorem head?_toRegex_ne (pattern : Text) : (toRegex pattern).head? ≠ some '*' := by
  cases pattern with
  | nil => simp
  | cons c rest =>
    rw [toRegex_cons, regexOfChar]
    split
    next => simp
    next hstar =>
      split
      next => simp
      next =>
        unfold escapeChar
        split <;> simp [hstar]

theorem ofRegex_point {rest : Text} (hrest : rest.head? ≠ some '*') :
    ofRegex ('.' :: rest) = '?' :: ofRegex rest := by
  rw [ofRegex]
  rintro rest' rfl
  exact hrest rfl

theorem ofRegex_plain {c : Char} (hslash : c ≠ '\\') (hpoint : c ≠ '.') (rest : Text) :
    ofRegex (c :: rest) = c :: ofRegex rest := by
  rw [ofRegex]
  · exact fun _ _ heq => absurd heq hslash
  · exact fun _ heq => absurd heq hpoint
  · exact hpoint

/-- One character is read off what became of it. A point in front of a star would not be. -/
theorem ofRegex_regexOfChar_append (c : Char) {rest : Text} (hrest : rest.head? ≠ some '*') :
    ofRegex (regexOfChar c ++ rest) = c :: ofRegex rest := by
  unfold regexOfChar
  split
  next hstar =>
    subst hstar
    rw [List.cons_append, List.cons_append, ofRegex, List.nil_append]
  next hstar =>
    split
    next hmark =>
      subst hmark
      exact ofRegex_point hrest
    next hmark =>
      unfold escapeChar
      split
      next hliteral =>
        rw [List.cons_append, List.cons_append, ofRegex, if_pos hliteral, List.nil_append]
      next hliteral =>
        apply ofRegex_plain
        · rintro rfl
          exact hliteral rfl
        · rintro rfl
          exact hliteral rfl

theorem ofRegex_toRegex (pattern : Text) : ofRegex (toRegex pattern) = pattern := by
  induction pattern with
  | nil => rfl
  | cons c rest ih =>
    rw [toRegex_cons, ofRegex_regexOfChar_append c (head?_toRegex_ne rest), ih]

/-! ### The regexes that patterns become -/

/-- What the regexes of patterns are put together from. -/
inductive Piece : Text → Prop where
  | escaped (c : Char) (hc : c ∈ literals) : Piece ['\\', c]
  | anything : Piece ['.', '*']
  | anyChar : Piece ['.']
  | plain (c : Char) (hc : c ∉ literals) (hstar : c ≠ '*') (hmark : c ≠ '?') : Piece [c]

theorem piece_regexOfChar (c : Char) : Piece (regexOfChar c) := by
  unfold regexOfChar
  split
  next => exact .anything
  next hstar =>
    split
    next => exact .anyChar
    next hmark =>
      unfold escapeChar
      split
      next hliteral => exact .escaped c (List.contains_iff_mem.mp hliteral)
      next hliteral =>
        exact .plain c (fun hc => hliteral (List.contains_iff_mem.mpr hc)) hstar hmark

/-- Each piece stands for one character. -/
theorem Piece.exists_char {p : Text} (hp : Piece p) : ∃ c, p = regexOfChar c := by
  cases hp with
  | escaped c hc =>
    refine ⟨c, ?_⟩
    have hstar : c ≠ '*' := by
      rintro rfl
      exact absurd hc (by decide)
    have hmark : c ≠ '?' := by
      rintro rfl
      exact absurd hc (by decide)
    rw [regexOfChar, if_neg hstar, if_neg hmark, escapeChar, if_pos (List.contains_iff_mem.mpr hc)]
  | anything => exact ⟨'*', rfl⟩
  | anyChar => exact ⟨'?', rfl⟩
  | plain c hc hstar hmark =>
    refine ⟨c, ?_⟩
    rw [regexOfChar, if_neg hstar, if_neg hmark, escapeChar,
      if_neg fun hliteral => hc (List.contains_iff_mem.mp hliteral)]

theorem exists_toRegex_iff {regex : Text} : (∃ pattern, toRegex pattern = regex) ↔
    ∃ pieces : List Text, regex = pieces.flatten ∧ ∀ p ∈ pieces, Piece p := by
  constructor
  · rintro ⟨pattern, rfl⟩
    refine ⟨pattern.map regexOfChar, ?_, ?_⟩
    · rw [toRegex_eq_flatMap, List.flatMap]
    · intro p hp
      obtain ⟨c, -, rfl⟩ := List.mem_map.mp hp
      exact piece_regexOfChar c
  · rintro ⟨pieces, rfl, hpieces⟩
    induction pieces with
    | nil => exact ⟨[], rfl⟩
    | cons p rest ih =>
      rw [List.forall_mem_cons] at hpieces
      obtain ⟨c, hc⟩ := hpieces.1.exists_char
      obtain ⟨pattern, hpattern⟩ := ih hpieces.2
      exact ⟨c :: pattern, by rw [toRegex_cons, hpattern, ← hc, List.flatten_cons]⟩

/-- No pattern is lost in its regex, and a regex survives being taken for a pattern if it is put
together from the pieces that patterns become. -/
theorem wildcard_roundTrip :
    (∀ pattern, ofRegex (toRegex pattern) = pattern) ∧ Function.Injective toRegex ∧
      ∀ regex, toRegex (ofRegex regex) = regex ↔
        ∃ pieces : List Text, regex = pieces.flatten ∧ ∀ p ∈ pieces, Piece p := by
  have hinverse : Function.LeftInverse ofRegex toRegex := ofRegex_toRegex
  refine ⟨ofRegex_toRegex, hinverse.injective, fun regex => ?_⟩
  rw [← exists_toRegex_iff]
  constructor
  · intro h
    exact ⟨ofRegex regex, h⟩
  · rintro ⟨pattern, rfl⟩
    rw [ofRegex_toRegex]

example : toRegex ['?', '*', '.', '*'] = ['.', '.', '*', '\\', '.', '.', '*'] := by decide

example : toRegex (ofRegex ['a', '+']) = ['a', '\\', '+'] := by decide

end Wildcard

end CorpusQuery
