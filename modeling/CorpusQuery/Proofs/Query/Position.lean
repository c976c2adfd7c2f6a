import CorpusQuery.Proofs.Grammar.Sound

/-!
Where a text stops being a query. The position of an error lies in the text, and what the error says
of the character at that position is so. Only a text that ends too soon has its error at its end.
-/

namespace CorpusQuery

/-- What an error says of the text at its position is so. -/
def ParseError.PointsInto (text : Text) : ParseError → Prop
  | .expected symbols found position =>
    text[position]? = some found ∧ ∀ symbol ∈ symbols, ¬ symbol <+: text.drop position
  | .unexpectedEnd _ position => position = text.length
  | .unknownOperator _ position => text[position]? = some '=' ∨ text[position]? = some '!'
  | .invalidAttributeName _ position => position < text.length
  | .invalidNumber _ position => position < text.length
  | .invalidRepeats _ _ position => position < text.length
  | .tooDeeplyNested _ position => text[position]? = some '('

theorem Text.lt_length_of_getElem? {text : Text} {position : Nat} {c : Char}
    (h : text[position]? = some c) : position < text.length :=
  (List.getElem?_eq_some_iff.mp h).1

/-- Only an end that comes too soon is found behind the last character. -/
theorem ParseError.PointsInto.position_lt {text : Text} {e : ParseError} (h : e.PointsInto text) :
    (∃ symbols, e = .unexpectedEnd symbols text.length) ∨ e.position < text.length := by
  cases e with
  | expected symbols found position => exact .inr (Text.lt_length_of_getElem? h.1)
  | unexpectedEnd symbols position =>
    obtain rfl : position = text.length := h
    exact .inl ⟨symbols, rfl⟩
  | unknownOperator operator position =>
    rcases h with h | h
    · exact .inr (Text.lt_length_of_getElem? h)
    · exact .inr (Text.lt_length_of_getElem? h)
  | invalidAttributeName name position => exact .inr h
  | invalidNumber digits position => exact .inr h
  | invalidRepeats min max position => exact .inr h
  | tooDeeplyNested limit position => exact .inr (Text.lt_length_of_getElem? h)

/-- Whatever comes out has the property, and an error points into the text. -/
structure Located {α : Type} (text : Text) (r : Except ParseError α) (P : α → Prop) : Prop where
  ensures : Ensures r P
  points : ∀ e, r = .error e → e.PointsInto text

namespace Located

variable {α β : Type} {text : Text} {r : Except ParseError α} {k : α → Except ParseError β}
  {P : α → Prop} {Q : β → Prop}

theorem ok {x : α} (h : P x) : Located text (.ok x) P := by
  constructor
  · exact .ok h
  · intro e he
    cases he

theorem error {e : ParseError} (h : e.PointsInto text) : Located text (.error e) P := by
  constructor
  · exact .error e
  · rintro e' ⟨⟩
    exact h

theorem bind (hr : Located text r P) (hk : ∀ x, P x → Located text (k x) Q) :
    Located text (r >>= k) Q := by
  cases r with
  | error e => exact .error (hr.points e rfl)
  | ok x => exact hk x (hr.ensures x rfl)

end Located

namespace Cursor

/-- The cursor is at a place in the text. -/
def In (text : Text) (c : Cursor) : Prop :=
  ∃ before, text = before ++ c.rest ∧ c.offset = before.length

theorem start_in (text : Text) : (start text).In text := ⟨[], rfl, rfl⟩

namespace In

variable {text : Text} {c : Cursor}

theorem drop_eq (h : c.In text) : text.drop c.offset = c.rest := by
  obtain ⟨before, rfl, hoffset⟩ := h
  rw [hoffset, List.drop_left]

theorem offset_add_length (h : c.In text) : c.offset + c.rest.length = text.length := by
  obtain ⟨before, rfl, hoffset⟩ := h
  rw [hoffset, List.length_append]

/-- What stands at the cursor is what comes next. -/
theorem getElem?_offset (h : c.In text) : text[c.offset]? = c.peek? := by
  rw [peek?, ← h.drop_eq, List.head?_drop]

theorem offset_lt (h : c.In text) (hrest : c.rest ≠ []) : c.offset < text.length := by
  have hlength := h.offset_add_length
  have hpos := List.length_pos_iff.mpr hrest
  omega

/-- Further on in the text. -/
theorem advance (h : c.In text) {passed rest : Text} (hrest : c.rest = passed ++ rest) :
    In text ⟨c.offset + passed.length, rest⟩ := by
  obtain ⟨before, rfl, hoffset⟩ := h
  refine ⟨before ++ passed, ?_, ?_⟩
  · rw [hrest, List.append_assoc]
  · rw [List.length_append, hoffset]

theorem skipLayout (h : c.In text) : c.skipLayout.In text :=
  h.advance List.takeWhile_append_dropWhile.symm

theorem pass (h : c.In text) (layout : Layout) : (c.pass layout).In text := by
  cases layout with
  | skip => exact h.skipLayout
  | keep => exact h

theorem past (h : c.In text) {symbol : Text} (hsees : c.sees symbol) : (c.past symbol).In text := by
  obtain ⟨rest, hrest⟩ := List.isPrefixOf_iff_prefix.mp hsees
  have hpast : c.past symbol = ⟨c.offset + symbol.length, rest⟩ := by
    rw [Cursor.past, ← hrest, List.drop_left]
  rw [hpast]
  exact h.advance hrest.symm

/-! ### Moves -/

theorem accept? (h : c.In text) {layout : Layout} {symbols : List Text} {s : Text} {c' : Cursor}
    (haccept : c.accept? layout symbols = some (s, c')) :
    c'.In text ∧ s ∈ symbols ∧ s <+: (c.pass layout).rest := by
  unfold Cursor.accept? at haccept
  dsimp only at haccept
  split at haccept
  next symbol hfind =>
    cases haccept
    have hsees : (c.pass layout).sees s := List.find?_some hfind
    exact ⟨((h.pass layout).past hsees).pass layout, List.mem_of_find?_eq_some hfind,
      List.isPrefixOf_iff_prefix.mp hsees⟩
  next => cases haccept

/-- A missing symbol is missing where white space ends. -/
theorem expect (h : c.In text) (layout : Layout) (symbols : List Text) :
    Located text (c.expect layout symbols) (·.2.In text) := by
  unfold Cursor.expect
  split
  next taken haccept => exact .ok (h.accept? haccept).1
  next hmissing =>
    have hhere := h.pass layout
    have hnone : ∀ symbol ∈ symbols, ¬ symbol <+: (c.pass layout).rest := by
      intro symbol hmem hsees
      unfold Cursor.accept? at hmissing
      dsimp only at hmissing
      split at hmissing
      next => cases hmissing
      next hfind =>
        exact List.find?_eq_none.mp hfind symbol hmem (List.isPrefixOf_iff_prefix.mpr hsees)
    dsimp only
    split
    next found rest hrest =>
      apply Located.error
      constructor
      · rw [hhere.getElem?_offset, peek?, hrest]
        rfl
      · rw [hhere.drop_eq]
        exact hnone
    next hrest =>
      apply Located.error
      have hlength := hhere.offset_add_length
      rw [hrest] at hlength
      exact hlength

end In

/-- One of the stops stands where a scan for them ends. -/
theorem exists_stop_of_cutBefore? {stops : List Text} {t passed rest : Text}
    (h : cutBefore? stops t = some (passed, rest)) : ∃ stop ∈ stops, stop <+: rest := by
  induction t generalizing passed with
  | nil => cases h
  | cons ch t ih =>
    rw [cutBefore?] at h
    split at h
    next hany =>
      cases h
      obtain ⟨stop, hmem, hstop⟩ := List.any_eq_true.mp hany
      exact ⟨stop, hmem, List.isPrefixOf_iff_prefix.mp hstop⟩
    next =>
      split at h
      next passed' rest' hcut =>
        cases h
        exact ih hcut
      next => cases h

namespace In

variable {text : Text} {c : Cursor}

/-- A scan that runs into the end fails there. One that does not began before the end. -/
theorem upTo (h : c.In text) {stops : List Text} (hstops : ∀ stop ∈ stops, ∃ d, stop = [d]) :
    Located text (c.upTo stops) fun x => x.2.In text ∧ c.offset < text.length ∧
      ∃ d, [d] ∈ stops ∧ text[x.2.offset]? = some d := by
  unfold Cursor.upTo
  split
  next passed rest hcut =>
    apply Located.ok
    have hrest := append_of_cutBefore? hcut
    have hnext := h.advance hrest
    obtain ⟨stop, hmem, hstop⟩ := exists_stop_of_cutBefore? hcut
    obtain ⟨d, rfl⟩ := hstops stop hmem
    obtain ⟨behind, rfl⟩ := hstop
    refine ⟨hnext, h.offset_lt ?_, d, hmem, ?_⟩
    · simp [hrest]
    · rw [hnext.getElem?_offset]
      rfl
  next =>
    apply Located.error
    exact h.offset_add_length

theorem upToUnescaped (h : c.In text) (stop : Char) :
    Located text (c.upToUnescaped stop) (·.2.In text) := by
  unfold Cursor.upToUnescaped
  split
  next passed rest hcut => exact .ok (h.advance (append_of_cutUnescaped? hcut).1)
  next =>
    apply Located.error
    exact h.offset_add_length

end In

end Cursor

/-! ### Expressions -/

namespace Parser

open Cursor (In)

variable {text : Text} {c : Cursor}

theorem located_quotedRest (h : c.In text) (layout : Layout) :
    Located text (quotedRest layout c) (·.2.In text) := by
  unfold quotedRest
  apply (h.upToUnescaped '"').bind
  rintro ⟨value, c₁⟩ h₁
  apply (h₁.expect layout [['"']]).bind
  rintro ⟨_, c₂⟩ h₂
  exact .ok h₂

theorem located_constraint (h : c.In text) : Located text (constraint c) (·.2.In text) := by
  unfold constraint
  dsimp only
  apply (h.skipLayout.upTo (by simp)).bind
  rintro ⟨name, c₁⟩ ⟨h₁, hname, d, hd, hsign⟩
  dsimp only
  split
  next =>
    apply (h₁.upTo (by simp)).bind
    rintro ⟨symbol, c₂⟩ ⟨h₂, -⟩
    dsimp only
    split
    next =>
      apply (h₂.expect .keep [['"']]).bind
      rintro ⟨_, c₃⟩ h₃
      apply (located_quotedRest h₃ .keep).bind
      rintro ⟨value, c₄⟩ h₄
      exact .ok h₄
    next =>
      -- The name ended at the sign of an operator, and the operator began there.
      apply Located.error
      simp only [List.mem_cons, List.cons.injEq, and_true, List.not_mem_nil, or_false] at hd
      rcases hd with rfl | rfl
      · exact .inl hsign
      · exact .inr hsign
  next => exact .error hname

/-- What is taken stands in front, behind white space. -/
theorem getElem?_of_accept? (h : c.In text) {ch : Char} {s : Text} {c' : Cursor}
    (haccept : c.accept? .skip [[ch]] = some (s, c')) :
    text[c.skipLayout.offset]? = some ch := by
  obtain ⟨-, hmem, hprefix⟩ := h.accept? haccept
  obtain rfl := List.mem_singleton.mp hmem
  obtain ⟨rest, hrest⟩ := hprefix
  have hhead : c.skipLayout.peek? = some ch := by
    change (c.pass .skip).rest.head? = some ch
    rw [← hrest]
    rfl
  rw [h.skipLayout.getElem?_offset, hhead]

theorem skipLayout_skipLayout (c : Cursor) : c.skipLayout.skipLayout = c.skipLayout := by
  have hdrop : (c.rest.dropWhile isLayout).dropWhile isLayout = c.rest.dropWhile isLayout :=
    List.dropWhile_idempotent isLayout c.rest
  have htake : (c.rest.dropWhile isLayout).takeWhile isLayout = [] := by
    have happend := List.takeWhile_append_dropWhile (p := isLayout) (l := c.rest.dropWhile isLayout)
    rw [hdrop] at happend
    simpa using happend
  simp [Cursor.skipLayout, hdrop, htake]

section Chains

variable {next : Cursor → Except ParseError (Expr × Cursor)}

theorem located_chain (hnext : ∀ c : Cursor, c.In text → Located text (next c) (·.2.In text))
    (turns : Nat) (left : Expr) (h : c.In text) :
    Located text (chain next turns left c) (·.2.In text) := by
  induction turns generalizing left c with
  | zero => exact .ok h
  | succ turns ih =>
    rw [chain]
    split
    next => exact .ok h
    next symbol c₁ haccept =>
      apply (hnext c₁ (h.accept? haccept).1).bind
      rintro ⟨right, c₂⟩ h₂
      exact ih _ h₂

theorem located_chainOf (hnext : ∀ c : Cursor, c.In text → Located text (next c) (·.2.In text))
    (h : c.In text) : Located text (chainOf next c) (·.2.In text) := by
  unfold chainOf
  apply (hnext c h).bind
  rintro ⟨first, c₁⟩ h₁
  exact located_chain hnext _ first h₁

end Chains

/-- Parentheses that nest too deep are found at the first of them that does. -/
theorem located_operandWithin (levels : Nat) (h : c.In text) :
    Located text (operandWithin levels c) (·.2.In text) := by
  have hhere := h.skipLayout
  induction levels generalizing c with
  | zero =>
    rw [operandWithin, operand]
    split
    next symbol inside haccept =>
      apply Located.error
      have hopen := getElem?_of_accept? hhere haccept
      rwa [skipLayout_skipLayout] at hopen
    next => exact located_constraint hhere
  | succ levels ih =>
    rw [operandWithin, operand]
    split
    next symbol inside haccept =>
      apply (located_chainOf (fun c h => ih h h.skipLayout) (hhere.accept? haccept).1).bind
      rintro ⟨e, c₁⟩ h₁
      apply (h₁.expect .skip [[')']]).bind
      rintro ⟨_, c₂⟩ h₂
      exact .ok h₂
    next => exact located_constraint hhere

/-! ### Tokens -/

theorem mark_in (h : c.In text) (symbol : Text) : (mark symbol c).2.In text := by
  unfold Parser.mark
  split
  next s c' haccept => exact (h.accept? haccept).1
  next => exact h

theorem located_tag (h : c.In text) : Located text (tag c) (·.2.In text) := by
  unfold tag
  apply (h.expect .skip [['<']]).bind
  rintro ⟨_, c₁⟩ h₁
  apply ((mark_in h₁ ['/']).upTo (by simp [layoutStops])).bind
  rintro ⟨name, c₂⟩ ⟨h₂, -⟩
  apply (h₂.expect .skip [['>']]).bind
  rintro ⟨_, c₃⟩ h₃
  exact .ok h₃

theorem located_tagAt (symbol : Text) (h : c.In text) :
    Located text (tagAt symbol c) (·.2.In text) := by
  unfold tagAt
  split
  next =>
    apply (located_tag h).bind
    rintro ⟨t, c₁⟩ h₁
    exact .ok h₁
  next => exact .ok h

theorem located_count {position : Nat} (h : position < text.length) (digits : Text) :
    Located text (count position digits) fun _ => True := by
  unfold count
  split
  next => exact .ok trivial
  next => exact .error h

theorem located_upperBound (min : UInt32) (h : c.In text) :
    Located text (upperBound min c) (·.2.In text) := by
  unfold upperBound
  split
  next => exact .ok h
  next symbol c₁ haccept =>
    apply ((h.accept? haccept).1.upTo (by simp)).bind
    rintro ⟨digits, c₂⟩ ⟨h₂, hstart, -⟩
    dsimp only
    split
    next => exact .ok h₂
    next =>
      apply (located_count hstart digits).bind
      intro max _
      exact .ok h₂

theorem located_bounds {position : Nat} (hposition : position < text.length) (h : c.In text) :
    Located text (bounds position c) (·.2.In text) := by
  unfold bounds
  apply (h.upTo (by simp)).bind
  rintro ⟨digits, c₁⟩ ⟨h₁, hstart, -⟩
  apply (located_count hstart digits).bind
  intro min _
  apply (located_upperBound min h₁).bind
  rintro ⟨max, c₂⟩ h₂
  apply (h₂.expect .skip [['}']]).bind
  rintro ⟨_, c₃⟩ h₃
  dsimp only
  split
  next => exact .error hposition
  next => exact .ok h₃

theorem located_repeats (h : c.In text) : Located text (repeats c) (·.2.In text) := by
  unfold repeats
  split
  next symbol inside haccept =>
    -- White space in front of the brace is part of what the error points at.
    have hbrace := Text.lt_length_of_getElem? (getElem?_of_accept? h haccept)
    have hposition : c.offset < text.length :=
      Nat.lt_of_le_of_lt (Nat.le_add_right c.offset _) hbrace
    apply (located_bounds hposition (h.accept? haccept).1).bind
    rintro ⟨r, c₁⟩ h₁
    exact .ok h₁
  next =>
    split
    next symbol c₁ haccept => exact .ok (h.accept? haccept).1
    next =>
      split
      next symbol c₁ haccept => exact .ok (h.accept? haccept).1
      next => exact .ok h

theorem located_body (default : Text) (h : c.In text) :
    Located text (body default c) (·.2.In text) := by
  unfold body
  split
  next symbol c₁ haccept =>
    have h₁ := (h.accept? haccept).1
    split
    next symbol c₂ hclose => exact .ok (h₁.accept? hclose).1
    next =>
      apply (located_chainOf (fun c => located_operandWithin maxNesting) h₁).bind
      rintro ⟨e, c₂⟩ h₂
      apply (h₂.expect .skip [[']']]).bind
      rintro ⟨_, c₃⟩ h₃
      exact .ok h₃
  next =>
    apply (h.expect .keep [['"']]).bind
    rintro ⟨_, c₁⟩ h₁
    apply (located_quotedRest h₁ .skip).bind
    rintro ⟨word, c₂⟩ h₂
    exact .ok h₂

theorem located_token (default : Text) (h : c.In text) :
    Located text (token default c) (·.2.In text) := by
  unfold token
  apply (located_tagAt ['<'] h.skipLayout).bind
  rintro ⟨leading, c₁⟩ h₁
  apply (located_body default h₁).bind
  rintro ⟨e, c₂⟩ h₂
  apply (located_repeats h₂).bind
  rintro ⟨r, c₃⟩ h₃
  apply (located_tagAt ['<', '/'] (mark_in h₃ ['?']).skipLayout).bind
  rintro ⟨trailing, c₄⟩ h₄
  exact .ok h₄

/-! ### Queries -/

theorem located_within (h : c.In text) : Located text (within c) (·.2.In text) := by
  unfold within
  apply (h.expect .skip [withinSymbol]).bind
  rintro ⟨_, c₁⟩ h₁
  apply (h₁.expect .skip [['<']]).bind
  rintro ⟨_, c₂⟩ h₂
  apply (h₂.upTo (by simp [layoutStops])).bind
  rintro ⟨name, c₃⟩ ⟨h₃, -⟩
  apply (h₃.expect .skip [['/']]).bind
  rintro ⟨_, c₄⟩ h₄
  apply (h₄.expect .skip [['>']]).bind
  rintro ⟨_, c₅⟩ h₅
  exact .ok h₅

theorem located_item (default : Text) (h : c.In text) :
    Located text (item default c) (·.2.In text) := by
  unfold item
  split
  next =>
    apply (located_within h).bind
    rintro ⟨name, c₁⟩ h₁
    exact .ok h₁
  next =>
    apply (located_token default h).bind
    rintro ⟨t, c₁⟩ h₁
    exact .ok h₁

theorem located_items (default : Text) (turns : Nat) (h : c.In text) :
    Located text (items default turns c) fun _ => True := by
  induction turns generalizing c with
  | zero => exact .ok trivial
  | succ turns ih =>
    rw [items]
    dsimp only
    split
    next => exact .ok trivial
    next =>
      apply (located_item default h.skipLayout).bind
      rintro ⟨first, c₁⟩ h₁
      apply (ih h₁).bind
      intro rest _
      exact .ok trivial

end Parser

namespace Query

theorem located_parse (default text : Text) :
    Located text (parse default text) fun _ => True := by
  have hstart := (Cursor.start_in text).skipLayout
  unfold parse
  dsimp only
  split
  next => exact .ok trivial
  next =>
    apply (Parser.located_token default hstart).bind
    rintro ⟨first, c₁⟩ h₁
    apply (Parser.located_items default _ h₁).bind
    intro items _
    exact .ok trivial

/-- An error is found at the end of the text just where the text ends too soon, and before its end
otherwise. What it says of the character there is so. -/
theorem parse_error_position {default text : Text} {e : ParseError}
    (h : parse default text = .error e) :
    e.PointsInto text ∧
      ((∃ symbols, e = .unexpectedEnd symbols text.length) ∨ e.position < text.length) := by
  have he := (located_parse default text).points e h
  exact ⟨he, he.position_lt⟩

/-- The text `[word == "a"]`. -/
theorem parse_error_position_operator :
    let text : Text := ['[', 'w', 'o', 'r', 'd', ' ', '=', '=', ' ', '"', 'a', '"', ']']
    let e := ParseError.unknownOperator ['=', '='] 6
    parse defaultAttribute text = .error e ∧ e.PointsInto text ∧ text[6]? = some '=' := by
  intro text e
  have h : parse defaultAttribute text = .error e := by decide +kernel
  exact ⟨h, (parse_error_position h).1, rfl⟩

end Query

end CorpusQuery
