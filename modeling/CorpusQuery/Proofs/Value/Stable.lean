import CorpusQuery.Proofs.Value.Alternation

/-! A constraint that was read is read again as it is written, values of a list included. -/

namespace CorpusQuery

/-! ### Quotes -/

namespace Quotes

theorem unescape_append {t : Text} (ht : Plain t) (value : Text) :
    unescape (t ++ value) = t ++ unescape value := by
  induction t with
  | nil => rfl
  | cons c t ih =>
    have hc := ht c List.mem_cons_self
    rw [List.cons_append, unescape.eq_2 c (t ++ value) fun _ hslash _ => hc.2 hslash,
      ih fun d hd => ht d (List.mem_cons_of_mem c hd)]
    rfl

/-- No quote in `t` has a backslash in front that quoting would take for its own. -/
def Clear (t : Text) : Prop :=
  ∀ value, unescape (escape (t ++ value)) = t ++ unescape (escape value)

theorem Clear.unescape_escape {t : Text} (h : Clear t) : unescape (escape t) = t := by
  simpa [escape, escapeFrom, unescape] using h []

theorem Clear.nil : Clear [] := fun _ => rfl

theorem Clear.append {t u : Text} (ht : Clear t) (hu : Clear u) : Clear (t ++ u) := fun value => by
  rw [List.append_assoc, ht, hu, List.append_assoc]

theorem Plain.clear {t : Text} (ht : Plain t) : Clear t := fun value => by
  rw [escape_append ht, unescape_append ht]

theorem head?_escape_ne_quote (value : Text) : (escape value).head? ≠ some '"' := by
  cases value with
  | nil => simp [escape, escapeFrom]
  | cons c rest =>
    rw [escape, escapeFrom]
    split
    next => simp
    next h => simpa using h

theorem clear_escapeChar (c : Char) : Clear (Alternation.escapeChar c) := by
  intro value
  unfold Alternation.escapeChar
  split
  next hmeta =>
    have hquote : c ≠ '"' := by
      rintro rfl
      simp [Alternation.metacharacters] at hmeta
    have hescape : escape ('\\' :: c :: value) = '\\' :: c :: escape value := by
      simp [escape, escapeFrom, escapesNext]
    have hpair : ∀ rest, '\\' = '\\' → c :: escape value = '"' :: rest → False :=
      fun _ _ heq => hquote (List.cons.inj heq).1
    -- A backslash behind the backslash is not taken for one in front of a quote either.
    have hnext : ∀ rest, c = '\\' → escape value = '"' :: rest → False :=
      fun _ _ heq => head?_escape_ne_quote value (by rw [heq]; rfl)
    change unescape (escape ('\\' :: c :: value)) = '\\' :: c :: unescape (escape value)
    rw [hescape, unescape.eq_2 _ _ hpair, unescape.eq_2 _ _ hnext]
  next hplain =>
    have hslash : c ≠ '\\' := fun heq => hplain (heq ▸ rfl)
    by_cases hquote : c = '"'
    · subst hquote
      simp [escape, escapeFrom, escapesNext, unescape]
    · exact Plain.clear (t := [c]) (by simp [Plain, hquote, hslash]) value

theorem clear_escape (literal : Text) : Clear (Alternation.escape literal) := by
  induction literal with
  | nil => exact .nil
  | cons c literal ih =>
    rw [Alternation.escape, List.flatMap_cons]
    exact (clear_escapeChar c).append ih

theorem clear_intercalate {parts : List Text} (h : ∀ p ∈ parts, Clear p) :
    Clear (['|'].intercalate parts) := by
  induction parts with
  | nil => exact .nil
  | cons p rest ih =>
    cases rest with
    | nil => simpa using h
    | cons q rest =>
      rw [List.intercalate_cons_cons]
      have hbar : Clear ['|'] := Plain.clear (by simp [Plain])
      exact (h p List.mem_cons_self |>.append hbar).append
        (ih fun r hr => h r (List.mem_cons_of_mem p hr))

theorem clear_pattern (c : Comparator) {regex : Text} (h : Clear regex) :
    Clear (c.pattern regex) := by
  have hanything : Clear Comparator.anything := Plain.clear (by simp [Plain, Comparator.anything])
  cases c with
  | startsWith => exact h.append hanything
  | endsWith => exact hanything.append h
  | _ => exact h

end Quotes

/-! ### Case marks -/

namespace CaseFlag

theorem decode_encode {value : Text} (h : value.head? ≠ some '(') (sensitive : Bool) :
    decode (encode sensitive value) = (sensitive, value) := by
  cases sensitive with
  | true => exact decode_encode_sensitive value
  | false =>
    have hencode : encode false value = value := rfl
    rw [hencode]
    unfold decode
    split
    next => simp at h
    next => simp at h
    next => rfl

/-- Without a mark there is none to respell. -/
theorem respell_eq_self_of_decode {raw : Text} (h : (decode (Quotes.unescape raw)).1 = false) :
    respell raw = raw := by
  refine respell_eq_self ?_
  rintro ⟨rest, rfl⟩
  rw [Quotes.unescape_append plain_oldMark] at h
  exact absurd (show true = false from h) (by simp)

theorem decode_respell (raw : Text) :
    decode (Quotes.unescape (respell raw)) = decode (Quotes.unescape raw) := by
  by_cases h : oldMark <+: raw
  · obtain ⟨rest, rfl⟩ := h
    rw [respell_oldMark, Quotes.unescape_append plain_mark, Quotes.unescape_append plain_oldMark]
    rfl
  · rw [respell_eq_self h]

theorem head?_pattern_ne (c : Comparator) {regex : Text} (h : regex.head? ≠ some '(') :
    (c.pattern regex).head? ≠ some '(' := by
  cases c with
  | startsWith => cases regex <;> simp_all [Comparator.pattern, Comparator.anything]
  | endsWith => simp [Comparator.pattern, Comparator.anything]
  | _ => exact h

theorem head?_intercalate_ne {parts : List Text} (h : ∀ p ∈ parts, p.head? ≠ some '(') :
    (['|'].intercalate parts).head? ≠ some '(' := by
  match parts with
  | [] => simp
  | [p] => simpa using h
  | [] :: q :: rest => simp
  | (c :: p) :: q :: rest => simpa using h (c :: p) List.mem_cons_self

end CaseFlag

/-! ### Listed spellings -/

namespace Text

theorem lower_eq_nil {t : Text} : lower t = [] ↔ t = [] := by
  cases t with
  | nil => simp [lower, lowerAfter]
  | cons c rest =>
    have hchar : lowerChar c ≠ [] := by
      unfold lowerChar
      split
      next => simp
      next => split <;> simp
    rw [lower, lowerAfter]
    split
    next => split <;> simp
    next => simp [hchar]

end Text

namespace Attribute

/-- What becomes of a literal unless case counts. -/
def listed (a : Attribute) (literal : Text) : Text := (a.canonical? literal).getD literal

theorem lower_listed (a : Attribute) (literal : Text) :
    Text.lower (a.listed literal) = Text.lower literal := by
  unfold listed canonical?
  cases hfind : a.options.find? fun option => Text.lower option.value == Text.lower literal with
  | none => rfl
  | some option => simpa using List.find?_some hfind

theorem listed_listed (a : Attribute) (literal : Text) :
    a.listed (a.listed literal) = a.listed literal := by
  have hsame : a.canonical? (a.listed literal) = a.canonical? literal := by
    rw [canonical?, a.lower_listed, ← canonical?]
  rw [listed, hsame]
  cases h : a.canonical? literal with
  | none => simp [listed, h]
  | some spelling => simp [listed, h]

theorem listed_ne_nil (a : Attribute) {literal : Text} (h : literal ≠ []) :
    a.listed literal ≠ [] := by
  rwa [ne_eq, ← Text.lower_eq_nil, a.lower_listed, Text.lower_eq_nil]

/-- The spelling in which a literal is kept. -/
def spelling (a : Attribute) (caseSensitive : Bool) (literal : Text) : Text :=
  if caseSensitive then literal else a.listed literal

theorem spelling_spelling (a : Attribute) (caseSensitive : Bool) (literal : Text) :
    a.spelling caseSensitive (a.spelling caseSensitive literal) =
      a.spelling caseSensitive literal := by
  cases caseSensitive with
  | true => rfl
  | false => exact a.listed_listed literal

theorem spelling_ne_nil (a : Attribute) (caseSensitive : Bool) {literal : Text} (h : literal ≠ []) :
    a.spelling caseSensitive literal ≠ [] := by
  cases caseSensitive with
  | true => exact h
  | false => exact a.listed_ne_nil h

variable {a : Attribute} {caseSensitive : Bool}

theorem valueOf_eq (value : Text) : a.valueOf caseSensitive value =
    if a.hasValueList ∧ Alternation.encode (Alternation.decode value) = value then
      .multiple ((Alternation.decode value).map (a.spelling caseSensitive))
    else .text value := by
  have hspelling : ∀ literals : List Text,
      (if caseSensitive then literals else literals.map fun l => (a.canonical? l).getD l) =
        literals.map (a.spelling caseSensitive) := by
    intro literals
    cases caseSensitive with
    | true => exact (List.map_id' literals).symm
    | false => rfl
  simp [valueOf, hspelling]

/-- Literals in the spelling that is kept are read as they are. -/
theorem valueOf_encode (hlist : a.hasValueList) {literals : List Text} (hne : literals ≠ [])
    (hspelled : ∀ l ∈ literals, a.spelling caseSensitive l = l) :
    a.valueOf caseSensitive (Alternation.encode literals) = .multiple literals := by
  rw [valueOf_eq, Alternation.decode_encode hne, if_pos ⟨hlist, rfl⟩]
  exact congrArg Value.multiple (List.map_congr_left hspelled |>.trans (List.map_id' _))

end Attribute

/-! ### Constraints of literals -/

namespace Constraint

variable {c : Constraint} {literals : List Text}

/-- What is written of literals. -/
theorem written_literals (hregexes : c.regexes = literals.map Alternation.escape)
    (hne : literals ≠ []) :
    c.written = CaseFlag.encode c.caseSensitive (c.comparator.alternation literals) := by
  obtain ⟨first, rest, rfl⟩ := List.exists_cons_of_ne_nil hne
  simp [written, hregexes, Comparator.alternation]

/-- The case mark and the literals are told apart again, whatever the literals are. -/
theorem decode_escape_written (hregexes : c.regexes = literals.map Alternation.escape)
    (hne : literals ≠ []) :
    CaseFlag.decode (Quotes.unescape (Quotes.escape c.written)) =
      (c.caseSensitive, c.comparator.alternation literals) := by
  -- Escaping leaves no parenthesis in front and no quote with a backslash of its own.
  have hliterals : ∀ p ∈ (literals.map Alternation.escape).map c.comparator.pattern,
      Quotes.Clear p ∧ p.head? ≠ some '(' := by
    simp only [List.map_map, List.mem_map]
    rintro _ ⟨literal, -, rfl⟩
    exact ⟨Quotes.clear_pattern _ (Quotes.clear_escape literal), CaseFlag.head?_pattern_ne _
      (Alternation.head?_escape_ne literal (by decide) (by decide))⟩
  have hjoined : Quotes.Clear (c.comparator.alternation literals) :=
    Quotes.clear_intercalate fun p hp => (hliterals p hp).1
  have hclear : Quotes.Clear c.written := by
    rw [written_literals hregexes hne, CaseFlag.encode]
    split
    next => exact CaseFlag.plain_mark.clear.append hjoined
    next => exact hjoined
  rw [hclear.unescape_escape, written_literals hregexes hne]
  exact CaseFlag.decode_encode (CaseFlag.head?_intercalate_ne fun p hp => (hliterals p hp).2) _

end Constraint

/-! ### Constraints that were read -/

namespace Attribute

variable {a : Attribute} (equality : Equality) {raw : Text}

theorem value_constraintOf_ne_unset : (a.constraintOf equality raw).value ≠ .unset := by
  intro hvalue
  have hblank : (a.constraintOf equality raw).isBlank = false := isBlank_constraintOf equality
  rw [Constraint.isBlank, hvalue] at hblank
  exact absurd (show true = false from hblank) (by simp)

theorem regexes_constraintOf {literals : List Text}
    (h : (a.constraintOf equality raw).value = .multiple literals) :
    (a.constraintOf equality raw).regexes = literals.map Alternation.escape :=
  congrArg Value.regexes h

/-- Literals that were read stand in the value as they were spelled there. -/
theorem exists_originals {literals : List Text}
    (h : (a.constraintOf equality raw).value = .multiple literals) :
    let c := a.constraintOf equality raw
    a.hasValueList ∧ ∃ originals, originals ≠ [] ∧
      literals = originals.map (a.spelling c.caseSensitive) ∧
      (c.comparator ≠ Comparator.ofEquality equality →
        ∃ original, originals = [original] ∧ original ≠ []) ∧
      CaseFlag.encode c.caseSensitive (c.comparator.alternation originals) =
        CaseFlag.respell (Quotes.unescape raw) := by
  rw [constraintOf_eq] at h ⊢
  dsimp only at h ⊢
  rw [← CaseFlag.encode_decode (Quotes.unescape raw)]
  generalize CaseFlag.decode (Quotes.unescape raw) = flag at h ⊢
  have hpattern := Comparator.pattern_decode equality flag.2
  have hequality := Comparator.equality_decode equality flag.2
  generalize hcomparison : (Comparator.ofEquality equality).decode flag.2 = comparison at *
  rw [valueOf_eq] at h
  split at h
  next hwritten =>
    cases h
    have hne : Alternation.decode comparison.2 ≠ [] := Alternation.decode_ne_nil _
    have hwild : comparison.1 ≠ Comparator.ofEquality equality →
        ∃ original, Alternation.decode comparison.2 = [original] ∧ original ≠ [] := by
      intro hwild
      rcases Comparator.decode_wildcard hcomparison with hplain | ⟨-, hrest, hbar⟩
      · exact absurd hplain hwild
      · rw [← hwritten.2] at hbar
        obtain ⟨original, horiginal⟩ := Alternation.exists_eq_singleton hne hbar
        refine ⟨original, horiginal, fun hnil => hrest ?_⟩
        rw [← hwritten.2, horiginal, hnil]
        rfl
    refine ⟨hwritten.1, _, hne, rfl, hwild, ?_⟩
    rw [← Comparator.pattern_encode fun h => (hwild (hequality ▸ h)).imp fun _ => And.left,
      hwritten.2, hpattern]
  next => cases h

/-- What is known of literals that were read. -/
theorem literals_constraintOf {literals : List Text}
    (h : (a.constraintOf equality raw).value = .multiple literals) :
    let c := a.constraintOf equality raw
    a.hasValueList ∧ literals ≠ [] ∧ (∀ l ∈ literals, a.spelling c.caseSensitive l = l) ∧
      (c.comparator ≠ Comparator.ofEquality equality →
        ∃ literal, literals = [literal] ∧ literal ≠ []) := by
  obtain ⟨hlist, originals, hne, rfl, hwild, -⟩ := exists_originals equality h
  refine ⟨hlist, by simpa using hne, ?_, fun hplain => ?_⟩
  · rintro l hl
    obtain ⟨original, -, rfl⟩ := List.mem_map.mp hl
    exact a.spelling_spelling _ original
  · obtain ⟨original, rfl, horiginal⟩ := hwild hplain
    exact ⟨_, rfl, a.spelling_ne_nil _ horiginal⟩

/-- What is written of a constraint that was read is read as the same constraint. -/
theorem constraintOf_escape_written (hraw : Quotes.Closed raw) :
    a.constraintOf equality (Quotes.escape (a.constraintOf equality raw).written) =
      a.constraintOf equality raw := by
  cases hvalue : (a.constraintOf equality raw).value with
  | unset => exact absurd hvalue (value_constraintOf_ne_unset equality)
  | text regex =>
    rw [escape_written_constraintOf equality hvalue hraw, constraintOf_eq, CaseFlag.decode_respell,
      constraintOf_eq]
  | multiple literals =>
    obtain ⟨hlist, hne, hspelled, hwild⟩ := literals_constraintOf equality hvalue
    have hregexes := regexes_constraintOf equality hvalue
    have hequality : (a.constraintOf equality raw).comparator.equality = equality :=
      equality_constraintOf equality
    have hname : (a.constraintOf equality raw).name = a.id := rfl
    have huploaded : (a.constraintOf equality raw).uploaded = none := rfl
    -- What is known of the constraint suffices from here on; how it was read does not matter.
    generalize a.constraintOf equality raw = c at *
    subst hequality
    rw [constraintOf_eq, Constraint.decode_escape_written hregexes hne]
    dsimp only
    rw [Comparator.decode_alternation hne hwild, valueOf_encode hlist hne hspelled, ← hname,
      ← hvalue, ← huploaded]

/-- What is written of a constraint that was read can stand in quotes. -/
theorem closed_escape_written (hraw : Quotes.Closed raw) :
    Quotes.Closed (Quotes.escape (a.constraintOf equality raw).written) := by
  cases hvalue : (a.constraintOf equality raw).value with
  | text regex =>
    rw [escape_written_constraintOf equality hvalue hraw]
    exact CaseFlag.closed_respell hraw
  | unset => exact Constraint.Settled.closed fun _ _ htext => by simp [hvalue] at htext
  | multiple literals => exact Constraint.Settled.closed fun _ _ htext => by simp [hvalue] at htext

/-- Literals are written again in their listed spellings, unless case counts. -/
theorem escape_written_literals {literals : List Text}
    (h : (a.constraintOf equality raw).value = .multiple literals) (hraw : Quotes.Closed raw) :
    let c := a.constraintOf equality raw
    Quotes.escape c.written = CaseFlag.respell raw ∨
      a.hasValueList ∧ c.caseSensitive = false ∧ ∃ originals,
        literals = originals.map a.listed ∧
        raw = Quotes.escape (c.comparator.alternation originals) ∧
        Quotes.escape c.written = Quotes.escape (c.comparator.alternation literals) := by
  obtain ⟨hlist, originals, hne, hliterals, -, hencode⟩ := exists_originals equality h
  have hwritten := Constraint.written_literals (regexes_constraintOf equality h)
    (by simpa [hliterals] using hne)
  have hrespell : Quotes.escape (CaseFlag.respell (Quotes.unescape raw)) = CaseFlag.respell raw := by
    rw [CaseFlag.escape_respell, Quotes.escape_unescape hraw]
  cases hsensitive : (a.constraintOf equality raw).caseSensitive with
  | true =>
    rw [hsensitive] at hwritten hencode hliterals
    -- Where case counts, no literal is respelled.
    have hsame : literals = originals := hliterals.trans (List.map_id' _)
    exact .inl (by rw [hwritten, hsame, hencode, hrespell])
  | false =>
    rw [hsensitive] at hwritten hencode hliterals
    have hraw' : CaseFlag.respell raw = raw := CaseFlag.respell_eq_self_of_decode hsensitive
    refine .inr ⟨hlist, hsensitive, originals, hliterals, ?_, by rw [hwritten]; rfl⟩
    calc raw = CaseFlag.respell raw := hraw'.symm
      _ = Quotes.escape (CaseFlag.respell (Quotes.unescape raw)) := hrespell.symm
      _ = Quotes.escape ((a.constraintOf equality raw).comparator.alternation originals) := by
        rw [← hencode]
        rfl

/-- Reading is stable. A constraint that was read writes a value that is read as the same
constraint. The value is spelled as it was, but for the case mark in front and for literals of a
list, where case does not count. -/
theorem constraintOf_stable (a : Attribute) (equality : Equality) {raw : Text}
    (hraw : Quotes.Guarded raw) :
    let c := a.constraintOf equality raw
    ∃ raw', c.cql = a.id ++ [' '] ++ equality.symbol ++ [' ', '"'] ++ raw' ++ ['"'] ∧
      Quotes.Guarded raw' ∧
      a.constraintOf equality raw' = c ∧
      (raw' = CaseFlag.respell raw ∨
        a.hasValueList ∧ c.caseSensitive = false ∧ ∃ originals,
          c.value = .multiple (originals.map a.listed) ∧
          raw = Quotes.escape (c.comparator.alternation originals) ∧
          raw' = Quotes.escape (c.comparator.alternation (originals.map a.listed))) := by
  intro c
  rw [← Quotes.closed_iff_guarded] at hraw
  refine ⟨Quotes.escape c.written, ?_,
    Quotes.closed_iff_guarded.mp (closed_escape_written equality hraw),
    constraintOf_escape_written equality hraw, ?_⟩
  · rw [Constraint.cql, isBlank_constraintOf, equality_constraintOf]
    rfl
  · cases hvalue : c.value with
    | unset => exact absurd hvalue (value_constraintOf_ne_unset equality)
    | text regex => exact .inl (escape_written_constraintOf equality hvalue hraw)
    | multiple literals =>
      refine (escape_written_literals equality hvalue hraw).imp_right ?_
      rintro ⟨hlist, hsensitive, originals, rfl, horiginals, hwritten⟩
      exact ⟨hlist, hsensitive, originals, rfl, horiginals, hwritten⟩

/-- The value `n\.\*|\(\?c\)|\"` becomes `N\.\*|\(\?C\)|\"` where `N.*`, `n.*` and `(?C)` are
listed. -/
theorem constraintOf_stable_listed :
    let a : Attribute := ⟨['p', 'o', 's'], none, false, some [⟨['N', '.', '*'], none⟩,
      ⟨['n', '.', '*'], none⟩, ⟨['(', '?', 'C', ')'], none⟩]⟩
    let raw : Text :=
      ['n', '\\', '.', '\\', '*', '|', '\\', '(', '\\', '?', 'c', '\\', ')', '|', '\\', '"']
    let raw' : Text :=
      ['N', '\\', '.', '\\', '*', '|', '\\', '(', '\\', '?', 'C', '\\', ')', '|', '\\', '"']
    Quotes.Guarded raw ∧
      (a.constraintOf .equal raw).cql = ['p', 'o', 's', ' ', '=', ' ', '"'] ++ raw' ++ ['"'] ∧
      Quotes.Guarded raw' ∧ a.constraintOf .equal raw' = a.constraintOf .equal raw := by
  intro a raw raw'
  have hraw : Quotes.Guarded raw := by
    rw [← Quotes.closed_iff_guarded]
    simp [raw, Quotes.Closed, Quotes.closedFrom, escapesNext]
  have hcql : (a.constraintOf .equal raw).cql =
      ['p', 'o', 's', ' ', '=', ' ', '"'] ++ raw' ++ ['"'] := by decide +kernel
  obtain ⟨raw'', hcql', hguarded, hsame, -⟩ := constraintOf_stable a .equal hraw
  have hraw'' : raw'' = raw' := by
    rw [hcql] at hcql'
    exact (List.append_cancel_left (List.append_cancel_right hcql')).symm
  subst hraw''
  exact ⟨hraw, hcql, hguarded, hsame⟩

end Attribute

end CorpusQuery
