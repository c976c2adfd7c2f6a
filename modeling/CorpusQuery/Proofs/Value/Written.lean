import CorpusQuery.Builder.Load
import CorpusQuery.Proofs.Value.Quotes

/-! What a constraint writes is read as a constraint that writes the same. -/

namespace CorpusQuery

namespace Quotes

/-- Characters that quoting passes over. -/
def Plain (t : Text) : Prop := ∀ c ∈ t, c ≠ '"' ∧ c ≠ '\\'

theorem escape_cons {c : Char} (hquote : c ≠ '"') (hslash : c ≠ '\\') (value : Text) :
    escape (c :: value) = c :: escape value := by
  have hnext : escapesNext false c = false := by simp [escapesNext, hslash]
  rw [escape, escapeFrom, hnext, if_neg (by simp [hquote])]
  rfl

theorem escape_append {t : Text} (ht : Plain t) (value : Text) :
    escape (t ++ value) = t ++ escape value := by
  induction t with
  | nil => rfl
  | cons c t ih =>
    have hc := ht c List.mem_cons_self
    rw [List.cons_append, escape_cons hc.1 hc.2, ih fun d hd => ht d (List.mem_cons_of_mem c hd)]
    rfl

theorem closed_append_iff {t : Text} (ht : Plain t) {value : Text} :
    Closed (t ++ value) ↔ Closed value := by
  induction t with
  | nil => exact Iff.rfl
  | cons c t ih =>
    have hc := ht c List.mem_cons_self
    have hnext : escapesNext false c = false := by simp [escapesNext, hc.2]
    rw [Closed, List.cons_append, closedFrom, hnext,
      and_iff_right fun heq => absurd heq hc.1]
    exact ih fun d hd => ht d (List.mem_cons_of_mem c hd)

/-- Quoting brings no plain text to the front. -/
theorem prefix_escape_iff {t value : Text} (ht : Plain t) : t <+: escape value ↔ t <+: value := by
  constructor
  · intro h
    induction t generalizing value with
    | nil => exact List.nil_prefix
    | cons c t ih =>
      have hc := ht c List.mem_cons_self
      have hrest : Plain t := fun d hd => ht d (List.mem_cons_of_mem c hd)
      cases value with
      | nil => simp [escape, escapeFrom] at h
      | cons d value =>
        by_cases hquote : d = '"'
        · simp only [escape, escapeFrom, hquote, beq_self_eq_true, Bool.not_false, Bool.and_self,
            if_true, List.cons_append] at h
          exact absurd (List.cons_prefix_cons.mp h).1 hc.2
        by_cases hslash : d = '\\'
        · simp only [escape, escapeFrom, hslash, List.singleton_append, Char.reduceBEq,
            Bool.false_and, Bool.false_eq_true, if_false] at h
          exact absurd (List.cons_prefix_cons.mp h).1 hc.2
        · rw [escape_cons hquote hslash, List.cons_prefix_cons] at h
          exact List.cons_prefix_cons.mpr ⟨h.1, ih hrest h.2⟩
  · rintro ⟨rest, rfl⟩
    exact ⟨escape rest, (escape_append ht rest).symm⟩

end Quotes

namespace Comparator

theorem stem?_eq_some {value stem : Text} (h : stem? value = some stem) :
    value = stem ++ anything := by
  unfold stem? at h
  split at h
  next reversed heq =>
    split at h
    next => cases h
    next =>
      cases h
      rw [← value.reverse_reverse, heq]
      simp [anything]
  next => cases h

/-- Whichever comparison is read out of a value, it writes the value again. -/
theorem pattern_decode (equality : Equality) (value : Text) :
    ((ofEquality equality).decode value).1.pattern ((ofEquality equality).decode value).2 = value := by
  -- Unless a wildcard is read off the value, the comparison is the plain one.
  have hplain : (ofEquality equality).pattern value = value := by cases equality <;> rfl
  unfold decode
  split
  · split
    · rfl
    · split
      next stem hstem => exact (stem?_eq_some hstem).symm
      next => exact hplain
  · exact hplain

theorem equality_decode (equality : Equality) (value : Text) :
    ((ofEquality equality).decode value).1.equality = equality := by
  unfold decode
  split
  next h =>
    have hequal : equality = .equal := by
      cases equality with
      | equal => rfl
      | notEqual => cases h.1
    subst hequal
    split
    · rfl
    · split <;> rfl
  next => cases equality <;> rfl

end Comparator

namespace CaseFlag

/-- The spelling of the mark that is read and never written. -/
def oldMark : Text := ['(', '?', 'c', ')']

/-- A value with the mark in the spelling that is written. -/
def respell (value : Text) : Text :=
  if oldMark.isPrefixOf value then mark ++ value.drop oldMark.length else value

theorem respell_oldMark (value : Text) : respell (oldMark ++ value) = mark ++ value := by
  have hprefix : oldMark.isPrefixOf (oldMark ++ value) :=
    List.isPrefixOf_iff_prefix.mpr (List.prefix_append ..)
  rw [respell, if_pos hprefix, List.drop_left]

theorem respell_eq_self {value : Text} (h : ¬ oldMark <+: value) : respell value = value := by
  rw [respell, if_neg (mt List.isPrefixOf_iff_prefix.mp h)]

theorem encode_decode (value : Text) :
    encode (decode value).1 (decode value).2 = respell value := by
  unfold decode
  split
  next rest => exact (respell_eq_self (by simp [oldMark, encode, mark])).symm
  next rest => exact (respell_oldMark rest).symm
  next _ hold =>
    -- Neither spelling of the mark is in front.
    refine (respell_eq_self ?_).symm
    rintro ⟨rest, rfl⟩
    exact hold rest rfl

theorem plain_mark : Quotes.Plain mark := by
  simp [Quotes.Plain, mark]

theorem plain_oldMark : Quotes.Plain oldMark := by
  simp [Quotes.Plain, oldMark]

theorem closed_respell {value : Text} (h : Quotes.Closed value) : Quotes.Closed (respell value) := by
  by_cases hold : oldMark <+: value
  · obtain ⟨rest, rfl⟩ := hold
    rw [Quotes.closed_append_iff plain_oldMark] at h
    rwa [respell_oldMark, Quotes.closed_append_iff plain_mark]
  · rwa [respell_eq_self hold]

/-- It makes no difference whether the mark is rewritten with the quotes escaped or not. -/
theorem escape_respell (value : Text) :
    Quotes.escape (respell (Quotes.unescape value)) =
      respell (Quotes.escape (Quotes.unescape value)) := by
  generalize Quotes.unescape value = v
  by_cases h : oldMark <+: v
  · obtain ⟨rest, rfl⟩ := h
    rw [respell_oldMark, Quotes.escape_append plain_mark, Quotes.escape_append plain_oldMark,
      respell_oldMark]
  · rw [respell_eq_self h, respell_eq_self (mt (Quotes.prefix_escape_iff plain_oldMark).mp h)]

end CaseFlag

namespace Attribute

variable {a : Attribute} (equality : Equality) {raw : Text}

theorem name_constraintOf : (a.constraintOf equality raw).name = a.id := rfl

theorem equality_constraintOf : (a.constraintOf equality raw).comparator.equality = equality :=
  Comparator.equality_decode equality _

theorem constraintOf_eq : a.constraintOf equality raw =
    let flag := CaseFlag.decode (Quotes.unescape raw)
    let comparison := (Comparator.ofEquality equality).decode flag.2
    ⟨a.id, comparison.1, flag.1, a.valueOf flag.1 comparison.2, none⟩ := rfl

theorem exists_value_constraintOf (ha : a.hasValueList = false) :
    ∃ regex, (a.constraintOf equality raw).value = .text regex := by
  simp [constraintOf_eq, valueOf, ha]

theorem eq_of_valueOf_eq_text {caseSensitive : Bool} {value regex : Text}
    (h : a.valueOf caseSensitive value = .text regex) : regex = value := by
  unfold valueOf at h
  dsimp only at h
  split at h
  next => cases h
  next => exact (Value.text.inj h).symm

/-- A constraint that is read has a value. -/
theorem isBlank_constraintOf : (a.constraintOf equality raw).isBlank = false := by
  rw [constraintOf_eq]
  unfold Constraint.isBlank valueOf
  dsimp only
  split <;> rfl

/-- A regex is kept as it is between the quotes, but for the spelling of the case mark. -/
theorem escape_written_constraintOf {regex : Text}
    (hvalue : (a.constraintOf equality raw).value = .text regex) (hraw : Quotes.Closed raw) :
    Quotes.escape (a.constraintOf equality raw).written = CaseFlag.respell raw := by
  have hwritten : (a.constraintOf equality raw).written =
      CaseFlag.respell (Quotes.unescape raw) := by
    rw [constraintOf_eq] at hvalue ⊢
    dsimp only at hvalue ⊢
    rw [hvalue, eq_of_valueOf_eq_text hvalue, ← CaseFlag.encode_decode]
    simp only [Constraint.written, Constraint.regexes, Value.regexes, List.map_cons, List.map_nil,
      List.intercalate_singleton, Comparator.pattern_decode]
  -- The mark has no quotes in it, so it can be rewritten in the text as it was between the quotes.
  rw [hwritten, CaseFlag.escape_respell, Quotes.escape_unescape hraw]

end Attribute

/-! ### What a constraint writes between quotes -/

/-- A text that begins with `p` does so by itself if no part of `p` can be in what follows. -/
theorem Text.prefix_of_prefix_append {p u v : Text} (h : p <+: u ++ v)
    (hv : ∀ c ∈ v.head?, c ∉ p) : p <+: u := by
  rcases List.prefix_or_prefix_of_prefix h (List.prefix_append u v) with hu | ⟨rest, rfl⟩
  · exact hu
  · rw [List.prefix_append_right_inj] at h
    cases rest with
    | nil => simp
    | cons c rest =>
      obtain ⟨v', rfl⟩ := h
      exact absurd (by simp) (hv c rfl)

theorem endsEscaping_eq (t : Text) : endsEscaping t = escapesAfter false t := rfl

theorem endsEscaping_append {t u : Text} (ht : endsEscaping t = false) :
    endsEscaping (t ++ u) = endsEscaping u := by
  rw [endsEscaping_eq, escapesAfter_append, ← endsEscaping_eq t, ht]
  rfl

namespace Alternation

theorem endsEscaping_escape (literal : Text) : endsEscaping (escape literal) = false := by
  induction literal with
  | nil => rfl
  | cons c rest ih =>
    have hc : endsEscaping (escapeChar c) = false := by
      unfold escapeChar
      split
      next => simp [endsEscaping, escapesNext]
      next h =>
        have hslash : c ≠ '\\' := fun heq => h (heq ▸ rfl)
        simp [endsEscaping, escapesNext, hslash]
    rw [escape, List.flatMap_cons, endsEscaping_append hc]
    exact ih

/-- An escaped literal begins with a backslash, if the literal begins with what has a meaning. -/
theorem head?_escape_ne (literal : Text) {d : Char} (hmeta : metacharacters.contains d)
    (hslash : d ≠ '\\') : (escape literal).head? ≠ some d := by
  cases literal with
  | nil => simp [escape]
  | cons c rest =>
    rw [escape, List.flatMap_cons, escapeChar]
    split
    next => simpa using hslash.symm
    next h =>
      intro heq
      have hc : c = d := by simpa using heq
      exact h (hc ▸ hmeta)

end Alternation

theorem Comparator.endsEscaping_pattern (c : Comparator) {regex : Text}
    (h : endsEscaping regex = false) : endsEscaping (c.pattern regex) = false := by
  cases c with
  | startsWith => exact endsEscaping_append h
  | endsWith => exact endsEscaping_append (t := anything) rfl ▸ h
  | _ => exact h

theorem endsEscaping_intercalate {parts : List Text} (h : ∀ p ∈ parts, endsEscaping p = false) :
    endsEscaping (['|'].intercalate parts) = false := by
  induction parts with
  | nil => rfl
  | cons p rest ih =>
    cases rest with
    | nil => simpa using h
    | cons q rest =>
      rw [List.intercalate_cons_cons, List.append_assoc, endsEscaping_append (h p List.mem_cons_self),
        endsEscaping_append (t := ['|']) rfl]
      exact ih fun r hr => h r (List.mem_cons_of_mem p hr)

namespace CaseFlag

/-- Neither a comparison nor an alternation brings the old mark to the front. -/
theorem not_oldMark_pattern (c : Comparator) {regex : Text} (h : ¬ oldMark <+: regex) :
    ¬ oldMark <+: c.pattern regex := by
  cases c with
  | startsWith =>
    -- The wildcard behind begins with a dot, which the mark does not have.
    exact fun hprefix =>
      h (Text.prefix_of_prefix_append hprefix (by simp [Comparator.anything, oldMark]))
  | endsWith => simp [Comparator.pattern, Comparator.anything, oldMark]
  | _ => exact h

theorem not_oldMark_intercalate {parts : List Text} (h : ∀ p ∈ parts, ¬ oldMark <+: p) :
    ¬ oldMark <+: ['|'].intercalate parts := by
  match parts with
  | [] => simp [oldMark]
  | [p] => simpa using h
  | p :: q :: rest =>
    rw [List.intercalate_cons_cons, List.append_assoc]
    exact fun hprefix =>
      h p List.mem_cons_self (Text.prefix_of_prefix_append hprefix (by simp [oldMark]))

end CaseFlag

namespace Constraint

/-- A regex that is written as it stands does not have the closing quote escaped, and is not taken
for a case-sensitive one. -/
def Settled (c : Constraint) : Prop :=
  ∀ regex, c.uploaded = none → c.value = .text regex →
    endsEscaping regex = false ∧ (c.caseSensitive = false → ¬ CaseFlag.oldMark <+: regex)

theorem Settled.regexes {c : Constraint} (h : c.Settled) :
    ∀ regex ∈ c.regexes, endsEscaping regex = false ∧
      (c.caseSensitive = false → ¬ CaseFlag.oldMark <+: regex) := by
  have hliteral : ∀ literals : List Text, ∀ regex ∈ literals.map Alternation.escape,
      endsEscaping regex = false ∧ (c.caseSensitive = false → ¬ CaseFlag.oldMark <+: regex) := by
    intro literals regex hmem
    obtain ⟨literal, -, rfl⟩ := List.mem_map.mp hmem
    refine ⟨Alternation.endsEscaping_escape literal, fun _ hprefix => ?_⟩
    obtain ⟨rest, heq⟩ := hprefix
    exact Alternation.head?_escape_ne literal (d := '(') (by decide) (by decide) (heq ▸ rfl)
  unfold Constraint.regexes
  split
  next text huploaded => exact hliteral _
  next huploaded =>
    cases hvalue : c.value with
    | unset => simp [Value.regexes]
    | text regex => simpa [Value.regexes] using h regex huploaded hvalue
    | multiple literals => exact hliteral literals

theorem Settled.written {c : Constraint} (h : c.Settled) :
    endsEscaping c.written = false ∧ ¬ CaseFlag.oldMark <+: c.written := by
  -- A constraint without values writes one empty regex, so both cases come to a list of regexes.
  have hencode : ∀ regexes : List Text, (∀ regex ∈ regexes, endsEscaping regex = false ∧
      (c.caseSensitive = false → ¬ CaseFlag.oldMark <+: regex)) →
      endsEscaping (CaseFlag.encode c.caseSensitive
        (['|'].intercalate (regexes.map c.comparator.pattern))) = false ∧
      ¬ CaseFlag.oldMark <+: CaseFlag.encode c.caseSensitive
        (['|'].intercalate (regexes.map c.comparator.pattern)) := by
    intro regexes hregexes
    have hends : endsEscaping (['|'].intercalate (regexes.map c.comparator.pattern)) = false := by
      refine endsEscaping_intercalate fun p hp => ?_
      obtain ⟨regex, hmem, rfl⟩ := List.mem_map.mp hp
      exact c.comparator.endsEscaping_pattern (hregexes regex hmem).1
    cases hsensitive : c.caseSensitive with
    | true =>
      -- With the new mark in front the old one is not, and without it no regex brings the old mark.
      refine ⟨(endsEscaping_append (t := CaseFlag.mark) rfl).trans hends, ?_⟩
      simp [CaseFlag.encode, CaseFlag.mark, CaseFlag.oldMark]
    | false =>
      refine ⟨hends, CaseFlag.not_oldMark_intercalate fun p hp => ?_⟩
      obtain ⟨regex, hmem, rfl⟩ := List.mem_map.mp hp
      exact CaseFlag.not_oldMark_pattern _ ((hregexes regex hmem).2 hsensitive)
  have hregexes := h.regexes
  unfold Constraint.written
  split
  next => exact hencode [[]] (by simp [endsEscaping, CaseFlag.oldMark])
  next => exact hencode _ hregexes

/-- Between the quotes of a constraint no quote ends the value early. -/
theorem Settled.closed {c : Constraint} (h : c.Settled) : Quotes.Closed (Quotes.escape c.written) :=
  Quotes.closed_escape.mpr h.written.1

theorem Settled.respell {c : Constraint} (h : c.Settled) :
    CaseFlag.respell (Quotes.escape c.written) = Quotes.escape c.written :=
  CaseFlag.respell_eq_self (mt (Quotes.prefix_escape_iff CaseFlag.plain_oldMark).mp h.written.2)

end Constraint

end CorpusQuery
