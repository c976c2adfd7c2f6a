import CorpusQuery.Proofs.Query.Term

/-! A token is read with its brackets, its repetition and its tags. -/

namespace CorpusQuery

/-! ### Counts -/

theorem Text.isDigit_of_mem_decimal {n : Nat} {c : Char} (hc : c ∈ decimal n) : c.isDigit :=
  Nat.isDigit_of_mem_toDigits (by decide) (by decide) hc

theorem Text.decimal_ne_nil (n : Nat) : decimal n ≠ [] := by
  intro h
  have hlength := Nat.length_toDigits_pos (b := 10) (n := n)
  rw [decimal] at h
  simp [h] at hlength

theorem Text.isBlank_of_isDigit {c : Char} (hc : c.isDigit) : isBlank c = false := by
  have hrange := Char.isDigit_iff_toNat.mp hc
  simp only [Char.reduceToNat] at hrange
  simp only [isBlank, blankPoints, CodePoints.has, List.any_cons, List.any_nil, Bool.or_eq_false_iff,
    Bool.and_eq_false_iff, decide_eq_false_iff_not]
  simp only [Nat.not_le, and_true]
  omega

/-- What is written of a number stands for it. -/
theorem Grammar.Count.of_decimal (n : UInt32) : Grammar.Count (Text.decimal n.toNat) n :=
  .mk _ n [] (Text.decimal n.toNat) (.inl rfl) (Text.decimal_ne_nil _)
    (fun _ hc => Text.isDigit_of_mem_decimal hc)
    (Text.trim_eq_self fun _ hc => Text.isBlank_of_isDigit (Text.isDigit_of_mem_decimal hc))
    Nat.ofDigitChars_ten_toDigits

/-! ### Repetitions -/

namespace Parser

/-- How an upper bound is written behind a lower one. -/
def upperText (min : UInt32) : Option UInt32 → Text
  | none => [',']
  | some max => if min = max then [] else ',' :: Text.decimal max.toNat

end Parser

namespace Repeats

/-- Bounds that have no shorter spelling stand in braces. -/
theorem cql_eq_braces {r : Repeats} (hone : r ≠ ⟨1, some 1⟩) (hoption : r ≠ ⟨0, some 1⟩)
    (hstar : r ≠ ⟨0, none⟩) (hplus : r ≠ ⟨1, none⟩) :
    r.cql = '{' :: (Text.decimal r.min.toNat ++ (Parser.upperText r.min r.max ++ ['}'])) := by
  unfold cql
  rw [if_neg hone, if_neg hoption, if_neg hstar, if_neg hplus]
  cases hmax : r.max with
  | none => simp [Parser.upperText]
  | some max => by_cases h : r.min = max <;> simp [Parser.upperText, h]

/-- What is written of bounds stands for them. -/
theorem bounds_cql {r : Repeats} (hr : r.exceeded? = none) (hone : r ≠ ⟨1, some 1⟩)
    (hoption : r ≠ ⟨0, some 1⟩) : Grammar.Bounds r.cql r := by
  by_cases hstar : r = ⟨0, none⟩
  · subst hstar
    exact .star
  by_cases hplus : r = ⟨1, none⟩
  · subst hplus
    exact .plus
  rw [cql_eq_braces hone hoption hstar hplus]
  obtain ⟨min, max⟩ := r
  have hmin := Grammar.Count.of_decimal min
  cases max with
  | none => exact .atLeast [] _ [] [] min .nil hmin .nil rfl
  | some max =>
    by_cases hmax : min = max
    · subst hmax
      simpa [Parser.upperText] using Grammar.Bounds.exactly [] _ min .nil hmin
    · have hle : min ≤ max := by simpa [exceeded?] using hr
      simpa [Parser.upperText, hmax] using Grammar.Bounds.between [] _ [] _ min max .nil hmin .nil
        (Grammar.Count.of_decimal max) hle

theorem behind_written {r : Repeats} (hr : r.exceeded? = none) :
    Grammar.Behind Grammar.Bounds ((r.written?.map Repeats.cql).getD []) r.written? := by
  unfold written?
  split
  next => exact .absent
  next hplain =>
    rw [not_or] at hplain
    exact .present [] r.cql r .nil (bounds_cql hr hplain.1 hplain.2)

end Repeats

theorem Grammar.Behind.of_marked (marked : Bool) :
    ∃ optional : Option Unit, optional.isSome = marked ∧
      Grammar.Behind Grammar.Mark (if marked then ['?'] else []) optional := by
  cases marked with
  | true => exact ⟨some (), rfl, .present [] ['?'] () .nil .mk⟩
  | false => exact ⟨none, rfl, .absent⟩

/-! ### Tags -/

/-- A tag of a sentence. -/
def Parser.tagText (closing : Bool) : Text :=
  ['<'] ++ ((if closing then ['/'] else []) ++ ['s', '>'])

theorem Grammar.Tag.of_sentence (closing : Bool) :
    Grammar.Tag (Parser.tagText closing) ⟨sentenceTag, closing⟩ := by
  have hname : ∀ c ∈ sentenceTag, isLayout c = false ∧ c ≠ '>' := by simp [sentenceTag, isLayout]
  cases closing with
  | false => exact .opening [] sentenceTag [] .nil hname (by decide) .nil
  | true => exact .closing [] [] sentenceTag [] .nil .nil hname .nil

theorem Grammar.Ahead.of_sentence (opens : Bool) :
    Grammar.Ahead Grammar.Tag (if opens then Parser.tagText false ++ [' '] else [])
      (if opens then some ⟨sentenceTag, false⟩ else none) := by
  cases opens with
  | true => exact .present _ [' '] _ (.of_sentence false) (by simp [Grammar.Gap, isLayout])
  | false => exact .absent

theorem Grammar.Behind.of_sentence (closes : Bool) :
    Grammar.Behind Grammar.TrailingTag (if closes then [' '] ++ Parser.tagText true else [])
      (if closes then some ⟨sentenceTag, true⟩ else none) := by
  cases closes with
  | true =>
    exact .present [' '] _ _ (by simp [Grammar.Gap, isLayout])
      ⟨.of_sentence true, List.prefix_append _ _⟩
  | false => exact .absent

/-! ### Tokens -/

/-- Everything in a token can be told from what stands around it. -/
structure Slot.Readable (t : Slot (Option Term)) : Prop where
  root : ∀ u ∈ t.root, u.Readable
  repeats : t.repeats.exceeded? = none

/-- A suffix is bounds with a mark behind them. -/
theorem Slot.suffix_eq {ρ : Type} (t : Slot ρ) :
    t.suffix = (t.repeats.written?.map Repeats.cql).getD [] ++ if t.marked then ['?'] else [] := by
  unfold Slot.suffix Slot.marked Repeats.written?
  by_cases hone : t.repeats = .once
  · simp [hone, Repeats.once, Repeats.cql]
  by_cases hoption : t.repeats = ⟨0, some 1⟩
  · simp [hoption, Repeats.cql]
  · simp [hone, hoption]

/-- Parentheses nest in no token deeper than is allowed. -/
def Slot.Shallow (t : Slot (Option Term)) : Prop := ∀ u ∈ t.root, u.depth ≤ Parser.maxNesting + 1

namespace Parser

theorem readsIf_body {u : Option Term} (hu : ∀ t ∈ u, t.Readable) (default : Text) {tail : Text}
    {c : Cursor} (hc : c.Before ('[' :: ((u.map Term.inner).getD [] ++ ']' :: tail))) :
    ReadsIf (∀ t ∈ u, t.depth ≤ maxNesting + 1) (body default c) (u.map Term.expr)
      (·.Before tail) := by
  cases u with
  | none => exact (Grammar.reads_body_any .nil hc).readsIf (by simp)
  | some t =>
    have hnext : ∀ ch, ch ≠ ']' → Text.next? (']' :: tail) ≠ some ch := fun ch hch =>
      Text.next?_ne (by decide) hch.symm tail
    have hinner : (t.inner ++ ']' :: tail).next? ≠ some ']' := by
      obtain ⟨ch, rest, heq, hch, hne⟩ := t.exists_inner_eq (hu t rfl)
      rw [heq, List.cons_append]
      exact Text.next?_ne hch hne _
    exact (Grammar.readsIf_brackets hinner (fun c hc => t.readsIf_inner (hu t rfl)
      (hnext '&' (by decide)) (hnext '|' (by decide)) hc) hc).congr (by simp)

/-- What may stand behind a token without becoming part of it. -/
structure Follows (tail : Text) : Prop where
  next : ∀ ch ∈ ['{', '*', '+', '?'], tail.next? ≠ some ch
  not_closing : ¬ ['<', '/'] <+: tail.dropWhile isLayout

theorem readsIf_token {t : Slot (Option Term)} (ht : t.Readable) (default : Text) {tail : Text}
    (htail : Follows tail) {c : Cursor} (hc : c.Before (t.text ++ tail)) :
    ReadsIf t.Shallow (token default c) t.token (·.Before tail) := by
  obtain ⟨optional, hoptional, hmark⟩ := Grammar.Behind.of_marked t.marked
  have htext : t.text ++ tail = (if t.opensSentence then tagText false ++ [' '] else []) ++
      ('[' :: ((t.root.map Term.inner).getD [] ++ [']']) ++
        ((t.repeats.written?.map Repeats.cql).getD [] ++ ((if t.marked then ['?'] else []) ++
          ((if t.closesSentence then [' '] ++ tagText true else []) ++ tail)))) := by
    rw [Slot.text, Slot.cqlAround, Slot.suffix_eq]
    cases hopens : t.opensSentence <;> cases hcloses : t.closesSentence <;> simp [tagText]
  rw [htext] at hc
  have hread := Grammar.readsIf_token (Grammar.Ahead.of_sentence t.opensSentence)
    ⟨'[', _, rfl, .inl rfl⟩ (fun hc => readsIf_body ht.root default (congrArg _ (by simpa using hc)))
    (Repeats.behind_written ht.repeats) hmark (Grammar.Behind.of_sentence t.closesSentence)
    htail.next (fun _ => htail.not_closing) hc
  rwa [hoptional] at hread

end Parser

/-- What is written of a token admits the same numbers. -/
theorem Slot.admits_token (t : Slot (Option Term)) (n : Nat) : t.token.Admits n ↔ t.Admits n := by
  unfold Token.Admits Token.bounds Slot.Admits Slot.token Slot.marked Repeats.written?
  by_cases hone : t.repeats = .once
  · simp [hone, Repeats.once]
  by_cases hoption : t.repeats = ⟨0, some 1⟩
  · simp [hoption, Repeats.once, Repeats.Admits]
    omega
  · have hzero : t.repeats.min = 0 → t.repeats.Admits 0 := fun h => ⟨by simp [h], by simp⟩
    -- The mark is only written where the bounds do not admit zero by themselves.
    simp only [hone, hoption, or_self, if_false, Option.getD_some, beq_iff_eq, Bool.or_eq_true,
      Bool.and_eq_true, bne_iff_ne, false_or]
    constructor
    · rintro (h | ⟨⟨hmark, -⟩, rfl⟩)
      · exact .inl h
      · exact .inr ⟨hmark, rfl⟩
    · rintro (h | ⟨hmark, rfl⟩)
      · exact .inl h
      · by_cases hmin : t.repeats.min = 0
        · exact .inl (hzero hmin)
        · exact .inr ⟨⟨hmark, hmin⟩, rfl⟩

end CorpusQuery
