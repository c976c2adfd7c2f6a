import CorpusQuery.Proofs.Value.Stable

/-!
Rows of escaped literals. Nothing is lost in them, and the check that a value passes before it is
taken apart accepts these rows and no other value.
-/

namespace CorpusQuery

namespace Alternation

/-! ### Cutting first, and taking the backslashes off afterwards -/

/-- Cuts at every bar that is not escaped. The backslashes stay. -/
def cut (escaped : Bool) : Text → List Text
  | [] => [[]]
  | c :: rest =>
    if c == '|' && !escaped then [] :: cut false rest
    else Text.consFirst c (cut (escapesNext escaped c) rest)

/-- Takes the backslash off each escaped character. One that escapes nothing goes, too. -/
def unescape : Text → Text
  | [] => []
  | ['\\'] => []
  | '\\' :: c :: rest => c :: unescape rest
  | c :: rest => c :: unescape rest

theorem cut_ne_nil (escaped : Bool) (value : Text) : cut escaped value ≠ [] := by
  unfold cut
  split
  next => simp
  next =>
    split
    next => simp
    next => exact Text.consFirst_ne_nil _ _

theorem unescape_cons {c : Char} (hslash : c ≠ '\\') (rest : Text) :
    unescape (c :: rest) = c :: unescape rest := by
  rw [unescape]
  · exact fun heq _ => hslash heq
  · exact fun _ _ heq _ => hslash heq

/-- Both can be done in one go. -/
theorem decode_eq_map_unescape (value : Text) : decode value = (cut false value).map unescape := by
  induction value using decode.induct with
  | case1 => rfl
  | case2 => rfl
  | case3 c rest ih =>
    obtain ⟨first, more, hcut⟩ := List.exists_cons_of_ne_nil (cut_ne_nil false rest)
    have hrest : cut false ('\\' :: c :: rest) = ('\\' :: c :: first) :: more := by
      simp [cut, escapesNext, hcut, Text.consFirst]
    rw [decode, ih, hcut, hrest]
    rfl
  | case4 rest ih =>
    rw [decode, ih]
    rfl
  | case5 c rest hlast hslash hbar ih =>
    obtain ⟨first, more, hcut⟩ := List.exists_cons_of_ne_nil (cut_ne_nil false rest)
    have hne : c ≠ '\\' := by
      intro heq
      cases rest with
      | nil => exact hlast heq rfl
      | cons d rest => exact hslash d rest heq rfl
    have hnext : escapesNext false c = false := by simp [escapesNext, hne]
    have hrest : cut false (c :: rest) = (c :: first) :: more := by
      rw [cut, if_neg (by simpa using hbar), hnext, hcut]
      rfl
    rw [decode, ih, hcut, hrest, List.map_cons, List.map_cons, unescape_cons hne]
    · rfl
    · exact hlast
    · exact hslash
    · exact hbar

/-! ### What rows of literals are put together from -/

inductive Piece : Text → Prop where
  | escaped (c : Char) (hc : c ∈ metacharacters) : Piece ['\\', c]
  | bar : Piece ['|']
  | plain (c : Char) (hc : c ∉ metacharacters) : Piece [c]

theorem piece_escapeChar (c : Char) : Piece (escapeChar c) := by
  unfold escapeChar
  split
  next h => exact .escaped c (List.contains_iff_mem.mp h)
  next h => exact .plain c fun hc => h (List.contains_iff_mem.mpr hc)

/-- A piece that is no bar stands for one character. -/
theorem Piece.eq_bar_or_exists_char {p : Text} (hp : Piece p) :
    p = ['|'] ∨ ∃ c, p = escapeChar c := by
  cases hp with
  | escaped c hc => exact .inr ⟨c, by rw [escapeChar, if_pos (List.contains_iff_mem.mpr hc)]⟩
  | bar => exact .inl rfl
  | plain c hc =>
    exact .inr ⟨c, by rw [escapeChar, if_neg fun h => hc (List.contains_iff_mem.mp h)]⟩

theorem encode_consFirst (c : Char) (literals : List Text) :
    encode (Text.consFirst c literals) = escapeChar c ++ encode literals := by
  cases literals with
  | nil => simp [Text.consFirst, encode, escape]
  | cons first more =>
    cases more with
    | nil => simp [Text.consFirst, encode, escape]
    | cons next rest => simp [Text.consFirst, encode, escape]

theorem encode_nil_cons {literals : List Text} (h : literals ≠ []) :
    encode ([] :: literals) = '|' :: encode literals := by
  obtain ⟨first, more, rfl⟩ := List.exists_cons_of_ne_nil h
  simp [encode, escape]

/-- Rows of literals are the texts put together from pieces. -/
theorem exists_encode_iff {value : Text} : (∃ literals, literals ≠ [] ∧ encode literals = value) ↔
    ∃ pieces : List Text, value = pieces.flatten ∧ ∀ p ∈ pieces, Piece p := by
  constructor
  · rintro ⟨literals, hne, rfl⟩
    -- The pieces of the first literal stand in front of a bar and the pieces of the others.
    induction literals with
    | nil => exact absurd rfl hne
    | cons first more ih =>
      induction first with
      | nil =>
        by_cases hmore : more = []
        · subst hmore
          exact ⟨[], rfl, by simp⟩
        · obtain ⟨pieces, hpieces, hall⟩ := ih hmore
          refine ⟨['|'] :: pieces, ?_, List.forall_mem_cons.mpr ⟨.bar, hall⟩⟩
          rw [encode_nil_cons hmore, hpieces]
          rfl
      | cons c first ihc =>
        obtain ⟨pieces, hpieces, hall⟩ := ihc (List.cons_ne_nil _ _)
        refine ⟨escapeChar c :: pieces, ?_, List.forall_mem_cons.mpr ⟨piece_escapeChar c, hall⟩⟩
        rw [List.flatten_cons, ← hpieces]
        exact encode_consFirst c (first :: more)
  · rintro ⟨pieces, rfl, hall⟩
    induction pieces with
    | nil => exact ⟨[[]], by simp, rfl⟩
    | cons p pieces ih =>
      rw [List.forall_mem_cons] at hall
      obtain ⟨literals, hne, hliterals⟩ := ih hall.2
      rcases hall.1.eq_bar_or_exists_char with rfl | ⟨c, rfl⟩
      · refine ⟨[] :: literals, by simp, ?_⟩
        rw [encode_nil_cons hne, hliterals]
        rfl
      · obtain ⟨first, more, rfl⟩ := List.exists_cons_of_ne_nil hne
        refine ⟨(c :: first) :: more, by simp, ?_⟩
        rw [List.flatten_cons, ← hliterals]
        exact encode_consFirst c (first :: more)

/-- The check that a value passes before it is taken apart. -/
theorem encode_decode_iff {value : Text} :
    encode (decode value) = value ↔ ∃ literals, literals ≠ [] ∧ encode literals = value := by
  constructor
  · intro h
    exact ⟨decode value, decode_ne_nil value, h⟩
  · rintro ⟨literals, hne, rfl⟩
    rw [decode_encode hne]

end Alternation

namespace Attribute

/-- What is left of a value between quotes without its case mark and its wildcard. -/
def regexOf (equality : Equality) (raw : Text) : Text :=
  ((Comparator.ofEquality equality).decode (CaseFlag.decode (Quotes.unescape raw)).2).2

/-- A value is taken for literals just where it is a row of them, and they are the literals of that
row in their listed spellings. -/
theorem value_constraintOf_eq_multiple_iff (a : Attribute) (equality : Equality) (raw : Text)
    (literals : List Text) :
    (a.constraintOf equality raw).value = .multiple literals ↔
      a.hasValueList ∧ ∃ originals, originals ≠ [] ∧
        Alternation.encode originals = regexOf equality raw ∧
        literals = originals.map (a.spelling (a.constraintOf equality raw).caseSensitive) := by
  have hvalue : (a.constraintOf equality raw).value =
      a.valueOf (a.constraintOf equality raw).caseSensitive (regexOf equality raw) := rfl
  rw [hvalue, valueOf_eq]
  constructor
  · intro h
    split at h
    next hrow =>
      exact ⟨hrow.1, _, Alternation.decode_ne_nil _, hrow.2, (Value.multiple.inj h).symm⟩
    next => cases h
  · rintro ⟨hlist, originals, hne, hrow, rfl⟩
    rw [← hrow, Alternation.decode_encode hne, if_pos ⟨hlist, rfl⟩]

end Attribute

namespace Alternation

/-- No literal is lost in a row of escaped ones, and nothing but such a row is taken for one. -/
theorem encoding_lossless :
    (∀ literals, literals ≠ [] → decode (encode literals) = literals) ∧
      (∀ value, encode (decode value) = value ↔
        ∃ literals, literals ≠ [] ∧ encode literals = value) ∧
      (∀ value, encode (decode value) = value ↔
        ∃ pieces : List Text, value = pieces.flatten ∧ ∀ p ∈ pieces, Piece p) ∧
      ∀ (a : Attribute) (equality : Equality) (raw : Text) (literals : List Text),
        (a.constraintOf equality raw).value = .multiple literals ↔
          a.hasValueList ∧ ∃ originals, originals ≠ [] ∧
            encode originals = Attribute.regexOf equality raw ∧
            literals = originals.map (a.spelling (a.constraintOf equality raw).caseSensitive) := by
  refine ⟨fun literals => decode_encode, fun value => encode_decode_iff, fun value => ?_,
    Attribute.value_constraintOf_eq_multiple_iff⟩
  rw [encode_decode_iff, exists_encode_iff]

/-- An empty literal, a bar, and a backslash in front of a bar. -/
theorem encoding_lossless_bars :
    let literals : List Text := [[], ['|'], ['\\', '|'], []]
    literals ≠ [] ∧ encode literals = "|\\||\\\\\\||".toList ∧
      decode (encode literals) = literals := by
  intro literals
  have hne : literals ≠ [] := by simp [literals]
  exact ⟨hne, by decide, encoding_lossless.1 literals hne⟩

end Alternation

end CorpusQuery
