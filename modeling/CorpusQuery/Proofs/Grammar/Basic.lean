import CorpusQuery.Proofs.Query.Cursor
import CorpusQuery.Query.Grammar

/-! White space around what the grammar shows, and values as the state of a scan sees them. -/

namespace CorpusQuery

namespace Text

theorem isBlank_of_isLayout {c : Char} (h : isLayout c) : isBlank c := by
  simp only [isLayout, Bool.or_eq_true, beq_iff_eq] at h
  rcases h with ((rfl | rfl) | rfl) | rfl <;> decide

theorem isLayout_eq_false {c : Char} (h : isBlank c = false) : isLayout c = false := by
  by_contra hlayout
  rw [Bool.not_eq_false] at hlayout
  rw [isBlank_of_isLayout hlayout] at h
  cases h

theorem trimStart_eq_self {t : Text} (h : ∀ c ∈ t.head?, isBlank c = false) : trimStart t = t := by
  cases t with
  | nil => rfl
  | cons c rest => exact List.dropWhile_cons_of_neg (by simp [h c rfl])

theorem trimEnd_eq_self {t : Text} (h : ∀ c ∈ t.getLast?, isBlank c = false) : trimEnd t = t := by
  rw [trimEnd, trimStart_eq_self (by simpa using h), List.reverse_reverse]

theorem trim_eq_self {t : Text} (h : ∀ c ∈ t, isBlank c = false) : trim t = t := by
  rw [trim, trimStart_eq_self fun c hc => h c (List.mem_of_mem_head? hc),
    trimEnd_eq_self fun c hc => h c (List.mem_of_getLast? hc)]

/-- Trimming takes white space off, and nothing else. -/
theorem exists_eq_trim (t : Text) : ∃ w w', allBlank w ∧ allBlank w' ∧ t = w ++ (trim t ++ w') := by
  refine ⟨t.takeWhile isBlank, ((trimStart t).reverse.takeWhile isBlank).reverse, ?_, ?_, ?_⟩
  · exact List.all_takeWhile
  · rw [allBlank, List.all_reverse]
    exact List.all_takeWhile
  · rw [trim, trimEnd, trimStart, ← List.reverse_append, List.takeWhile_append_dropWhile,
      List.reverse_reverse, trimStart, List.takeWhile_append_dropWhile]

theorem trimEnd_append {w : Text} (hw : allBlank w) (t : Text) : trimEnd (t ++ w) = trimEnd t := by
  rw [trimEnd, List.reverse_append, trimStart, List.dropWhile_append_of_pos]
  · rfl
  · simpa [allBlank] using hw

theorem trim_append {w v : Text} (hw : allBlank w) (hv : allBlank v) (t : Text) :
    trim (w ++ (t ++ v)) = trim t := by
  have hstart : trimStart (w ++ (t ++ v)) = trimStart (t ++ v) :=
    List.dropWhile_append_of_pos (by simpa [allBlank] using hw)
  rw [trim, hstart, trimStart, List.dropWhile_append]
  split
  next hempty =>
    have ht : trimStart t = [] := by simpa [trimStart] using hempty
    have hblank : v.dropWhile isBlank = [] := by simpa [allBlank] using hv
    rw [trim, ht, hblank]
  next => exact trimEnd_append hv _

end Text

theorem Equality.eq_symbol {t : Text} {equality : Equality} (h : ofSymbol? t = some equality) :
    t = equality.symbol := by
  unfold ofSymbol? at h
  split at h <;> cases h <;> rfl

namespace Grammar

variable {w w' t : Text} {c : Cursor}

theorem Gap.nil : Gap [] := by simp [Gap]

theorem Gap.append (hw : Gap w) (hw' : Gap w') : Gap (w ++ w') :=
  List.forall_mem_append.mpr ⟨hw, hw'⟩

theorem gap_takeWhile (t : Text) : Gap (t.takeWhile isLayout) := fun _ hc => List.mem_takeWhile_imp hc

theorem Gap.allBlank (hw : Gap w) : Text.allBlank w :=
  List.all_eq_true.mpr fun c hc => Text.isBlank_of_isLayout (hw c hc)

theorem Gap.dropWhile (hw : Gap w) (t : Text) :
    (w ++ t).dropWhile isLayout = t.dropWhile isLayout :=
  List.dropWhile_append_of_pos hw

theorem Gap.next? (hw : Gap w) (t : Text) : (w ++ t).next? = t.next? := by
  rw [Text.next?, hw.dropWhile, Text.next?]

theorem trim_dropWhile (t : Text) : Text.trim (t.dropWhile isLayout) = Text.trim t := by
  have htrim := Text.trim_append (gap_takeWhile t).allBlank (v := []) rfl (t.dropWhile isLayout)
  rw [List.append_nil, List.takeWhile_append_dropWhile] at htrim
  exact htrim.symm

theorem dropWhile_ne_nil {t : Text} (h : Text.trim t ≠ []) : t.dropWhile isLayout ≠ [] := by
  intro hnil
  rw [← trim_dropWhile, hnil] at h
  exact h rfl

/-- White space is passed over up to a character that is none, at most. -/
theorem dropWhile_solid (t : Text) {ch : Char} (hch : isLayout ch = false) (rest : Text) :
    (t ++ ch :: rest).dropWhile isLayout = t.dropWhile isLayout ++ ch :: rest := by
  rw [List.dropWhile_append, List.dropWhile_cons_of_neg (by simp [hch])]
  split
  next hempty => rw [List.isEmpty_iff.mp hempty, List.nil_append]
  next => rfl

/-- White space in front is left out of account. -/
theorem before_gap (hw : Gap w) : c.Before (w ++ t) ↔ c.Before t := by
  rw [Cursor.Before, hw.dropWhile, Cursor.Before]

/-- A constraint is an operand without parentheses, however many levels are left. -/
theorem Constraint.toOperand {e : Expr} (h : Constraint t e) (levels : Nat) : Operand levels t e := by
  cases levels with
  | zero => exact h
  | succ levels => exact .inl h

/-! ### Values -/

theorem Value.closed {value : Text} (h : Value value) : Quotes.Closed value := by
  induction h with
  | nil => rfl
  | plain c rest hquote hbackslash h ih =>
    have hnext : escapesNext false c = false := by simp [escapesNext, hbackslash]
    refine ⟨fun heq => absurd heq hquote, ?_⟩
    rw [hnext]
    exact ih
  | escaped c rest h ih =>
    have hnext : escapesNext true c = false := by simp [escapesNext]
    refine ⟨by simp, fun _ => rfl, ?_⟩
    rw [show escapesNext false '\\' = true from rfl, hnext]
    exact ih

theorem value_of_closed : {value : Text} → Quotes.Closed value → Value value
  | [], _ => .nil
  | [c], h => by
    obtain ⟨hquote, hescapes⟩ := h
    have hbackslash : c ≠ '\\' := by simpa [Quotes.closedFrom, escapesNext] using hescapes
    exact .plain c [] (fun heq => by simpa using hquote heq) hbackslash .nil
  | c :: d :: rest, h => by
    by_cases hc : c = '\\'
    · subst hc
      obtain ⟨-, -, hrest⟩ := h
      have hnext : escapesNext (escapesNext false '\\') d = false := by simp [escapesNext]
      rw [hnext] at hrest
      exact .escaped d rest (value_of_closed hrest)
    · obtain ⟨hquote, hrest⟩ := h
      have hnext : escapesNext false c = false := by simp [escapesNext, hc]
      rw [hnext] at hrest
      exact .plain c (d :: rest) (fun heq => by simpa using hquote heq) hc (value_of_closed hrest)

end Grammar

end CorpusQuery
