import CorpusQuery.Builder.Outline

/-!
Line feeds in what an outline writes. A line feed ends each line; another one can come only from a
text that is written as it stands.
-/

namespace CorpusQuery

namespace Text

/-! ### Cutting into lines -/

theorem lines_append_break {t : Text} (ht : '\n' ∉ t) (rest : Text) :
    lines (t ++ '\n' :: rest) = t :: lines rest := by
  induction t with
  | nil => rw [List.nil_append, lines, if_pos rfl]
  | cons c t ih =>
    rw [List.mem_cons, not_or] at ht
    rw [List.cons_append, lines, if_neg (Ne.symm ht.1), ih ht.2, consFirst]

/-- A row of lines is cut where each of them ends. -/
theorem lines_flatMap {α : Type} {f : α → Text} {xs : List α} (h : ∀ x ∈ xs, '\n' ∉ f x) :
    lines (xs.flatMap fun x => f x ++ ['\n']) = xs.map f ++ [[]] := by
  induction xs with
  | nil => rfl
  | cons x rest ih =>
    rw [List.forall_mem_cons] at h
    rw [List.flatMap_cons, List.append_assoc, List.singleton_append, lines_append_break h.1,
      ih h.2, List.map_cons, List.cons_append]

/-! ### Texts without line feeds -/

theorem notMem_toDigits (n : Nat) : '\n' ∉ Nat.toDigits 16 n := by
  have hdigit : ∀ d < 16, '\n' ≠ Nat.digitChar d := by decide
  induction n using Nat.strongRecOn with
  | ind n ih =>
    rw [Nat.toDigits_eq_if (by omega)]
    split
    next hn =>
      rw [List.mem_singleton]
      exact hdigit n hn
    next hn =>
      rw [List.mem_append, List.mem_singleton, not_or]
      exact ⟨ih (n / 16) (by omega), hdigit (n % 16) (Nat.mod_lt n (by omega))⟩

theorem notMem_decimal (n : Nat) : '\n' ∉ decimal n := by
  intro h
  have hdigit := Nat.isDigit_of_mem_toDigits (by decide) (by decide) h
  exact absurd hdigit (by decide)

theorem notMem_quotedChar (c : Char) : '\n' ∉ quotedChar c := by
  unfold quotedChar
  split
  all_goals try decide
  next hbreak _ _ _ =>
    split
    · simpa using notMem_toDigits c.toNat
    · simpa using Ne.symm hbreak

/-- What is shown in quotes is on one line, whatever it is. -/
theorem notMem_quoted (t : Text) : '\n' ∉ quoted t := by
  simp only [quoted, List.mem_append, List.mem_singleton, List.mem_flatMap, not_or, not_exists,
    not_and]
  exact ⟨⟨by decide, fun c _ => notMem_quotedChar c⟩, by decide⟩

theorem notMem_quotedList (ts : List Text) : '\n' ∉ quotedList ts := by
  cases ts with
  | nil => decide
  | cons first rest =>
    rw [quotedList, List.map_cons, intercalate_cons]
    simp only [List.mem_append, List.mem_singleton, List.mem_flatMap, List.mem_map, not_or,
      not_exists, not_and]
    refine ⟨⟨by decide, notMem_quoted first, ?_⟩, by decide⟩
    rintro _ ⟨t, -, rfl⟩
    exact ⟨by decide, notMem_quoted t⟩

end Text

theorem Comparator.notMem_symbol (c : Comparator) : '\n' ∉ c.symbol := by
  cases c <;> decide

/-! ### Lines of an outline -/

/-- A node line: two blanks for each level down to the node, what the node is, its number and a line
feed. -/
def nodeLine (level : Nat) (what : Text) (id : NodeId) : Text :=
  List.replicate (2 * level) ' ' ++ what ++ [' ', '#'] ++ Text.decimal id ++ ['\n']

theorem count_nodeLine (level : Nat) (what : Text) (id : NodeId) :
    (nodeLine level what id).count '\n' = what.count '\n' + 1 := by
  have hblanks : (List.replicate (2 * level) ' ').count '\n' = 0 :=
    List.count_eq_zero.mpr fun h => absurd (List.eq_of_mem_replicate h) (by decide)
  have hnumber : (Text.decimal id).count '\n' = 0 := List.count_eq_zero.mpr (Text.notMem_decimal id)
  simp only [nodeLine, List.count_append, hblanks, hnumber]
  rw [Nat.zero_add]
  rfl

theorem GroupCell.count_summary (g : GroupCell) : g.summary.count '\n' = g.label.count '\n' := by
  have hkind : (if g.isRoot then "root ".toList else "group ".toList).count '\n' = 0 := by
    cases g.isRoot <;> decide
  rw [summary, List.count_append, hkind, Nat.zero_add]

theorem Constraint.count_summary (c : Constraint) : c.summary.count '\n' = c.name.count '\n' := by
  have hsymbol : c.comparator.symbol.count '\n' = 0 :=
    List.count_eq_zero.mpr c.comparator.notMem_symbol
  have hvalues : (Text.quotedList c.regexes).count '\n' = 0 :=
    List.count_eq_zero.mpr (Text.notMem_quotedList c.regexes)
  have hcase : (if c.caseSensitive then " (case sensitive)".toList else []).count '\n' = 0 := by
    cases c.caseSensitive <;> decide
  simp only [summary, List.count_append, hsymbol, hvalues, hcase]
  rfl

namespace OutlineLine

theorem render_some (level : Nat) (what : Text) (id : NodeId) :
    (OutlineLine.mk level what (some id)).render = nodeLine level what id := by
  simp [render, nodeLine, NodeId.display]

theorem render_none (level : Nat) (text : Text) :
    (OutlineLine.mk level text none).render = List.replicate (2 * level) ' ' ++ text ++ ['\n'] := by
  simp [render]

/-- A line ends with a line feed. -/
theorem render_eq (l : OutlineLine) : l.render = l.render.dropLast ++ ['\n'] := by
  rw [render, List.dropLast_concat]

/-- Where no line has a further line feed in it, they are the lines of the text. -/
theorem lines_render {ls : List OutlineLine} (h : ∀ l ∈ ls, l.render.count '\n' = 1) :
    Text.lines (ls.flatMap render) = ls.map (·.render.dropLast) ++ [[]] := by
  have hbody : ∀ l ∈ ls, '\n' ∉ l.render.dropLast := by
    intro l hl
    have hcount := h l hl
    rw [render_eq, List.count_append, List.count_singleton_self, Nat.add_eq_right] at hcount
    exact List.count_eq_zero.mp hcount
  rw [← Text.lines_flatMap hbody]
  simp only [← render_eq]

end OutlineLine

end CorpusQuery
