import CorpusQuery.Proofs.Query.Position

/-!
Scanning a text move by move. Each move is told by the places in the text where it begins and ends:
what may stand at a place, and what is written between two of them.
-/

namespace CorpusQuery

namespace Text

/-- The symbol is written at a place in the text. -/
def Holds (text : Text) (place : Nat) (symbol : Text) : Prop := symbol <+: text.drop place

/-- What is written from one place up to another. -/
def between (text : Text) (start stop : Nat) : Text := (text.drop start).take (stop - start)

/-- The first of `symbols` that is written at a place. -/
structure HoldsFirst (text : Text) (place : Nat) (symbols : List Text) (symbol : Text) : Prop where
  holds : text.Holds place symbol
  first : ∃ before behind, symbols = before ++ symbol :: behind ∧
    ∀ other ∈ before, ¬ text.Holds place other

end Text

/-- The place where the white space ends that is passed over, all there is or none. -/
inductive Layout.Passes (text : Text) (start : Nat) : Layout → Nat → Prop where
  | keep : Passes text start .keep start
  | skip (stop : Nat) (hle : start ≤ stop) (hstop : stop ≤ text.length)
      (hgap : ∀ c ∈ text.between start stop, isLayout c)
      (hend : ∀ c, text[stop]? = some c → isLayout c = false) : Passes text start .skip stop

/-- A move over the first of `symbols` that comes next, with the white space on either side. -/
structure Layout.Takes (layout : Layout) (text : Text) (symbols : List Text) (start : Nat)
    (symbol : Text) (stop : Nat) : Prop where
  exists_here : ∃ here, layout.Passes text start here ∧ text.HoldsFirst here symbols symbol ∧
    layout.Passes text (here + symbol.length) stop

/-- Behind white space, at `here`, stands none of `symbols`. -/
structure Layout.Misses (layout : Layout) (text : Text) (symbols : List Text) (start here : Nat) :
    Prop where
  passes : layout.Passes text start here
  not_holds : ∀ symbol ∈ symbols, ¬ text.Holds here symbol

namespace Cursor

/-- What a move from `start` gives, and the place where it ends. A symbol that is missing leaves the
place alone, and a stop that is missing uses the text up. -/
inductive Move.Gives (text : Text) (start : Nat) :
    Move → Except ParseError (Option Text) → Nat → Prop where
  | accepted (layout : Layout) (symbols : List Text) (symbol : Text) (stop : Nat)
      (h : layout.Takes text symbols start symbol stop) :
    Gives text start (.accept layout symbols) (.ok (some symbol)) stop
  | missed (layout : Layout) (symbols : List Text) (here : Nat)
      (h : layout.Misses text symbols start here) :
    Gives text start (.accept layout symbols) (.ok none) start
  | expected (layout : Layout) (symbols : List Text) (symbol : Text) (stop : Nat)
      (h : layout.Takes text symbols start symbol stop) :
    Gives text start (.expect layout symbols) (.ok (some symbol)) stop
  | unexpected (layout : Layout) (symbols : List Text) (found : Char) (here : Nat)
      (h : layout.Misses text symbols start here) (hfound : text[here]? = some found) :
    Gives text start (.expect layout symbols) (.error (.expected symbols found here)) start
  | nothing (layout : Layout) (symbols : List Text)
      (h : layout.Misses text symbols start text.length) :
    Gives text start (.expect layout symbols) (.error (.unexpectedEnd symbols text.length)) start
  | stopped (stops : List Text) (stop : Nat) (hle : start ≤ stop) (hlt : stop < text.length)
      (hstop : ∃ symbol ∈ stops, text.Holds stop symbol)
      (hbefore : ∀ place, start ≤ place → place < stop → ∀ symbol ∈ stops,
        ¬ text.Holds place symbol) :
    Gives text start (.upTo stops) (.ok (some (text.between start stop))) stop
  | unstopped (stops : List Text)
      (hbefore : ∀ place, start ≤ place → place < text.length → ∀ symbol ∈ stops,
        ¬ text.Holds place symbol) :
    Gives text start (.upTo stops) (.error (.unexpectedEnd stops text.length)) text.length
  /-- Backslashes guard each `char` that is passed over, and leave alone the one at the end. -/
  | stoppedUnescaped (char : Char) (stop : Nat) (hle : start ≤ stop)
      (hstop : text[stop]? = some char)
      (hescaped : ∀ before behind : Text, text.between start stop = before ++ char :: behind →
        before.EndsOdd)
      (hend : ¬ (text.between start stop).EndsOdd) :
    Gives text start (.upToUnescaped char) (.ok (some (text.between start stop))) stop
  | unstoppedUnescaped (char : Char)
      (hescaped : ∀ before behind : Text, text.drop start = before ++ char :: behind →
        before.EndsOdd) :
    Gives text start (.upToUnescaped char) (.error (.unexpectedEnd [[char]] text.length))
      text.length
  | skipped (stop : Nat) (h : Layout.skip.Passes text start stop) :
    Gives text start .skipLayout (.ok none) stop

/-- The place after some moves, one after the other. -/
def after (c : Cursor) (moves : List Move) : Cursor := moves.foldl (fun c m => (c.move m).2) c

/-! ### Where a scan for stops ends -/

theorem ne_nil_of_cutBefore? {stops : List Text} {t passed rest : Text}
    (h : cutBefore? stops t = some (passed, rest)) : rest ≠ [] := by
  induction t generalizing passed with
  | nil => cases h
  | cons ch t ih =>
    rw [cutBefore?] at h
    split at h
    next =>
      cases h
      exact List.cons_ne_nil ch t
    next =>
      split at h
      next passed' rest' hcut =>
        cases h
        exact ih hcut
      next => cases h

/-- No stop begins in what is passed over, be that all of the text or what comes before a stop. -/
theorem not_prefix_of_cutBefore? {stops : List Text} {t : Text} {n : Nat} (hn : n < t.length)
    (h : ∀ cut ∈ cutBefore? stops t, n < cut.1.length) : ∀ stop ∈ stops, ¬ stop <+: t.drop n := by
  induction t generalizing n with
  | nil => cases hn
  | cons ch t ih =>
    rw [cutBefore?] at h
    split at h
    next => cases h _ rfl
    next hany =>
      cases n with
      | zero =>
        intro stop hmem hprefix
        exact hany (List.any_eq_true.mpr ⟨stop, hmem, List.isPrefixOf_iff_prefix.mpr hprefix⟩)
      | succ n =>
        refine ih (Nat.lt_of_succ_lt_succ hn) fun cut hcut => ?_
        rw [Option.mem_def.mp hcut] at h
        exact Nat.lt_of_succ_lt_succ (h _ rfl)

/-- Each stop that is passed over is escaped, be that in all of the text or before one that is
not. -/
theorem escapesAfter_of_cutUnescaped? (stop : Char) (escaped : Bool) (t : Text) :
    ∀ before behind, (cutUnescaped? stop escaped t).elim t Prod.fst = before ++ stop :: behind →
      escapesAfter escaped before = true := by
  induction t generalizing escaped with
  | nil => simp [cutUnescaped?]
  | cons ch t ih =>
    rw [cutUnescaped?]
    split
    next => simp
    next hstop =>
      have hrest := ih (escapesNext escaped ch)
      have hfirst : ch = stop → escaped = true := fun heq => by simpa [heq] using hstop
      cases hcut : cutUnescaped? stop (escapesNext escaped ch) t with
      | some cut =>
        rw [hcut] at hrest
        exact Text.forall_before_cons.mpr ⟨hfirst, hrest⟩
      | none =>
        rw [hcut] at hrest
        exact Text.forall_before_cons.mpr ⟨hfirst, hrest⟩

/-- A scan does not end behind a backslash that escapes. -/
theorem escapesAfter_passed_of_cutUnescaped? {stop : Char} {escaped : Bool} {t passed rest : Text}
    (h : cutUnescaped? stop escaped t = some (passed, rest)) :
    escapesAfter escaped passed = false := by
  induction t generalizing escaped passed with
  | nil => cases h
  | cons ch t ih =>
    rw [cutUnescaped?] at h
    split at h
    next hstop =>
      cases h
      simp only [Bool.and_eq_true, Bool.not_eq_true'] at hstop
      exact hstop.1
    next =>
      split at h
      next passed' rest' hcut =>
        cases h
        rw [escapesAfter_cons]
        exact ih hcut
      next => cases h

namespace In

variable {text : Text} {c : Cursor}

/-! ### Places counted from a cursor -/

theorem offset_le (h : c.In text) : c.offset ≤ text.length := by
  have hlength := h.offset_add_length
  omega

theorem between_eq (h : c.In text) {passed rest : Text} (hrest : c.rest = passed ++ rest) :
    text.between c.offset (c.offset + passed.length) = passed := by
  rw [Text.between, h.drop_eq, hrest, Nat.add_sub_cancel_left, List.take_left]

theorem holds_add_iff (h : c.In text) (n : Nat) (symbol : Text) :
    text.Holds (c.offset + n) symbol ↔ symbol <+: c.rest.drop n := by
  rw [Text.Holds, ← h.drop_eq, List.drop_drop]

theorem holds_iff (h : c.In text) (symbol : Text) :
    text.Holds c.offset symbol ↔ c.sees symbol := by
  rw [Text.Holds, h.drop_eq, sees, List.isPrefixOf_iff_prefix]

theorem passes (h : c.In text) (layout : Layout) :
    layout.Passes text c.offset (c.pass layout).offset := by
  cases layout with
  | keep => exact .keep
  | skip =>
    have hgap : text.between c.offset c.skipLayout.offset = c.rest.takeWhile isLayout :=
      h.between_eq List.takeWhile_append_dropWhile.symm
    refine .skip _ (Nat.le_add_right _ _) h.skipLayout.offset_le ?_ ?_
    · intro ch hmem
      exact List.mem_takeWhile_imp (hgap ▸ hmem)
    · intro ch hch
      have hpeek : c.skipLayout.peek? = some ch := h.skipLayout.getElem?_offset.symm.trans hch
      have hhead : (c.rest.dropWhile isLayout).head? = some ch := hpeek
      have hnot := List.head?_dropWhile_not isLayout c.rest
      rw [hhead] at hnot
      exact hnot

/-! ### One move -/

theorem takes_of_accept? (h : c.In text) {layout : Layout} {symbols : List Text} {s : Text}
    {c' : Cursor} (haccept : c.accept? layout symbols = some (s, c')) :
    layout.Takes text symbols c.offset s c'.offset := by
  have hhere := h.pass layout
  unfold Cursor.accept? at haccept
  dsimp only at haccept
  split at haccept
  next symbol hfind =>
    cases haccept
    obtain ⟨hsees, before, behind, hsymbols, hbefore⟩ := List.find?_eq_some_iff_append.mp hfind
    have hfirst : text.HoldsFirst (c.pass layout).offset symbols s := by
      refine ⟨(hhere.holds_iff s).mpr hsees, before, behind, hsymbols, fun other hmem hholds => ?_⟩
      have hother := hbefore other hmem
      rw [(hhere.holds_iff other).mp hholds] at hother
      cases hother
    exact ⟨_, h.passes layout, hfirst, (hhere.past hsees).passes layout⟩
  next => cases haccept

theorem misses_of_accept? (h : c.In text) {layout : Layout} {symbols : List Text}
    (haccept : c.accept? layout symbols = none) :
    layout.Misses text symbols c.offset (c.pass layout).offset := by
  refine ⟨h.passes layout, fun symbol hmem hholds => ?_⟩
  unfold Cursor.accept? at haccept
  dsimp only at haccept
  split at haccept
  next => cases haccept
  next hfind =>
    exact List.find?_eq_none.mp hfind symbol hmem (((h.pass layout).holds_iff symbol).mp hholds)

theorem gives_accept (h : c.In text) (layout : Layout) (symbols : List Text) :
    Move.Gives text c.offset (.accept layout symbols) (c.move (.accept layout symbols)).1
      (c.move (.accept layout symbols)).2.offset := by
  rw [Cursor.move]
  split
  next symbol next haccept => exact .accepted layout symbols symbol _ (h.takes_of_accept? haccept)
  next haccept => exact .missed layout symbols _ (h.misses_of_accept? haccept)

theorem gives_expect (h : c.In text) (layout : Layout) (symbols : List Text) :
    Move.Gives text c.offset (.expect layout symbols) (c.move (.expect layout symbols)).1
      (c.move (.expect layout symbols)).2.offset := by
  have hhere := h.pass layout
  rw [Cursor.move, Cursor.expect]
  cases haccept : c.accept? layout symbols with
  | some taken =>
    exact .expected layout symbols taken.1 _ (h.takes_of_accept? haccept)
  | none =>
    have hmisses := h.misses_of_accept? haccept
    dsimp only
    cases hrest : (c.pass layout).rest with
    | cons found rest =>
      refine .unexpected layout symbols found _ hmisses ?_
      rw [hhere.getElem?_offset, peek?, hrest]
      rfl
    | nil =>
      have hend : (c.pass layout).offset = text.length := by
        simpa [hrest] using hhere.offset_add_length
      rw [hend] at hmisses ⊢
      exact .nothing layout symbols hmisses

theorem gives_upTo (h : c.In text) (stops : List Text) :
    Move.Gives text c.offset (.upTo stops) (c.move (.upTo stops)).1
      (c.move (.upTo stops)).2.offset := by
  rw [Cursor.move, Cursor.upTo]
  cases hcut : cutBefore? stops c.rest with
  | some cut =>
    obtain ⟨passed, rest⟩ := cut
    have hrest := append_of_cutBefore? hcut
    have hnext := h.advance hrest
    have hlt : c.offset + passed.length < text.length := hnext.offset_lt (ne_nil_of_cutBefore? hcut)
    obtain ⟨stop, hmem, hstop⟩ := exists_stop_of_cutBefore? hcut
    have hgives : Move.Gives text c.offset (.upTo stops)
        (.ok (some (text.between c.offset (c.offset + passed.length))))
        (c.offset + passed.length) := by
      refine .stopped stops _ (Nat.le_add_right _ _) hlt ⟨stop, hmem, ?_⟩ ?_
      · rw [h.holds_add_iff, hrest, List.drop_left]
        exact hstop
      · intro place hle hplace symbol hsymbol
        obtain ⟨n, rfl⟩ := Nat.exists_eq_add_of_le hle
        rw [h.holds_add_iff]
        have hn : n < passed.length := Nat.lt_of_add_lt_add_left hplace
        refine not_prefix_of_cutBefore? ?_ ?_ symbol hsymbol
        · rw [hrest, List.length_append]
          exact Nat.lt_add_right _ hn
        · rw [hcut]
          rintro _ ⟨⟩
          exact hn
    rwa [h.between_eq hrest] at hgives
  | none =>
    have hlength := h.offset_add_length
    rw [last, hlength]
    refine .unstopped stops fun place hle hplace symbol hsymbol => ?_
    obtain ⟨n, rfl⟩ := Nat.exists_eq_add_of_le hle
    rw [← hlength] at hplace
    rw [h.holds_add_iff]
    refine not_prefix_of_cutBefore? ?_ (by simp [hcut]) symbol hsymbol
    exact Nat.lt_of_add_lt_add_left hplace

theorem gives_upToUnescaped (h : c.In text) (char : Char) :
    Move.Gives text c.offset (.upToUnescaped char) (c.move (.upToUnescaped char)).1
      (c.move (.upToUnescaped char)).2.offset := by
  have hescaped := escapesAfter_of_cutUnescaped? char false c.rest
  rw [Cursor.move, Cursor.upToUnescaped]
  cases hcut : cutUnescaped? char false c.rest with
  | some cut =>
    obtain ⟨passed, rest⟩ := cut
    obtain ⟨hrest, u, rfl⟩ := append_of_cutUnescaped? hcut
    rw [hcut] at hescaped
    have hend := escapesAfter_passed_of_cutUnescaped? hcut
    have hpassed := h.between_eq hrest
    have hgives : Move.Gives text c.offset (.upToUnescaped char)
        (.ok (some (text.between c.offset (c.offset + passed.length))))
        (c.offset + passed.length) := by
      refine .stoppedUnescaped char _ (Nat.le_add_right _ _) ?_ ?_ ?_
      · exact (h.advance hrest).getElem?_offset
      · rw [hpassed]
        exact fun before behind heq => before.endsOdd_iff.mpr (hescaped before behind heq)
      · rw [hpassed, Text.endsOdd_iff, Bool.not_eq_true]
        exact hend
    rwa [hpassed] at hgives
  | none =>
    rw [hcut] at hescaped
    rw [last, h.offset_add_length]
    refine .unstoppedUnescaped char ?_
    rw [h.drop_eq]
    exact fun before behind heq => before.endsOdd_iff.mpr (hescaped before behind heq)

theorem gives_move (h : c.In text) (m : Move) :
    Move.Gives text c.offset m (c.move m).1 (c.move m).2.offset := by
  cases m with
  | accept layout symbols => exact h.gives_accept layout symbols
  | expect layout symbols => exact h.gives_expect layout symbols
  | upTo stops => exact h.gives_upTo stops
  | upToUnescaped char => exact h.gives_upToUnescaped char
  | skipLayout => exact .skipped _ (h.passes .skip)

/-- A move stays in the text. -/
theorem move (h : c.In text) (m : Move) : (c.move m).2.In text := by
  have hlast : c.last.In text := h.advance (List.append_nil c.rest).symm
  cases m with
  | accept layout symbols =>
    rw [Cursor.move]
    split
    next symbol next haccept => exact (h.accept? haccept).1
    next => exact h
  | expect layout symbols =>
    rw [Cursor.move]
    split
    next symbol next hexpect => exact (h.expect layout symbols).ensures _ hexpect
    next => exact h
  | upTo stops =>
    rw [Cursor.move, Cursor.upTo]
    cases hcut : cutBefore? stops c.rest with
    | some cut => exact h.advance (append_of_cutBefore? hcut)
    | none => exact hlast
  | upToUnescaped char =>
    rw [Cursor.move]
    split
    next passed next hscan => exact (h.upToUnescaped char).ensures _ hscan
    next => exact hlast
  | skipLayout => exact h.skipLayout

/-! ### Many moves -/

theorem after (h : c.In text) (moves : List Move) : (c.after moves).In text := by
  induction moves generalizing c with
  | nil => exact h
  | cons m moves ih => exact ih (h.move m)

end In

end Cursor

theorem Layout.Passes.le {layout : Layout} {text : Text} {start stop : Nat}
    (h : layout.Passes text start stop) : start ≤ stop := by
  cases h with
  | keep => exact le_rfl
  | skip _ hle => exact hle

theorem Layout.Takes.le {layout : Layout} {text : Text} {symbols : List Text} {start stop : Nat}
    {symbol : Text} (h : layout.Takes text symbols start symbol stop) :
    start + symbol.length ≤ stop := by
  obtain ⟨here, hhere, -, hstop⟩ := h
  have hle := hhere.le
  have hle' := hstop.le
  omega

namespace Cursor

theorem Move.Gives.le {text : Text} {m : Move} {result : Except ParseError (Option Text)}
    {start stop : Nat} (h : Gives text start m result stop) (hstart : start ≤ text.length) :
    start ≤ stop := by
  cases h with
  | accepted layout symbols symbol stop h =>
    have hle := h.le
    omega
  | expected layout symbols symbol stop h =>
    have hle := h.le
    omega
  | missed | unexpected | nothing => exact le_rfl
  | stopped stops stop hle => exact hle
  | stoppedUnescaped char stop hle => exact hle
  | unstopped | unstoppedUnescaped => exact hstart
  | skipped stop h => exact h.le

/-- However a text is scanned, each move does what it is to do, never goes back and never leaves the
text. -/
theorem moves_give (text : Text) (moves : List Move) (m : Move) :
    let c := (start text).after moves
    let next := (start text).after (moves ++ [m])
    Move.Gives text c.offset m (c.move m).1 next.offset ∧
      c.offset ≤ next.offset ∧ next.offset ≤ text.length := by
  intro c next
  have hc : c.In text := (start_in text).after moves
  have hnext : next = (c.move m).2 := by
    simp only [next, c, after, List.foldl_append, List.foldl_cons, List.foldl_nil]
  have hgives := hc.gives_move m
  rw [← hnext] at hgives
  exact ⟨hgives, hgives.le hc.offset_le, ((start_in text).after (moves ++ [m])).offset_le⟩

-- A backslash at the end does not lead past it.
example : (start ['a', '\\']).move (.upToUnescaped '"') =
    (.error (.unexpectedEnd [['"']] 2), ⟨2, []⟩) := rfl

end Cursor

end CorpusQuery
