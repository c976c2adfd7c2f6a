import CorpusQuery.Proofs.Grammar.Basic

/-!
What the grammar shows is read: each piece in front of any text that may stand behind it. Where
parentheses stand in a piece, it is read if what stands between them is.
-/

namespace CorpusQuery

namespace Parser

theorem accept?_connective (operator : Connective) {t : Text} {c : Cursor}
    (hc : c.Before (operator.symbol ++ t)) :
    ∃ c', c.accept? .skip [['&'], ['|']] = some (operator.symbol, c') ∧ c'.Before t := by
  have hfind : [['&'], ['|']].find? (·.isPrefixOf (operator.symbol ++ t)) =
      some operator.symbol := by
    cases operator <;> simp [Connective.symbol, List.isPrefixOf]
  obtain ⟨c', haccept, hc'⟩ := hc.accept? (by cases operator <;> rfl) hfind
  exact ⟨c', haccept, hc'.before⟩

theorem items_eq_nil (default : Text) (turns : Nat) {c : Cursor} (hc : c.Before []) :
    items default turns c = .ok [] := by
  have hend : c.skipLayout.atEnd := by
    rw [Cursor.atEnd, hc.skipLayout]
    rfl
  cases turns with
  | zero => rfl
  | succ turns => rw [items, if_pos hend]

end Parser

namespace Grammar

open CorpusQuery.Parser (operand operandWithin chain chainOf)

/-! ### Expressions -/

theorem Constraint.reads {t tail : Text} {e : Expr} (h : Constraint t e) {c : Cursor}
    (hc : c.Before (t ++ tail)) : Reads (Parser.constraint c) e (·.rest = tail) := by
  obtain ⟨name, symbol, value, equality, hequals, hbang, hname, hchars, hquote, hsymbol, hvalue⟩ := h
  -- The operator sign ends the name, with white space that may stand in front of it.
  obtain ⟨w, w', hw, -, heq⟩ := symbol.exists_eq_trim
  rw [hsymbol] at heq
  obtain ⟨d, sign, hsign, hd⟩ :
      ∃ d sign, equality.symbol = d :: sign ∧ [d] ∈ [['='], ['!']] := by
    cases equality <;> exact ⟨_, _, rfl, by decide⟩
  have hstops : ∀ stop ∈ [['='], ['!']], ∃ e ∉ (name ++ w).dropWhile isLayout, stop = [e] := by
    have habsent : ∀ e, e ∉ name → Text.isBlank e = false → e ∉ (name ++ w).dropWhile isLayout := by
      intro e hmem hblank hin
      rcases List.mem_append.mp ((List.dropWhile_sublist isLayout).subset hin) with hin | hin
      · exact hmem hin
      · rw [List.all_eq_true.mp hw e hin] at hblank
        cases hblank
    simp only [List.forall_mem_cons]
    exact ⟨⟨'=', habsent '=' hequals (by decide), rfl⟩, ⟨'!', habsent '!' hbang (by decide), rfl⟩,
      by simp⟩
  have hsolid : isLayout d = false := by
    simp only [List.mem_cons, List.cons.injEq, and_true, List.not_mem_nil, or_false] at hd
    rcases hd with rfl | rfl <;> decide
  have hat : c.skipLayout.rest = (name ++ w).dropWhile isLayout ++
      d :: (sign ++ w' ++ '"' :: (value ++ '"' :: tail)) := by
    refine hc.skipLayout.trans ?_
    rw [← dropWhile_solid _ hsolid, heq, hsign]
    simp
  have htrim : Text.trim ((name ++ w).dropWhile isLayout) = Text.trim name := by
    rw [trim_dropWhile]
    exact Text.trim_append (w := []) rfl hw name
  have hisName : Parser.isName (Text.trim name) := by
    simp only [Parser.isName, Bool.and_eq_true, Bool.not_eq_true', List.isEmpty_eq_false_iff,
      List.all_eq_true]
    exact ⟨hname, fun c hc => by simpa using hchars c hc⟩
  unfold Parser.constraint
  refine (Cursor.upTo_append hat hstops hd).bind fun c hc => ?_
  simp only [htrim, hisName, if_true]
  have hoperator : c.rest = (equality.symbol ++ w') ++ '"' :: (value ++ '"' :: tail) := by
    simp [hc, hsign]
  have htrimmed : Text.trim (equality.symbol ++ w') = equality.symbol := by
    have hfront := Text.trim_append hw (v := []) rfl (equality.symbol ++ w')
    rw [List.append_nil, ← heq, hsymbol] at hfront
    exact hfront.symm
  refine (Cursor.upTo_append hoperator ?_ (List.mem_singleton_self _)).bind fun c hc => ?_
  · refine List.forall_mem_singleton.mpr ⟨'"', fun hmem => hquote ?_, rfl⟩
    rw [heq]
    exact List.mem_append_right w hmem
  simp only [htrimmed, Equality.ofSymbol?_symbol]
  refine (Cursor.expect_keep_char hc).bind fun c hc => ?_
  refine Reads.bind (x := value) (P := (·.rest = tail)) ?_ fun c hc => .of_ok hc
  refine (Cursor.upToUnescaped_append hc hvalue.closed).bind fun c hc => ?_
  exact (Cursor.expect_keep_char hc).bind fun c hc => .of_ok hc

/-- A constraint begins with none of the reserved characters. -/
theorem Constraint.next?_ne {t : Text} {e : Expr} (h : Constraint t e) (tail : Text) {ch : Char}
    (hch : ch ∈ Parser.reserved) : (t ++ tail).next? ≠ some ch := by
  obtain ⟨name, symbol, value, equality, -, -, hname, hchars, -, -, -⟩ := h
  obtain ⟨w, w', hw, hw', heq⟩ := name.exists_eq_trim
  have hblank : Text.isBlank ch = false := by
    have hall : Parser.reserved.all (!Text.isBlank ·) := by decide
    simpa using List.all_eq_true.mp hall ch hch
  have hmem : ch ∉ name := by
    rw [heq]
    intro hmem
    rcases List.mem_append.mp hmem with hmem | hmem
    · simp [List.all_eq_true.mp hw ch hmem] at hblank
    rcases List.mem_append.mp hmem with hmem | hmem
    · exact (hchars ch hmem).2 hch
    · simp [List.all_eq_true.mp hw' ch hmem] at hblank
  have hne := dropWhile_ne_nil hname
  rw [Text.next?, List.append_assoc, List.dropWhile_append, if_neg (by simpa using hne)]
  obtain ⟨d, rest, hd⟩ := List.exists_cons_of_ne_nil hne
  rw [hd, List.cons_append, List.head?_cons]
  rintro ⟨⟩
  exact hmem ((List.dropWhile_sublist isLayout).subset (hd ▸ List.mem_cons_self))

/-- A symbol that the text does not begin with is not taken. -/
theorem accept?_none {t : Text} {c : Cursor} (hc : c.Before t) {ch : Char}
    (hne : t.next? ≠ some ch) : c.accept? .skip [[ch]] = none :=
  hc.accept?_none (List.forall_mem_singleton.mpr ⟨ch, rfl, hne⟩)

section Chains

variable {P : Text → Expr → Prop} {next : Cursor → Except ParseError (Expr × Cursor)}
  {left e : Expr} {t tail : Text} {turns : Nat} {c : Cursor} {p q : Prop}

theorem reads_chain_nil (hand : tail.next? ≠ some '&') (hor : tail.next? ≠ some '|')
    (hc : c.Before tail) : Reads (chain next turns left c) left (·.Before tail) := by
  have hnone : c.accept? .skip [['&'], ['|']] = none :=
    hc.accept?_none (by simpa using ⟨hand, hor⟩)
  cases turns with
  | zero => exact .of_ok hc
  | succ turns =>
    rw [chain, hnone]
    exact .of_ok hc

/-- An operand joins what stands to its left. Each connective takes up room of its own, so that the
turns do not run out. -/
theorem readsIf_chain_cons {operator : Connective} {right : Expr} {w w' rest : Text} (hw : Gap w)
    (hw' : Gap w')
    (hturns : ((w ++ (operator.symbol ++ (w' ++ (t ++ rest)))).dropWhile isLayout).length ≤ turns)
    (hc : c.Before (w ++ (operator.symbol ++ (w' ++ (t ++ rest)))))
    (hnext : ∀ c, c.Before (t ++ rest) → ReadsIf p (next c) right (·.Before rest))
    (hrest : ∀ {turns : Nat}, (rest.dropWhile isLayout).length ≤ turns → ∀ {c : Cursor},
      c.Before rest → ReadsIf q (chain next turns (.binary operator left right) c) e (·.Before tail)) :
    ReadsIf (p ∧ q) (chain next turns left c) e (·.Before tail) := by
  have hsolid : ∀ u, (operator.symbol ++ u).dropWhile isLayout = operator.symbol ++ u := by
    cases operator <;> exact fun _ => rfl
  have hlength : operator.symbol.length = 1 := by cases operator <;> rfl
  have hshort := (List.dropWhile_suffix isLayout (l := rest)).length_le
  rw [hw.dropWhile, hsolid] at hturns
  simp only [List.length_append, hlength] at hturns
  obtain ⟨turns, rfl⟩ := Nat.exists_eq_succ_of_ne_zero (n := turns) (by omega)
  obtain ⟨c', haccept, hc'⟩ := Parser.accept?_connective operator ((before_gap hw).mp hc)
  have hsymbol : (if operator.symbol = ['&'] then Connective.and else .or) = operator := by
    cases operator <;> rfl
  rw [chain, haccept]
  simp only [hsymbol]
  exact (hnext c' ((before_gap hw').mp hc')).bind fun c hc => hrest (by omega) hc

theorem readsIf_chainOf {first : Expr} {rest : Text} (hc : c.Before (t ++ rest))
    (hfirst : ∀ c, c.Before (t ++ rest) → ReadsIf p (next c) first (·.Before rest))
    (hrest : ∀ {turns : Nat}, (rest.dropWhile isLayout).length ≤ turns → ∀ {c : Cursor},
      c.Before rest → ReadsIf q (chain next turns first c) e (·.Before tail)) :
    ReadsIf (p ∧ q) (chainOf next c) e (·.Before tail) :=
  (hfirst c hc).bind fun _ hc => hrest hc.length_le hc

theorem Chain.reads
    (hnext : ∀ t e, P t e → ∀ tail c, c.Before (t ++ tail) → Reads (next c) e (·.Before tail))
    (h : Chain P left t e) (hand : tail.next? ≠ some '&') (hor : tail.next? ≠ some '|')
    (hturns : ((t ++ tail).dropWhile isLayout).length ≤ turns) (hc : c.Before (t ++ tail)) :
    Reads (chain next turns left c) e (·.Before tail) := by
  induction h generalizing turns c with
  | nil left => exact reads_chain_nil hand hor hc
  | cons left right e w w' t rest operator hw hw' ht hrest ih =>
    simp only [List.append_assoc] at hc hturns
    exact (readsIf_chain_cons hw hw' hturns hc
      (fun c hc => (hnext t right ht _ c hc).readsIf trivial)
      fun hturns _ hc => (ih hturns hc).readsIf trivial).reads ⟨trivial, trivial⟩

theorem ChainOf.reads
    (hnext : ∀ t e, P t e → ∀ tail c, c.Before (t ++ tail) → Reads (next c) e (·.Before tail))
    (h : ChainOf P t e) (hand : tail.next? ≠ some '&') (hor : tail.next? ≠ some '|')
    (hc : c.Before (t ++ tail)) : Reads (chainOf next c) e (·.Before tail) := by
  obtain ⟨first, e, t, rest, ht, hrest⟩ := h
  rw [List.append_assoc] at hc
  exact (hnext t first ht _ c hc).bind fun c hc => hrest.reads hnext hand hor hc.length_le hc

end Chains

theorem Constraint.reads_operand {t tail : Text} {e : Expr} (h : Constraint t e) {c : Cursor}
    (hc : c.Before (t ++ tail)) (enclosed : Nat → Cursor → Except ParseError (Expr × Cursor)) :
    Reads (operand enclosed c) e (·.Before tail) := by
  have hhere := hc.skipLayout.before
  rw [operand, accept?_none hhere (h.next?_ne tail (by decide))]
  exact (h.reads hhere).mono fun c hc => congrArg _ hc

theorem readsIf_enclosed {p : Prop} {levels : Nat} {inner tail : Text} {e : Expr} {c : Cursor}
    (hc : c.Before ('(' :: (inner ++ ')' :: tail)))
    (hinner : ∀ inside, inside.Before (inner ++ ')' :: tail) →
      ReadsIf p (chainOf (operandWithin levels) inside) e (·.Before (')' :: tail))) :
    ReadsIf p (operandWithin (levels + 1) c) e (·.Before tail) := by
  obtain ⟨inside, haccept, hinside⟩ := hc.skipLayout.before.accept?_char (by decide)
  rw [operandWithin, operand, haccept]
  refine ((hinner inside hinside.before).bind fun c hc => ?_).congr (iff_of_eq (and_true p))
  refine (Cursor.Before.expect_char hc (by decide)).bindIf fun c hc => ?_
  exact (Reads.of_ok hc.before).readsIf trivial

theorem Operand.reads {levels : Nat} {t tail : Text} {e : Expr} (h : Operand levels t e) {c : Cursor}
    (hc : c.Before (t ++ tail)) : Reads (operandWithin levels c) e (·.Before tail) := by
  induction levels generalizing t tail e c with
  | zero => exact Constraint.reads_operand h hc _
  | succ levels ih =>
    rcases h with h | ⟨w, t, w', e, hw, ht, hw'⟩
    · exact h.reads_operand hc _
    · have hclose : ∀ ch, ch ≠ ')' → (w' ++ ')' :: tail).next? ≠ some ch := fun ch hch => by
        rw [hw'.next?]
        exact Text.next?_ne (by decide) hch.symm tail
      have hopen : c.Before ('(' :: (w ++ (t ++ w') ++ ')' :: tail)) := by simpa using hc
      refine (readsIf_enclosed hopen fun inside hinside => ?_).reads trivial
      simp only [List.append_assoc] at hinside
      exact ((ht.reads (fun t e h tail c hc => ih h hc) (hclose '&' (by decide))
        (hclose '|' (by decide)) ((before_gap hw).mp hinside)).mono
          fun c hc => (before_gap hw').mp hc).readsIf trivial

/-- An operand begins with a parenthesis or a name. -/
theorem Operand.next?_ne {levels : Nat} {t : Text} {e : Expr} (h : Operand levels t e)
    (tail : Text) : (t ++ tail).next? ≠ some ']' := by
  cases levels with
  | zero => exact Constraint.next?_ne h tail (by decide)
  | succ levels =>
    rcases h with h | ⟨w, t, w', e, hw, ht, hw'⟩
    · exact h.next?_ne tail (by decide)
    · exact Text.next?_ne (by decide) (by decide) _

theorem Expression.next?_ne {t : Text} {e : Expr} (h : Expression t e) (tail : Text) :
    (t ++ tail).next? ≠ some ']' := by
  obtain ⟨first, e, t, rest, ht, hrest⟩ := h
  rw [List.append_assoc]
  exact ht.next?_ne _

/-! ### Tokens -/

/-- A name reaches up to white space or the character that closes it. -/
theorem reads_upTo {name w tail : Text} {stop : Char} (hstop : isLayout stop = false)
    (hname : ∀ c ∈ name, isLayout c = false ∧ c ≠ stop) (hw : Gap w) {c : Cursor}
    (hc : c.At (name ++ (w ++ stop :: tail))) :
    Reads (c.upTo (Parser.layoutStops ++ [[stop]])) name (·.Before (stop :: tail)) := by
  have hstops : ∀ s ∈ Parser.layoutStops ++ [[stop]], ∃ d ∉ name, s = [d] := by
    have habsent : ∀ d, isLayout d = true → d ∉ name := fun d hd hmem => by
      rw [(hname d hmem).1] at hd
      cases hd
    simp only [Parser.layoutStops, List.cons_append, List.nil_append, List.forall_mem_cons]
    exact ⟨⟨' ', habsent _ rfl, rfl⟩, ⟨'\t', habsent _ rfl, rfl⟩, ⟨'\n', habsent _ rfl, rfl⟩,
      ⟨'\r', habsent _ rfl, rfl⟩, ⟨stop, fun hmem => (hname stop hmem).2 rfl, rfl⟩, by simp⟩
  -- The name stands before some stop, with nothing but white space between that and its end.
  obtain ⟨ch, rest, hrest, hch, hbefore⟩ : ∃ ch rest, c.rest = name ++ ch :: rest ∧
      [ch] ∈ Parser.layoutStops ++ [[stop]] ∧
        (ch :: rest).dropWhile isLayout = (stop :: tail).dropWhile isLayout := by
    cases name with
    | nil =>
      refine ⟨stop, tail, ?_, by simp, rfl⟩
      rw [hc, List.nil_append, hw.dropWhile, List.dropWhile_cons_of_neg (by simp [hstop])]
      rfl
    | cons d name =>
      have hd := (hname d List.mem_cons_self).1
      have hat := Cursor.At.rest_eq hc hd
      cases w with
      | nil => exact ⟨stop, tail, hat, by simp, rfl⟩
      | cons ch w =>
        refine ⟨ch, w ++ stop :: tail, hat, ?_, hw.dropWhile _⟩
        have hlayout := hw ch List.mem_cons_self
        simp only [isLayout, Bool.or_eq_true, beq_iff_eq] at hlayout
        simp [Parser.layoutStops, ← or_assoc, hlayout]
  exact (Cursor.upTo_append hrest hstops hch).mono fun c hc => (congrArg _ hc).trans hbefore

theorem Tag.reads {t tail : Text} {tag : XmlTag} (h : Tag t tag) {c : Cursor}
    (hc : c.Before (t ++ tail)) : Reads (Parser.tag c) tag (·.At tail) := by
  unfold Parser.tag
  cases h with
  | opening w name w' hw hname hslash hw' =>
    have hopen : c.Before ('<' :: (w ++ (name ++ (w' ++ '>' :: tail)))) := by simpa using hc
    refine (hopen.expect_char (by decide)).bind fun c hc => ?_
    have hnext : (name ++ (w' ++ '>' :: tail)).next? ≠ some '/' := by
      cases name with
      | nil =>
        rw [List.nil_append, hw'.next?]
        exact Text.next?_ne (by decide) (by decide) tail
      | cons d name =>
        exact Text.next?_ne (hname d List.mem_cons_self).1 (by simpa using hslash) _
    have hc' : c.At (name ++ (w' ++ '>' :: tail)) := hc.trans (hw.dropWhile _)
    have hmark : Parser.mark ['/'] c = (false, c) := by
      rw [Parser.mark, accept?_none hc'.before hnext]
    simp only [hmark]
    refine (reads_upTo (by decide) hname hw' hc').bind fun c hc => ?_
    exact (hc.expect_char (by decide)).bind fun c hc => .of_ok hc
  | closing w w' name w'' hw hw' hname hw'' =>
    have hopen : c.Before ('<' :: (w ++ '/' :: (w' ++ (name ++ (w'' ++ '>' :: tail))))) := by
      simpa using hc
    refine (hopen.expect_char (by decide)).bind fun c hc => ?_
    obtain ⟨c', haccept, hc'⟩ := ((before_gap hw).mp hc.before).accept?_char (by decide)
    have hmark : Parser.mark ['/'] c = (true, c') := by rw [Parser.mark, haccept]
    simp only [hmark]
    refine (reads_upTo (by decide) hname hw'' (hc'.trans (hw'.dropWhile _))).bind fun c hc => ?_
    exact (hc.expect_char (by decide)).bind fun c hc => .of_ok hc

theorem Tag.exists_eq {t : Text} {tag : XmlTag} (h : Tag t tag) : ∃ rest, t = '<' :: rest := by
  cases h <;> exact ⟨_, rfl⟩

/-! ### Repetitions -/

namespace Count

variable {t : Text} {n : UInt32}

theorem count_eq_ok (h : Count t n) (position : Nat) : Parser.count position t = .ok n := by
  obtain ⟨sign, digits, hsign, hne, hdigits, ht, hn⟩ := h
  have hvalue : Parser.digits? digits = some n.toNat := by
    have hall : digits.all Char.isDigit := List.all_eq_true.mpr hdigits
    rw [Parser.digits?, if_pos (by simp [hall, hne]), ← Nat.ofDigitChars_eq_foldl, hn]
  have hbound : n.toNat ≤ Parser.maxCount := Nat.le_of_lt_succ n.toNat_lt
  have hcount : Parser.count? (sign ++ digits) = some n := by
    unfold Parser.count?
    rcases hsign with rfl | rfl
    · split
      next rest hplus =>
        -- No sign stands before digits.
        have hmem : '+' ∈ digits := (show digits = '+' :: rest from hplus) ▸ List.mem_cons_self
        exact absurd (hdigits '+' hmem) (by decide)
      next => simp only [List.nil_append, hvalue, if_pos hbound, UInt32.ofNat_toNat]
    · simp only [List.singleton_append, hvalue, if_pos hbound, UInt32.ofNat_toNat]
  rw [Parser.count, ht, hcount]

theorem dropWhile (h : Count t n) : Count (t.dropWhile isLayout) n := by
  obtain ⟨sign, digits, hsign, hne, hdigits, ht, hn⟩ := h
  exact .mk _ n sign digits hsign hne hdigits (by rw [trim_dropWhile, ht]) hn

theorem trim_ne_nil (h : Count t n) : Text.trim t ≠ [] := by
  obtain ⟨sign, digits, -, hne, -, ht, -⟩ := h
  rw [ht]
  exact List.append_ne_nil_of_right_ne_nil _ hne

theorem allBlank (h : Count t n) : Text.allBlank t = false := by
  by_contra hblank
  have htrim := Text.trim_append (w := t) (by simpa using hblank) (v := []) rfl []
  rw [List.append_nil, List.append_nil] at htrim
  exact h.trim_ne_nil htrim

/-- No bound has a comma or a brace in it. -/
theorem notMem (h : Count t n) {ch : Char} (hblank : Text.isBlank ch = false)
    (hdigit : ch.isDigit = false) (hplus : ch ≠ '+') : ch ∉ t := by
  obtain ⟨sign, digits, hsign, -, hdigits, ht, -⟩ := h
  obtain ⟨w, w', hw, hw', heq⟩ := t.exists_eq_trim
  rw [heq, ht]
  intro hmem
  rcases List.mem_append.mp hmem with hmem | hmem
  · simp [List.all_eq_true.mp hw ch hmem] at hblank
  rcases List.mem_append.mp hmem with hmem | hmem
  · rcases List.mem_append.mp hmem with hmem | hmem
    · rcases hsign with rfl | rfl
      · cases hmem
      · exact hplus (List.mem_singleton.mp hmem)
    · simp [hdigits ch hmem] at hdigit
  · simp [List.all_eq_true.mp hw' ch hmem] at hblank

theorem reads_upTo (h : Count t n) {stops : List Text} {stop : Char} {tail : Text} {c : Cursor}
    (hstops : ∀ s ∈ stops, s = [','] ∨ s = ['}']) (hstop : [stop] ∈ stops)
    (hc : c.At (t ++ stop :: tail)) :
    Reads (c.upTo stops) (t.dropWhile isLayout) (·.rest = stop :: tail) := by
  have hsolid : isLayout stop = false := by
    rcases hstops _ hstop with heq | heq <;> cases heq <;> decide
  have habsent : ∀ ch, ch ∉ t → ch ∉ t.dropWhile isLayout := fun ch hch hmem =>
    hch ((List.dropWhile_sublist isLayout).subset hmem)
  refine Cursor.upTo_append (hc.trans (dropWhile_solid t hsolid tail)) (fun s hs => ?_) hstop
  rcases hstops s hs with rfl | rfl
  · exact ⟨',', habsent _ (h.notMem (by decide) (by decide) (by decide)), rfl⟩
  · exact ⟨'}', habsent _ (h.notMem (by decide) (by decide) (by decide)), rfl⟩

end Count

theorem reads_upperBound_none (min : UInt32) {tail : Text} {c : Cursor} (hc : c.rest = '}' :: tail) :
    Reads (Parser.upperBound min c) (some min) (·.Before ('}' :: tail)) := by
  have hbefore : c.Before ('}' :: tail) := congrArg _ hc
  rw [Parser.upperBound, accept?_none hbefore (Text.next?_ne (by decide) (by decide) tail)]
  exact .of_ok hbefore

theorem reads_upperBound_blank (min : UInt32) {w blank tail : Text} (hw : Gap w)
    (hblank : Text.allBlank blank) {c : Cursor} (hc : c.rest = ',' :: (w ++ (blank ++ '}' :: tail))) :
    Reads (Parser.upperBound min c) none (·.Before ('}' :: tail)) := by
  have hbefore : c.Before (',' :: (w ++ (blank ++ '}' :: tail))) := congrArg _ hc
  obtain ⟨c', haccept, hc'⟩ := hbefore.accept?_char (by decide)
  rw [Parser.upperBound, haccept]
  have hrest : c'.rest = blank.dropWhile isLayout ++ '}' :: tail :=
    (hc'.trans (hw.dropWhile _)).trans (dropWhile_solid blank (by decide) tail)
  have hblank' : Text.allBlank (blank.dropWhile isLayout) := List.all_eq_true.mpr fun ch hch =>
    List.all_eq_true.mp hblank ch ((List.dropWhile_sublist isLayout).subset hch)
  refine (Cursor.upTo_append hrest ?_ (List.mem_singleton_self _)).bind fun c hc => ?_
  · refine List.forall_mem_singleton.mpr ⟨'}', fun hmem => ?_, rfl⟩
    exact absurd (List.all_eq_true.mp hblank' '}' hmem) (by decide)
  · simp only [hblank', if_true]
    exact .of_ok (congrArg _ hc)

theorem Count.reads_upperBound (min : UInt32) {w t tail : Text} {max : UInt32} (hw : Gap w)
    (ht : Count t max) {c : Cursor} (hc : c.rest = ',' :: (w ++ (t ++ '}' :: tail))) :
    Reads (Parser.upperBound min c) (some max) (·.Before ('}' :: tail)) := by
  have hbefore : c.Before (',' :: (w ++ (t ++ '}' :: tail))) := congrArg _ hc
  obtain ⟨c', haccept, hc'⟩ := hbefore.accept?_char (by decide)
  rw [Parser.upperBound, haccept]
  refine (ht.reads_upTo (by simp) (List.mem_singleton_self _)
    (hc'.trans (hw.dropWhile _))).bind fun c hc => ?_
  simp only [ht.dropWhile.allBlank, Bool.false_eq_true, if_false, ht.dropWhile.count_eq_ok]
  exact .of_ok (congrArg _ hc)

/-- The lower bound is read, then what follows it, then the closing brace. -/
theorem Count.reads_bounds {w t behind tail : Text} {min : UInt32} {max : Option UInt32} {stop : Char}
    (hw : Gap w) (ht : Count t min) (hstop : [stop] ∈ [[','], ['}']])
    (hmax : (Repeats.mk min max).exceeded? = none)
    (hupper : ∀ c : Cursor, c.rest = stop :: behind →
      Reads (Parser.upperBound min c) max (·.Before ('}' :: tail)))
    {c : Cursor} (hc : c.Before ('{' :: (w ++ (t ++ stop :: behind)))) :
    Reads (Parser.repeats c) (some ⟨min, max⟩) (·.Before tail) := by
  obtain ⟨inside, haccept, hinside⟩ := hc.accept?_char (by decide)
  rw [Parser.repeats, haccept]
  refine Reads.bind (x := (⟨min, max⟩ : Repeats)) (P := (·.Before tail)) ?_ fun c hc => .of_ok hc
  unfold Parser.bounds
  refine (ht.reads_upTo (by simp) hstop (hinside.trans (hw.dropWhile _))).bind fun c hc => ?_
  simp only [ht.dropWhile.count_eq_ok]
  refine (hupper c hc).bind fun c hc => ?_
  refine (hc.expect_char (by decide)).bind fun c hc => ?_
  simp only [hmax]
  exact .of_ok hc.before

theorem Bounds.reads {t tail : Text} {r : Repeats} (h : Bounds t r) {c : Cursor}
    (hc : c.Before (t ++ tail)) : Reads (Parser.repeats c) (some r) (·.Before tail) := by
  have hnone : ∀ {ch d : Char} {t : Text}, c.Before (d :: t) → isLayout d = false → d ≠ ch →
      c.accept? .skip [[ch]] = none := fun hc hd hne => accept?_none hc (Text.next?_ne hd hne _)
  cases h with
  | exactly w t n hw ht =>
    exact Count.reads_bounds hw ht (by simp) (by simp [Repeats.exceeded?])
      (fun c hc => reads_upperBound_none n hc) (by simpa using hc)
  | atLeast w t w' blank n hw ht hw' hblank =>
    exact Count.reads_bounds hw ht (by simp) (by simp [Repeats.exceeded?])
      (fun c hc => reads_upperBound_blank n hw' hblank hc) (by simpa using hc)
  | between w t w' t' n m hw ht hw' ht' hle =>
    exact Count.reads_bounds hw ht (by simp) (by simpa [Repeats.exceeded?] using hle)
      (fun c hc => ht'.reads_upperBound n hw' hc) (by simpa using hc)
  | star =>
    obtain ⟨c', haccept, hc'⟩ := Cursor.Before.accept?_char (a := '*') hc (by decide)
    rw [Parser.repeats, hnone hc (by decide) (by decide), haccept]
    exact .of_ok hc'.before
  | plus =>
    obtain ⟨c', haccept, hc'⟩ := Cursor.Before.accept?_char (a := '+') hc (by decide)
    rw [Parser.repeats, hnone hc (by decide) (by decide), hnone hc (by decide) (by decide), haccept]
    exact .of_ok hc'.before

theorem reads_repeats {t tail : Text} {r : Option Repeats} (h : Behind Bounds t r)
    (htail : ∀ ch ∈ ['{', '*', '+'], tail.next? ≠ some ch) {c : Cursor} (hc : c.Before (t ++ tail)) :
    Reads (Parser.repeats c) r (·.Before tail) := by
  cases h with
  | absent =>
    have habsent : ∀ ch ∈ ['{', '*', '+'], c.accept? .skip [[ch]] = none := fun ch hch =>
      accept?_none hc (htail ch hch)
    rw [Parser.repeats, habsent '{' (by simp), habsent '*' (by simp), habsent '+' (by simp)]
    exact .of_ok hc
  | present w t r hw ht =>
    rw [List.append_assoc, before_gap hw] at hc
    exact ht.reads hc

theorem mark_eq {t tail : Text} {optional : Option Unit} (h : Behind Mark t optional)
    (htail : tail.next? ≠ some '?') {c : Cursor} (hc : c.Before (t ++ tail)) :
    ∃ c', Parser.mark ['?'] c = (optional.isSome, c') ∧ c'.Before tail := by
  cases h with
  | absent => exact ⟨c, by rw [Parser.mark, accept?_none hc htail]; rfl, hc⟩
  | present w t x hw ht =>
    obtain rfl : t = ['?'] := by cases ht; rfl
    rw [List.append_assoc, before_gap hw] at hc
    obtain ⟨c', haccept, hc'⟩ := Cursor.Before.accept?_char (a := '?') hc (by decide)
    exact ⟨c', by rw [Parser.mark, haccept]; rfl, hc'.before⟩

/-! ### Brackets and tags around them -/

theorem Body.exists_eq {default t : Text} {e : Option Expr} (h : Body default t e) :
    ∃ ch rest, t = ch :: rest ∧ (ch = '[' ∨ ch = '"') := by
  cases h with
  | any w hw => exact ⟨_, _, rfl, .inl rfl⟩
  | brackets w t w' e hw ht hw' => exact ⟨_, _, rfl, .inl rfl⟩
  | word value hvalue => exact ⟨_, _, rfl, .inr rfl⟩

theorem reads_body_any {default w tail : Text} (hw : Gap w) {c : Cursor}
    (hc : c.Before ('[' :: (w ++ ']' :: tail))) :
    Reads (Parser.body default c) none (·.Before tail) := by
  obtain ⟨inside, haccept, hinside⟩ := hc.accept?_char (by decide)
  obtain ⟨c', hclose, hc'⟩ := ((before_gap hw).mp hinside.before).accept?_char (by decide)
  simp only [Parser.body, haccept, hclose]
  exact .of_ok hc'.before

/-- Brackets are read if what stands between them is. -/
theorem readsIf_brackets {p : Prop} {default t tail : Text} {e : Expr}
    (hne : (t ++ ']' :: tail).next? ≠ some ']')
    (hexpression : ∀ c, c.Before (t ++ ']' :: tail) →
      ReadsIf p (Parser.expression c) e (·.Before (']' :: tail)))
    {c : Cursor} (hc : c.Before ('[' :: (t ++ ']' :: tail))) :
    ReadsIf p (Parser.body default c) (some e) (·.Before tail) := by
  obtain ⟨inside, haccept, hinside⟩ := hc.accept?_char (by decide)
  simp only [Parser.body, haccept, accept?_none hinside.before hne]
  refine ((hexpression inside hinside.before).bind (q := True) fun c hc => ?_).congr
    (iff_of_eq (and_true p))
  refine (Cursor.Before.expect_char hc (by decide)).bindIf fun c hc => ?_
  exact (Reads.of_ok hc.before).readsIf trivial

/-- Between quotes white space counts, so that the cursor has to stand at the very quote. -/
theorem Body.reads {default t tail : Text} {e : Option Expr} (h : Body default t e) {c : Cursor}
    (hc : c.rest = t ++ tail) : Reads (Parser.body default c) e (·.Before tail) := by
  have hbefore : c.Before (t ++ tail) := congrArg _ hc
  cases h with
  | any w hw => exact reads_body_any hw (by simpa using hbefore)
  | brackets w t w' e hw ht hw' =>
    have hclose : ∀ ch, ch ≠ ']' → (w' ++ ']' :: tail).next? ≠ some ch := fun ch hch => by
      rw [hw'.next?]
      exact Text.next?_ne (by decide) hch.symm tail
    have hopen : c.Before ('[' :: (w ++ (t ++ w') ++ ']' :: tail)) := by simpa using hbefore
    refine (readsIf_brackets ?_ (fun inside hinside => ?_) hopen).reads trivial
    · simpa [hw.next?] using ht.next?_ne (w' ++ ']' :: tail)
    · simp only [List.append_assoc] at hinside
      exact ((ChainOf.reads (fun t e h tail c hc => h.reads hc) ht (hclose '&' (by decide))
        (hclose '|' (by decide)) ((before_gap hw).mp hinside)).mono
          fun c hc => (before_gap hw').mp hc).readsIf trivial
  | word value hvalue =>
    have hquote : c.rest = '"' :: (value ++ '"' :: tail) := by simpa using hc
    have hnone : c.accept? .skip [['[']] = none :=
      accept?_none hbefore (Text.next?_ne (by decide) (by decide) _)
    unfold Parser.body
    simp only [hnone]
    refine (Cursor.expect_keep_char hquote).bind fun c hc => ?_
    refine Reads.bind (x := value) (P := (·.Before tail)) ?_ fun c hc => .of_ok hc
    refine (Cursor.upToUnescaped_append hc hvalue.closed).bind fun c hc => ?_
    have hclose : c.Before ('"' :: tail) := congrArg _ hc
    exact (hclose.expect_char (by decide)).bind fun c hc => .of_ok hc.before

theorem reads_leadingTag {t tail : Text} {tag : Option XmlTag} (h : Ahead Tag t tag) {ch : Char}
    (hch : isLayout ch = false) (hne : ch ≠ '<') {c : Cursor} (hc : c.Before (t ++ ch :: tail)) :
    Reads (Parser.tagAt ['<'] c.skipLayout) tag (·.rest = ch :: tail) := by
  unfold Parser.tagAt
  cases h with
  | absent =>
    have hsees : ¬ c.skipLayout.sees ['<'] := by
      simp [Cursor.sees, Cursor.At.rest_eq hc.skipLayout hch, List.isPrefixOf, hne.symm]
    rw [if_neg hsees]
    exact .of_ok (Cursor.At.rest_eq hc.skipLayout hch)
  | present t w tag ht hw =>
    obtain ⟨rest, rfl⟩ := ht.exists_eq
    have hsees : c.skipLayout.sees ['<'] := by
      simp [Cursor.sees, Cursor.At.rest_eq hc.skipLayout (by decide), List.isPrefixOf]
    rw [if_pos hsees]
    rw [List.append_assoc] at hc
    refine (ht.reads hc.skipLayout.before).bind fun c hc => ?_
    exact .of_ok (Cursor.At.rest_eq (hc.trans (hw.dropWhile _)) hch)

theorem reads_trailingTag {t tail : Text} {tag : Option XmlTag} (h : Behind TrailingTag t tag)
    (htail : tag = none → ¬ ['<', '/'] <+: tail.dropWhile isLayout) {c : Cursor}
    (hc : c.Before (t ++ tail)) :
    Reads (Parser.tagAt ['<', '/'] c.skipLayout) tag (·.Before tail) := by
  unfold Parser.tagAt
  cases h with
  | absent =>
    have hsees : ¬ c.skipLayout.sees ['<', '/'] := by
      rw [Cursor.sees, hc.skipLayout, List.isPrefixOf_iff_prefix]
      exact htail rfl
    rw [if_neg hsees]
    exact .of_ok hc.skipLayout.before
  | present w t tag hw ht =>
    obtain ⟨ht, hprefix⟩ := ht
    rw [List.append_assoc, before_gap hw] at hc
    have hsees : c.skipLayout.sees ['<', '/'] := by
      obtain ⟨rest, rfl⟩ := ht.exists_eq
      rw [Cursor.sees, Cursor.At.rest_eq hc.skipLayout (by decide), List.isPrefixOf_iff_prefix]
      exact List.prefix_append_of_prefix hprefix
    rw [if_pos hsees]
    exact (ht.reads hc.skipLayout.before).bind fun c hc => .of_ok hc.before

theorem Behind.next?_ne {α : Type} {P : Text → α → Prop} {t tail : Text} {x : Option α}
    (h : Behind P t x) {ch : Char} (hpresent : ∀ t x, P t x → (t ++ tail).next? ≠ some ch)
    (htail : tail.next? ≠ some ch) : (t ++ tail).next? ≠ some ch := by
  cases h with
  | absent => exact htail
  | present w t x hw ht =>
    rw [List.append_assoc, hw.next?]
    exact hpresent t x ht

/-- Bounds and marks belong to the token in front of them; no tag begins like them. -/
theorem Behind.next?_ne_tag {t tail : Text} {tag : Option XmlTag} (h : Behind TrailingTag t tag)
    (htail : ∀ ch ∈ ['{', '*', '+', '?'], tail.next? ≠ some ch) :
    ∀ ch ∈ ['{', '*', '+', '?'], (t ++ tail).next? ≠ some ch := by
  refine fun ch hch => h.next?_ne (fun t x ht => ?_) (htail ch hch)
  obtain ⟨rest, rfl⟩ := ht.1.exists_eq
  refine Text.next?_ne (by decide) ?_ _
  rintro rfl
  simp at hch

theorem Behind.next?_ne_mark {t tail : Text} {optional : Option Unit} (h : Behind Mark t optional)
    (htail : ∀ ch ∈ ['{', '*', '+', '?'], tail.next? ≠ some ch) :
    ∀ ch ∈ ['{', '*', '+'], (t ++ tail).next? ≠ some ch := by
  refine fun ch hch => h.next?_ne (fun t x ht => ?_) (htail ch (List.mem_append_left ['?'] hch))
  obtain rfl : t = ['?'] := by cases ht; rfl
  refine Text.next?_ne (by decide) ?_ _
  rintro rfl
  simp at hch

/-- Tag, body, bounds, mark and tag are read in the order of the text. The body alone may fail. -/
theorem readsIf_token {p : Prop} {default ahead body bounds mark behind tail : Text}
    {leading trailing : Option XmlTag} {e : Option Expr} {r : Option Repeats} {optional : Option Unit}
    (hahead : Ahead Tag ahead leading)
    (hstart : ∃ ch rest, body = ch :: rest ∧ (ch = '[' ∨ ch = '"'))
    (hbody : ∀ {tail : Text} {c : Cursor}, c.rest = body ++ tail →
      ReadsIf p (Parser.body default c) e (·.Before tail))
    (hbounds : Behind Bounds bounds r) (hmark : Behind Mark mark optional)
    (hbehind : Behind TrailingTag behind trailing)
    (hnext : ∀ ch ∈ ['{', '*', '+', '?'], tail.next? ≠ some ch)
    (htail : trailing = none → ¬ ['<', '/'] <+: tail.dropWhile isLayout) {c : Cursor}
    (hc : c.Before (ahead ++ (body ++ (bounds ++ (mark ++ (behind ++ tail)))))) :
    ReadsIf p (Parser.token default c) ⟨leading, trailing, e, optional.isSome, r⟩
      (·.Before tail) := by
  obtain ⟨ch, rest, rfl, hch⟩ := hstart
  have hsolid : isLayout ch = false ∧ ch ≠ '<' := by rcases hch with rfl | rfl <;> decide
  have hfollows := hbehind.next?_ne_tag hnext
  unfold Parser.token
  refine (reads_leadingTag hahead hsolid.1 hsolid.2 hc).bindIf fun c hc => ?_
  refine ((hbody hc).bind (q := True) fun c hc => ?_).congr (iff_of_eq (and_true p))
  refine (reads_repeats hbounds (hmark.next?_ne_mark hfollows) hc).bindIf fun c hc => ?_
  obtain ⟨c', hoptional, hc'⟩ := mark_eq hmark (hfollows '?' (by simp)) hc
  simp only [hoptional]
  refine (reads_trailingTag hbehind htail hc').bindIf fun c hc => ?_
  exact (Reads.of_ok hc).readsIf trivial

theorem Token.reads {default t tail : Text} {x : CorpusQuery.Token} (h : Token default t x)
    (hnext : ∀ ch ∈ ['{', '*', '+', '?'], tail.next? ≠ some ch)
    (htail : x.trailingTag = none → ¬ ['<', '/'] <+: tail.dropWhile isLayout) {c : Cursor}
    (hc : c.Before (t ++ tail)) : Reads (Parser.token default c) x (·.Before tail) := by
  obtain ⟨ahead, body, bounds, mark, behind, leading, trailing, e, r, optional, hahead, hbody,
    hbounds, hmark, hbehind⟩ := h
  simp only [List.append_assoc] at hc
  exact (readsIf_token hahead hbody.exists_eq (fun hc => (hbody.reads hc).readsIf trivial) hbounds
    hmark hbehind hnext htail hc).reads trivial

/-- A token is told from a `within` clause by its first character, and from what would belong to a
token in front. -/
theorem Token.exists_eq {default t : Text} {x : CorpusQuery.Token} (h : Token default t x) :
    ∃ ch rest, t = ch :: rest ∧ Text.isBlank ch = false ∧ ch ∉ ['w', '{', '*', '+', '?'] := by
  obtain ⟨ahead, body, bounds, mark, behind, leading, trailing, e, r, optional, hahead, hbody,
    -, -, -⟩ := h
  cases hahead with
  | absent =>
    obtain ⟨ch, rest, rfl, rfl | rfl⟩ := hbody.exists_eq
    · exact ⟨'[', _, rfl, by decide, by decide⟩
    · exact ⟨'"', _, rfl, by decide, by decide⟩
  | present t w tag ht hw =>
    obtain ⟨rest, rfl⟩ := ht.exists_eq
    exact ⟨'<', _, rfl, by decide, by decide⟩

/-! ### Queries -/

theorem Within.reads {t name tail : Text} (h : Within t name) {c : Cursor}
    (hc : c.Before (t ++ tail)) : Reads (Parser.within c) name (·.Before tail) := by
  obtain ⟨w, w', name, v, v', hw, hw', hname, hv, hv'⟩ := h
  have hword : c.Before (Parser.withinSymbol ++
      (w ++ '<' :: (w' ++ (name ++ (v ++ '/' :: (v' ++ '>' :: tail)))))) := by simpa using hc
  unfold Parser.within
  refine (hword.expect (by simp [Parser.withinSymbol, isLayout])
    (by simp [Parser.withinSymbol, List.isPrefixOf])).bind fun c hc => ?_
  refine (((before_gap hw).mp hc.before).expect_char (by decide)).bind fun c hc => ?_
  refine (reads_upTo (by decide) hname hv (hc.trans (hw'.dropWhile _))).bind fun c hc => ?_
  refine (hc.expect_char (by decide)).bind fun c hc => ?_
  refine (((before_gap hv').mp hc.before).expect_char (by decide)).bind fun c hc => ?_
  exact .of_ok hc.before

theorem Within.exists_eq {t name : Text} (h : Within t name) :
    ∃ rest, t = Parser.withinSymbol ++ rest := by
  obtain ⟨⟩ := h
  exact ⟨_, rfl⟩

section Items

variable {p q : Prop} {default t u rest : Text} {d : Char} {c : Cursor}

theorem Within.reads_item {name : Text} (h : Within t name) (hc : c.Before (t ++ rest)) :
    Reads (Parser.item default c.skipLayout) (.within name) (·.Before rest) := by
  obtain ⟨u, rfl⟩ := h.exists_eq
  have hsees : c.skipLayout.sees Parser.withinSymbol := by
    rw [Cursor.sees, Cursor.At.rest_eq (a := 'w') hc.skipLayout (by decide),
      List.isPrefixOf_iff_prefix]
    exact ⟨u ++ rest, (List.append_assoc ..).symm⟩
  rw [Parser.item, if_pos hsees]
  exact (h.reads hc.skipLayout.before).bind fun c hc => .of_ok hc

/-- What does not begin like a `within` clause is read as a token. -/
theorem readsIf_tokenItem {x : CorpusQuery.Token} (ht : t = d :: u) (hd : isLayout d = false)
    (hword : d ≠ 'w')
    (htoken : ∀ {c : Cursor}, c.Before (t ++ rest) →
      ReadsIf p (Parser.token default c) x (·.Before rest)) (hc : c.Before (t ++ rest)) :
    ReadsIf p (Parser.item default c.skipLayout) (.token x) (·.Before rest) := by
  have hsees : ¬ c.skipLayout.sees Parser.withinSymbol := by
    rw [ht] at hc
    simp [Cursor.sees, Cursor.At.rest_eq hc.skipLayout hd, Parser.withinSymbol, List.isPrefixOf,
      hword.symm]
  rw [Parser.item, if_neg hsees]
  refine ((htoken hc.skipLayout.before).bind (q := True) fun c hc => ?_).congr
    (iff_of_eq (and_true p))
  exact (Reads.of_ok hc).readsIf trivial

variable {items : List Parser.Item}

/-- Each item takes up room of its own, so that the turns do not run out. -/
theorem givesIf_items_cons {first : Parser.Item} {turns : Nat} (ht : t = d :: u)
    (hd : isLayout d = false) (hturns : ((t ++ rest).dropWhile isLayout).length ≤ turns)
    (hc : c.Before (t ++ rest))
    (hfirst : ReadsIf p (Parser.item default c.skipLayout) first (·.Before rest))
    (hrest : ∀ {turns : Nat}, (rest.dropWhile isLayout).length ≤ turns → ∀ {c : Cursor},
      c.Before rest → GivesIf q (Parser.items default turns c) items) :
    GivesIf (p ∧ q) (Parser.items default turns c) (first :: items) := by
  subst ht
  have hshort := (List.dropWhile_suffix isLayout (l := rest)).length_le
  rw [List.cons_append, List.dropWhile_cons_of_neg (by simp [hd])] at hturns
  simp only [List.length_cons, List.length_append] at hturns
  obtain ⟨turns, rfl⟩ := Nat.exists_eq_succ_of_ne_zero (n := turns) (by omega)
  have hend : ¬ c.skipLayout.atEnd := by
    simp [Cursor.atEnd, Cursor.At.rest_eq hc.skipLayout hd]
  rw [Parser.items, if_neg hend]
  exact hfirst.bindGives fun c hc => (hrest (by omega) hc).map (first :: ·)

/-- A query is read if its first token and the items behind it are. -/
theorem givesIf_parse_cons {w : Text} {first : CorpusQuery.Token} (hw : Gap w) (ht : t = d :: u)
    (hd : isLayout d = false)
    (hfirst : ∀ {c : Cursor}, c.Before (t ++ rest) →
      ReadsIf p (Parser.token default c) first (·.Before rest))
    (hrest : ∀ {turns : Nat}, (rest.dropWhile isLayout).length ≤ turns → ∀ {c : Cursor},
      c.Before rest → GivesIf q (Parser.items default turns c) items) :
    GivesIf (p ∧ q) (CorpusQuery.Query.parse default (w ++ (t ++ rest)))
      (some (.ofItems first items)) := by
  have hstart : (Cursor.start (w ++ (t ++ rest))).Before (t ++ rest) :=
    (before_gap hw).mp (Cursor.start_before _)
  have hend : ¬ (Cursor.start (w ++ (t ++ rest))).skipLayout.atEnd := by
    have hsolid := hstart.skipLayout
    rw [ht] at hsolid
    rw [Cursor.atEnd, ht, hsolid.rest_eq hd]
    simp
  rw [CorpusQuery.Query.parse, if_neg hend]
  exact (hfirst hstart.skipLayout.before).bindGives fun c hc =>
    (hrest hc.length_le hc).map fun items => some (CorpusQuery.Query.ofItems first items)

end Items

namespace Items

variable {default text : Text} {items : List Parser.Item}

/-- No item begins with what would belong to a token in front of it. -/
theorem next?_ne (h : Items default text items) : ∀ ch ∈ ['{', '*', '+', '?'],
    text.next? ≠ some ch := by
  intro ch hch
  cases h with
  | nil w hw =>
    have hnext := hw.next? []
    rw [List.append_nil] at hnext
    rw [hnext]
    simp [Text.next?]
  | token w t rest x items hw ht hbehind hrest =>
    obtain ⟨d, t, rfl, hblank, hd⟩ := ht.exists_eq
    rw [hw.next?]
    exact Text.next?_ne (Text.isLayout_eq_false hblank)
      (fun heq => hd (heq ▸ List.mem_cons_of_mem 'w' hch)) _
  | within w t rest name items hw ht hrest =>
    obtain ⟨t, rfl⟩ := ht.exists_eq
    rw [hw.next?]
    refine Text.next?_ne (by decide) ?_ _
    rintro rfl
    simp at hch

theorem givesIf (h : Items default text items) {turns : Nat}
    (hturns : (text.dropWhile isLayout).length ≤ turns) {c : Cursor} (hc : c.Before text) :
    GivesIf True (Parser.items default turns c) items := by
  induction h generalizing turns c with
  | nil w hw =>
    have hnil := hw.dropWhile []
    rw [List.append_nil] at hnil
    exact .of_ok (Parser.items_eq_nil default turns (hc.trans hnil)) trivial
  | token w t rest x items hw ht hbehind hrest ih =>
    rw [hw.dropWhile] at hturns
    rw [before_gap hw] at hc
    obtain ⟨d, u, heq, hblank, hd⟩ := ht.exists_eq
    have hsolid := Text.isLayout_eq_false hblank
    have hword : d ≠ 'w' := fun hw => hd (hw ▸ List.mem_cons_self)
    refine (givesIf_items_cons heq hsolid hturns hc ?_ ih).congr (iff_of_eq (and_true True))
    exact readsIf_tokenItem heq hsolid hword
      (fun hc => (ht.reads hrest.next?_ne hbehind hc).readsIf trivial) hc
  | within w t rest name items hw ht hrest ih =>
    rw [hw.dropWhile] at hturns
    rw [before_gap hw] at hc
    obtain ⟨u, heq⟩ := ht.exists_eq
    exact (givesIf_items_cons (d := 'w') heq (by decide) hturns hc
      ((ht.reads_item hc).readsIf trivial) ih).congr (iff_of_eq (and_true True))

end Items

/-- What the grammar shows is read. -/
theorem Query.parse_eq_ok {default text : Text} {q : CorpusQuery.Query}
    (h : Query default text q) : CorpusQuery.Query.parse default text = .ok (some q) := by
  obtain ⟨first, items, h⟩ := h
  cases h with
  | token w t rest x items hw ht hbehind hrest =>
    obtain ⟨d, u, heq, hblank, -⟩ := ht.exists_eq
    exact (givesIf_parse_cons hw heq (Text.isLayout_eq_false hblank)
      (fun hc => (ht.reads hrest.next?_ne hbehind hc).readsIf trivial) hrest.givesIf).gives
        ⟨trivial, trivial⟩

/-- Brackets around an expression are a token, and by themselves a query. -/
theorem Expression.parse_eq_ok {t : Text} {e : Expr} (h : Expression t e) (default : Text) :
    CorpusQuery.Query.parse default ('[' :: (t ++ [']'])) =
      .ok (some ⟨[⟨none, none, some e, false, none⟩], none⟩) := by
  have hbody : Body default _ _ := .brackets [] _ [] _ .nil h .nil
  have htoken := Token.mk [] _ [] [] [] none none _ none none .absent hbody .absent .absent .absent
  have hitems := Items.token [] _ [] _ [] .nil htoken (by simp) (.nil [] .nil)
  simpa [Query.ofItems] using (Query.mk _ _ _ hitems).parse_eq_ok

/-- White space between symbols alone is no query. -/
theorem Gap.parse_eq_ok {text : Text} (h : Gap text) (default : Text) :
    CorpusQuery.Query.parse default text = .ok none := by
  have hend : (Cursor.start text).skipLayout.atEnd := by
    have hnil := h.dropWhile []
    rw [List.append_nil] at hnil
    simp [Cursor.atEnd, Cursor.skipLayout, Cursor.start, hnil]
  rw [CorpusQuery.Query.parse, if_pos hend]
  rfl

end Grammar

end CorpusQuery
