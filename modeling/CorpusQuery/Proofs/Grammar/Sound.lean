import CorpusQuery.Proofs.Grammar.Complete
import Mathlib.Data.Set.Subsingleton

/-!
What is read is what the grammar shows. A piece is passed over together with the white space around
it; where a piece may be left out, white space goes over to what comes next.
-/

namespace CorpusQuery

open Grammar (Gap)

namespace Cursor

variable {c c' c'' : Cursor} {t t' : Text}

/-- On the way to `c'` the cursor passes over `t`, with white space on either side. -/
def Took (c : Cursor) (t : Text) (c' : Cursor) : Prop :=
  ∃ w w', Gap w ∧ Gap w' ∧ c.rest = w ++ (t ++ (w' ++ c'.rest))

/-- The same, but with `t` right in front. -/
def Passed (c : Cursor) (t : Text) (c' : Cursor) : Prop :=
  ∃ w, Gap w ∧ c.rest = t ++ (w ++ c'.rest)

theorem Took.of_eq (h : c.rest = t ++ c'.rest) : c.Took t c' := ⟨[], [], .nil, .nil, h⟩

theorem Passed.took (h : c.Passed t c') : c.Took t c' := by
  obtain ⟨w, hw, h⟩ := h
  exact ⟨[], w, .nil, hw, h⟩

theorem exists_skipLayout (c : Cursor) : ∃ w, Gap w ∧ c.rest = w ++ c.skipLayout.rest :=
  ⟨c.rest.takeWhile isLayout, Grammar.gap_takeWhile _, List.takeWhile_append_dropWhile.symm⟩

theorem Took.trans (h : c.Took t c') (h' : c'.Took t' c'') :
    ∃ w, Gap w ∧ c.Took (t ++ (w ++ t')) c'' := by
  obtain ⟨w₁, w₂, hw₁, hw₂, heq⟩ := h
  obtain ⟨w₃, w₄, hw₃, hw₄, heq'⟩ := h'
  exact ⟨w₂ ++ w₃, hw₂.append hw₃, w₁, w₄, hw₁, hw₄, by simp [heq, heq']⟩

theorem took_of_skipLayout (h : c.skipLayout.Took t c') : c.Took t c' := by
  obtain ⟨w, hw, heq⟩ := c.exists_skipLayout
  obtain ⟨w₁, w₂, hw₁, hw₂, heq'⟩ := h
  exact ⟨w ++ w₁, w₂, hw.append hw₁, hw₂, by rw [heq, heq', List.append_assoc]⟩

theorem Took.passed {ch : Char} {rest : Text} (h : c.Took t c') (hc : c.rest = ch :: rest)
    (hch : isLayout ch = false) : c.Passed t c' := by
  obtain ⟨w, w', hw, hw', heq⟩ := h
  cases w with
  | nil => exact ⟨w', hw', heq⟩
  | cons d w =>
    rw [hc] at heq
    cases heq
    simp [hw ch List.mem_cons_self] at hch

theorem accept?_eq_some {symbols : List Text} {s : Text} (h : c.accept? .skip symbols = some (s, c')) :
    s ∈ symbols ∧ c.Took s c' := by
  unfold accept? at h
  dsimp only at h
  split at h
  next symbol hfind =>
    cases h
    refine ⟨List.mem_of_find?_eq_some hfind, ?_⟩
    have hsees : c.skipLayout.sees s := List.find?_some hfind
    rw [sees, List.isPrefixOf_iff_prefix] at hsees
    obtain ⟨rest, heq⟩ := hsees
    obtain ⟨w, hw, hc⟩ := c.exists_skipLayout
    obtain ⟨w', hw', hpast⟩ := (c.skipLayout.past s).exists_skipLayout
    refine ⟨w, w', hw, hw', ?_⟩
    have hrest : (c.skipLayout.past s).rest = rest := by simp [past, ← heq]
    rw [hc, ← heq, ← hrest, hpast]
    rfl
  next => cases h

theorem ensures_expect (c : Cursor) (symbol : Text) :
    Ensures (c.expect .skip [symbol]) fun x => c.Took symbol x.2 := by
  unfold expect
  split
  next taken haccept =>
    refine .ok ?_
    obtain ⟨s, c'⟩ := taken
    obtain ⟨hmem, htook⟩ := accept?_eq_some haccept
    exact List.mem_singleton.mp hmem ▸ htook
  next =>
    dsimp only
    split <;> exact .error _

theorem ensures_expect_keep (c : Cursor) (ch : Char) :
    Ensures (c.expect .keep [[ch]]) fun x => c.rest = ch :: x.2.rest := by
  unfold expect accept? pass
  dsimp only
  split
  next taken haccept =>
    refine .ok ?_
    split at haccept
    next symbol hfind =>
      cases haccept
      obtain rfl := List.mem_singleton.mp (List.mem_of_find?_eq_some hfind)
      have hsees : c.sees [ch] := List.find?_some hfind
      rw [sees, List.isPrefixOf_iff_prefix] at hsees
      obtain ⟨rest, heq⟩ := hsees
      simp [past, ← heq]
    next => cases haccept
  next => split <;> exact .error _

theorem append_of_cutBefore? {stops : List Text} {text passed rest : Text}
    (h : cutBefore? stops text = some (passed, rest)) : text = passed ++ rest := by
  induction text generalizing passed with
  | nil => cases h
  | cons ch text ih =>
    rw [cutBefore?] at h
    split at h
    next => cases h; rfl
    next =>
      split at h
      next passed' rest' hcut =>
        cases h
        rw [ih hcut, List.cons_append]
      next => cases h

theorem append_of_cutUnescaped? {stop : Char} {escaped : Bool} {text passed rest : Text}
    (h : cutUnescaped? stop escaped text = some (passed, rest)) :
    text = passed ++ rest ∧ ∃ u, rest = stop :: u := by
  induction text generalizing escaped passed with
  | nil => cases h
  | cons ch text ih =>
    rw [cutUnescaped?] at h
    split at h
    next hstop =>
      cases h
      simp only [Bool.and_eq_true, beq_iff_eq] at hstop
      exact ⟨rfl, text, by rw [hstop.2]⟩
    next =>
      split at h
      next passed' rest' hcut =>
        cases h
        obtain ⟨heq, hrest⟩ := ih hcut
        exact ⟨by rw [heq, List.cons_append], hrest⟩
      next => cases h

theorem ensures_upTo_append (c : Cursor) (stops : List Text) :
    Ensures (c.upTo stops) fun x => c.rest = x.1 ++ x.2.rest ∧ ∀ d, [d] ∈ stops → d ∉ x.1 := by
  unfold upTo
  split
  next passed rest hcut =>
    exact .ok ⟨append_of_cutBefore? hcut, fun d hd => not_mem_of_cutBefore? hcut hd⟩
  next => exact .error _

theorem ensures_upToUnescaped_append (c : Cursor) : Ensures (c.upToUnescaped '"') fun x =>
    c.rest = x.1 ++ x.2.rest ∧ Grammar.Value x.1 ∧ ∃ u, x.2.rest = '"' :: u := by
  unfold upToUnescaped
  split
  next passed rest hcut =>
    obtain ⟨heq, hrest⟩ := append_of_cutUnescaped? hcut
    exact .ok ⟨heq, Grammar.value_of_closed (Quotes.closedFrom_of_cutUnescaped? hcut), hrest⟩
  next => exact .error _

end Cursor

namespace Grammar

/-! ### Expressions -/

/-- A piece that the cursor passes over stands for what is read. -/
def Shows {α : Type} (P : Text → α → Prop) (c : Cursor) (x : α × Cursor) : Prop :=
  ∃ t, P t x.1 ∧ c.Took t x.2

theorem ensures_constraint (c : Cursor) : Ensures (Parser.constraint c) (Shows Constraint c) := by
  unfold Parser.constraint
  obtain ⟨w, hw, hstart⟩ := c.exists_skipLayout
  refine (c.skipLayout.ensures_upTo_append _).bind ?_
  rintro ⟨name, c₁⟩ ⟨hname, hstops⟩
  dsimp only
  split
  next hisName =>
    simp only [Parser.isName, Bool.and_eq_true, Bool.not_eq_true', List.isEmpty_eq_false_iff,
      List.all_eq_true] at hisName
    refine (c₁.ensures_upTo_append _).bind ?_
    rintro ⟨symbol, c₂⟩ ⟨hsymbol, hquote⟩
    dsimp only
    split
    next equality hequality =>
      refine (c₂.ensures_expect_keep _).bind ?_
      rintro ⟨_, c₃⟩ hopen
      have hvalue : Ensures (Parser.quotedRest .keep c₃) fun x => Value x.1 ∧
          c₃.rest = x.1 ++ '"' :: x.2.rest := by
        unfold Parser.quotedRest
        refine c₃.ensures_upToUnescaped_append.bind ?_
        rintro ⟨value, c₄⟩ ⟨heq, hvalue, _⟩
        refine (c₄.ensures_expect_keep _).bind ?_
        rintro ⟨_, c₅⟩ hclose
        refine .ok ⟨hvalue, ?_⟩
        dsimp only at heq hclose ⊢
        rw [heq, hclose]
      refine hvalue.bind ?_
      rintro ⟨value, c₅⟩ ⟨hvalue, hrest⟩
      refine .ok ⟨_, .mk name symbol value equality
        (hstops '=' (by simp)) (hstops '!' (by simp)) hisName.1 (fun d hd => ?_) (hquote '"' (by simp))
        ?_ hvalue, ⟨w, [], hw, .nil, ?_⟩⟩
      · simpa using hisName.2 d hd
      · exact Equality.eq_symbol hequality
      · dsimp only at hname hsymbol hopen hrest ⊢
        rw [hstart, hname, hsymbol, hopen, hrest]
        simp
    next => exact .error _
  next => exact .error _

/-- White space in front of a chain is part of it, if it has any operands. -/
theorem Chain.gap {P : Text → Expr → Prop} {left e : Expr} {t w : Text} (h : Chain P left t e)
    (hw : Gap w) : ∃ t' w', Chain P left t' e ∧ Gap w' ∧ w ++ t = t' ++ w' := by
  cases h with
  | nil left => exact ⟨[], w, .nil left, hw, List.append_nil w⟩
  | cons left right e w₁ w₂ t rest operator hw₁ hw₂ ht hrest =>
    exact ⟨_, [], .cons left right e (w ++ w₁) w₂ t rest operator (hw.append hw₁) hw₂ ht hrest,
      .nil, by simp⟩

section Chains

variable {P : Text → Expr → Prop} {next : Cursor → Except ParseError (Expr × Cursor)}

theorem ensures_chain (hnext : ∀ c, Ensures (next c) (Shows P c)) (turns : Nat) (left : Expr)
    (c : Cursor) : Ensures (Parser.chain next turns left c) fun x =>
      ∃ t, Chain P left t x.1 ∧ c.Passed t x.2 := by
  have hnil : ∀ (left : Expr) (c : Cursor), ∃ t, Chain P left t left ∧ c.Passed t c :=
    fun left c => ⟨[], .nil left, [], .nil, rfl⟩
  induction turns generalizing left c with
  | zero => exact .ok (hnil left c)
  | succ turns ih =>
    rw [Parser.chain]
    split
    next => exact .ok (hnil left c)
    next symbol c₁ haccept =>
      obtain ⟨hmem, w₁, w₂, hw₁, hw₂, hc⟩ := Cursor.accept?_eq_some haccept
      have hsymbol : symbol = (if symbol = ['&'] then Connective.and else .or).symbol := by
        rcases List.mem_cons.mp hmem with rfl | hmem
        · rfl
        · obtain rfl := List.mem_singleton.mp hmem
          rfl
      refine (hnext c₁).bind ?_
      rintro ⟨right, c₂⟩ ⟨t, ht, w₃, w₄, hw₃, hw₄, hc₁⟩
      refine fun x hx => ?_
      obtain ⟨rest, hrest, w₅, hw₅, hc₂⟩ := ih _ c₂ x hx
      obtain ⟨rest', w', hrest', hw', heq⟩ := hrest.gap hw₄
      refine ⟨_, .cons left right x.1 w₁ (w₂ ++ w₃) t rest' _ hw₁ (hw₂.append hw₃) ht hrest',
        w' ++ w₅, hw'.append hw₅, ?_⟩
      dsimp only at hc₁
      rw [← hsymbol, hc, hc₁, hc₂]
      simp only [List.append_assoc]
      rw [← List.append_assoc w₄, heq, List.append_assoc]

theorem ensures_chainOf (hnext : ∀ c, Ensures (next c) (Shows P c)) (c : Cursor) :
    Ensures (Parser.chainOf next c) (Shows (ChainOf P) c) := by
  refine (hnext c).bind ?_
  rintro ⟨first, c₁⟩ ⟨t, ht, w₁, w₂, hw₁, hw₂, hc⟩
  intro x hx
  obtain ⟨rest, hrest, w₃, hw₃, hc₁⟩ := ensures_chain hnext _ _ _ x hx
  obtain ⟨rest', w', hrest', hw', heq⟩ := hrest.gap hw₂
  refine ⟨_, .mk first x.1 t rest' ht hrest', w₁, w' ++ w₃, hw₁, hw'.append hw₃, ?_⟩
  dsimp only at hc hc₁
  rw [hc, hc₁]
  simp only [List.append_assoc]
  rw [← List.append_assoc w₂, heq, List.append_assoc]

end Chains

theorem Shows.operand {levels : Nat} {c : Cursor} {x : Expr × Cursor}
    (h : Shows Constraint c.skipLayout x) : Shows (Operand levels) c x := by
  obtain ⟨t, ht, htook⟩ := h
  exact ⟨t, ht.toOperand levels, Cursor.took_of_skipLayout htook⟩

theorem ensures_operandWithin (levels : Nat) (c : Cursor) :
    Ensures (Parser.operandWithin levels c) (Shows (Operand levels) c) := by
  induction levels generalizing c with
  | zero =>
    rw [Parser.operandWithin, Parser.operand]
    split
    next => exact .error _
    next => exact fun x hx => (ensures_constraint _ x hx).operand
  | succ levels ih =>
    rw [Parser.operandWithin, Parser.operand]
    split
    next symbol inside haccept =>
      obtain ⟨hmem, hopen⟩ := Cursor.accept?_eq_some haccept
      obtain rfl := List.mem_singleton.mp hmem
      refine (ensures_chainOf ih inside).bind ?_
      rintro ⟨e, c₁⟩ ⟨t, ht, htook⟩
      refine (c₁.ensures_expect _).bind ?_
      rintro ⟨_, c₂⟩ hclose
      refine .ok ?_
      obtain ⟨w, hw, htook⟩ := hopen.trans htook
      obtain ⟨w', hw', htook⟩ := htook.trans hclose
      exact ⟨_, .inr (.mk w t w' e hw ht hw'), by simpa using Cursor.took_of_skipLayout htook⟩
    next => exact fun x hx => (ensures_constraint _ x hx).operand

/-! ### Tokens -/

/-- A name has no white space in it, nor the character that closes it. -/
theorem ensures_upTo_name (c : Cursor) (stop : Char) :
    Ensures (c.upTo (Parser.layoutStops ++ [[stop]])) fun x =>
      c.rest = x.1 ++ x.2.rest ∧ ∀ d ∈ x.1, isLayout d = false ∧ d ≠ stop := by
  intro x hx
  obtain ⟨heq, hstops⟩ := c.ensures_upTo_append _ x hx
  refine ⟨heq, fun d hd => ⟨?_, ?_⟩⟩
  · by_contra hlayout
    simp only [isLayout, Bool.not_eq_false, Bool.or_eq_true, beq_iff_eq] at hlayout
    refine hstops d (List.mem_append_left _ ?_) hd
    simpa [Parser.layoutStops, or_assoc] using hlayout
  · rintro rfl
    exact hstops d (by simp) hd

theorem ensures_tag (c : Cursor) : Ensures (Parser.tag c) (Shows Tag c) := by
  unfold Parser.tag
  refine (c.ensures_expect _).bind ?_
  rintro ⟨_, c₁⟩ hopen
  dsimp only at hopen
  cases haccept : c₁.accept? .skip [['/']] with
  | none =>
    have hmark : Parser.mark ['/'] c₁ = (false, c₁) := by rw [Parser.mark, haccept]
    simp only [hmark]
    refine (ensures_upTo_name c₁ '>').bind ?_
    rintro ⟨name, c₂⟩ ⟨heq, hname⟩
    refine (c₂.ensures_expect _).bind ?_
    rintro ⟨_, c₃⟩ hclose
    refine .ok ?_
    -- A slash in front of the name would have been taken.
    have hslash : name.head? ≠ some '/' := by
      intro hhead
      obtain ⟨rest, rfl⟩ : ∃ rest, name = '/' :: rest := by
        cases name with
        | nil => cases hhead
        | cons d rest => cases hhead; exact ⟨rest, rfl⟩
      have hbefore : c₁.Before ('/' :: (rest ++ c₂.rest)) := congrArg _ heq
      obtain ⟨c', htaken, -⟩ := hbefore.accept?_char (by decide)
      rw [htaken] at haccept
      cases haccept
    obtain ⟨w, hw, htook⟩ := hopen.trans (Cursor.Took.of_eq heq)
    obtain ⟨w', hw', htook⟩ := htook.trans hclose
    exact ⟨_, .opening w name w' hw hname hslash hw', by simpa using htook⟩
  | some taken =>
    obtain ⟨symbol, c₁'⟩ := taken
    have hmark : Parser.mark ['/'] c₁ = (true, c₁') := by rw [Parser.mark, haccept]
    simp only [hmark]
    obtain ⟨hmem, hslash⟩ := Cursor.accept?_eq_some haccept
    obtain rfl := List.mem_singleton.mp hmem
    refine (ensures_upTo_name c₁' '>').bind ?_
    rintro ⟨name, c₂⟩ ⟨heq, hname⟩
    refine (c₂.ensures_expect _).bind ?_
    rintro ⟨_, c₃⟩ hclose
    refine .ok ?_
    obtain ⟨w, hw, htook⟩ := hopen.trans hslash
    obtain ⟨w', hw', htook⟩ := htook.trans (Cursor.Took.of_eq heq)
    obtain ⟨w'', hw'', htook⟩ := htook.trans hclose
    exact ⟨_, .closing w w' name w'' hw hw' hname hw'', by simpa using htook⟩

theorem count_sound {t : Text} {n : UInt32} {position : Nat} (h : Parser.count position t = .ok n) :
    Count t n := by
  have hdigits : ∀ {digits : Text} {k : Nat}, Parser.digits? digits = some k →
      digits ≠ [] ∧ (∀ c ∈ digits, c.isDigit) ∧ Nat.ofDigitChars 10 digits 0 = k := by
    intro digits k hk
    unfold Parser.digits? at hk
    split at hk
    next hall =>
      simp only [Bool.and_eq_true, List.all_eq_true, Bool.not_eq_true', List.isEmpty_eq_false_iff]
        at hall
      refine ⟨hall.2, hall.1, ?_⟩
      rw [Nat.ofDigitChars_eq_foldl]
      exact Option.some.inj hk
    next => cases hk
  unfold Parser.count at h
  split at h
  next m hm =>
    cases h
    unfold Parser.count? at hm
    dsimp only at hm
    split at hm
    next k hk =>
      split at hm
      next hbound =>
        have hvalue : k = n.toNat := by
          rw [← Option.some.inj hm, UInt32.toNat_ofNat']
          exact (Nat.mod_eq_of_lt (Nat.lt_succ_of_le hbound)).symm
        split at hk
        next rest hplus =>
          obtain ⟨hne, hall, hfold⟩ := hdigits hk
          exact .mk t n ['+'] rest (.inr rfl) hne hall hplus (hfold.trans hvalue)
        next =>
          obtain ⟨hne, hall, hfold⟩ := hdigits hk
          exact .mk t n [] _ (.inl rfl) hne hall rfl (hfold.trans hvalue)
      next => cases hm
    next => cases hm
  next => cases h

theorem Count.append {t w : Text} {n : UInt32} (h : Count t n) (hw : Gap w) : Count (t ++ w) n := by
  obtain ⟨sign, digits, hsign, hne, hdigits, ht, hn⟩ := h
  refine .mk _ n sign digits hsign hne hdigits ?_ hn
  rw [← ht]
  exact Text.trim_append (w := []) rfl hw.allBlank t

theorem ensures_upperBound (min : UInt32) (c : Cursor) : Ensures (Parser.upperBound min c) fun x =>
    x = (some min, c) ∨ ∃ w t, Gap w ∧ c.Took (',' :: (w ++ t)) x.2 ∧
      (x.1 = none ∧ Text.allBlank t ∨ ∃ max, x.1 = some max ∧ Count t max) := by
  unfold Parser.upperBound
  split
  next => exact .ok (.inl rfl)
  next symbol atMax haccept =>
    obtain ⟨hmem, hcomma⟩ := Cursor.accept?_eq_some haccept
    obtain rfl := List.mem_singleton.mp hmem
    refine (atMax.ensures_upTo_append _).bind ?_
    rintro ⟨t, c₁⟩ ⟨heq, _⟩
    obtain ⟨w, hw, htook⟩ := hcomma.trans (Cursor.Took.of_eq heq)
    dsimp only
    split
    next hblank => exact .ok (.inr ⟨w, t, hw, by simpa using htook, .inl ⟨rfl, hblank⟩⟩)
    next =>
      cases hcount : Parser.count atMax.offset t with
      | error e => exact .error e
      | ok max =>
        exact .ok (.inr ⟨w, t, hw, by simpa using htook, .inr ⟨max, rfl, count_sound hcount⟩⟩)

/-- White space behind a bound is trimmed off it. -/
theorem ensures_bounds {c inside : Cursor} (hopen : c.Took ['{'] inside) (position : Nat) :
    Ensures (Parser.bounds position inside) (Shows Bounds c) := by
  unfold Parser.bounds
  refine (inside.ensures_upTo_append _).bind ?_
  rintro ⟨t, c₁⟩ ⟨heq, _⟩
  obtain ⟨w, hw, htook⟩ := hopen.trans (Cursor.Took.of_eq heq)
  dsimp only
  cases hcount : Parser.count inside.offset t with
  | error e => exact .error e
  | ok min =>
    have ht := count_sound hcount
    refine (ensures_upperBound min c₁).bind ?_
    rintro ⟨max, c₂⟩ hmax
    refine (c₂.ensures_expect _).bind ?_
    rintro ⟨_, c₃⟩ hclose
    dsimp only at hmax hclose ⊢
    split
    next => exact .error _
    next hvalid =>
      refine .ok ?_
      rcases hmax with heq | ⟨w₂, t', hw₂, hcomma, hmax⟩
      · cases heq
        obtain ⟨w', hw', htook⟩ := htook.trans hclose
        exact ⟨_, .exactly w (t ++ w') min hw (ht.append hw'), by simpa using htook⟩
      · obtain ⟨w', hw', htook⟩ := htook.trans hcomma
        obtain ⟨w₃, hw₃, htook⟩ := htook.trans hclose
        rcases hmax with ⟨rfl, hblank⟩ | ⟨max, rfl, ht'⟩
        · have hblank' : Text.allBlank (t' ++ w₃) := by
            rw [Text.allBlank, List.all_append, Bool.and_eq_true]
            exact ⟨hblank, hw₃.allBlank⟩
          exact ⟨_, .atLeast w (t ++ w') w₂ (t' ++ w₃) min hw (ht.append hw') hw₂ hblank',
            by simpa using htook⟩
        · have hle : min ≤ max := by simpa [Repeats.exceeded?] using hvalid
          exact ⟨_, .between w (t ++ w') w₂ (t' ++ w₃) min max hw (ht.append hw') hw₂
            (ht'.append hw₃) hle, by simpa using htook⟩

section Pieces

variable {α : Type} {P : Text → α → Prop} {t w : Text} {x : Option α}

theorem Behind.gap (h : Behind P t x) (hw : Gap w) :
    ∃ t' w', Behind P t' x ∧ Gap w' ∧ w ++ t = t' ++ w' := by
  cases h with
  | absent => exact ⟨[], w, .absent, hw, List.append_nil w⟩
  | present w₁ t x hw₁ ht =>
    exact ⟨_, [], .present (w ++ w₁) t x (hw.append hw₁) ht, .nil, by simp⟩

theorem Ahead.gap (h : Ahead P t x) (hw : Gap w) :
    ∃ w' t', Gap w' ∧ Ahead P t' x ∧ t ++ w = w' ++ t' := by
  cases h with
  | absent => exact ⟨w, [], hw, .absent, (List.append_nil w).symm⟩
  | present t w₁ x ht hw₁ =>
    exact ⟨[], _, .nil, .present t (w₁ ++ w) x ht (hw₁.append hw), by simp⟩

theorem Shows.behind {c : Cursor} {x : α × Cursor} (h : Shows P c x) :
    ∃ t, Behind P t (some x.1) ∧ c.Passed t x.2 := by
  obtain ⟨t, ht, w, w', hw, hw', heq⟩ := h
  exact ⟨_, .present w t x.1 hw ht, w', hw', by simpa using heq⟩

theorem behind_absent (c : Cursor) : ∃ t, Behind P t none ∧ c.Passed t c :=
  ⟨[], .absent, [], .nil, rfl⟩

end Pieces

theorem ensures_repeats (c : Cursor) : Ensures (Parser.repeats c) fun x =>
    ∃ t, Behind Bounds t x.1 ∧ c.Passed t x.2 := by
  have htook : ∀ {symbol s : Text} {c' : Cursor}, c.accept? .skip [symbol] = some (s, c') →
      c.Took symbol c' := fun haccept => by
    obtain ⟨hmem, htook⟩ := Cursor.accept?_eq_some haccept
    exact List.mem_singleton.mp hmem ▸ htook
  unfold Parser.repeats
  split
  next symbol inside haccept =>
    refine (ensures_bounds (htook haccept) _).bind ?_
    rintro ⟨r, c₁⟩ hr
    exact .ok hr.behind
  next =>
    split
    next symbol c' haccept =>
      exact .ok (Shows.behind (P := Bounds) (x := ((⟨0, none⟩ : Repeats), c'))
        ⟨['*'], Bounds.star, htook haccept⟩)
    next =>
      split
      next symbol c' haccept =>
        exact .ok (Shows.behind (P := Bounds) (x := ((⟨1, none⟩ : Repeats), c'))
          ⟨['+'], Bounds.plus, htook haccept⟩)
      next => exact .ok (behind_absent c)

theorem mark_sound (c : Cursor) : ∃ t optional, Behind Mark t optional ∧
    optional.isSome = (Parser.mark ['?'] c).1 ∧ c.Passed t (Parser.mark ['?'] c).2 := by
  unfold Parser.mark
  split
  next symbol c' haccept =>
    obtain ⟨hmem, htook⟩ := Cursor.accept?_eq_some haccept
    obtain rfl := List.mem_singleton.mp hmem
    obtain ⟨t, ht, hpassed⟩ := Shows.behind (x := ((), c')) ⟨_, Mark.mk, htook⟩
    exact ⟨t, some (), ht, rfl, hpassed⟩
  next =>
    obtain ⟨t, ht, hpassed⟩ := behind_absent (P := Mark) c
    exact ⟨t, none, ht, rfl, hpassed⟩

/-! ### Brackets and tags around them -/

theorem ensures_body (default : Text) (c : Cursor) :
    Ensures (Parser.body default c) (Shows (Body default) c) := by
  unfold Parser.body
  split
  next symbol inside haccept =>
    obtain ⟨hmem, hopen⟩ := Cursor.accept?_eq_some haccept
    obtain rfl := List.mem_singleton.mp hmem
    split
    next symbol c₁ haccept =>
      obtain ⟨hmem, hclose⟩ := Cursor.accept?_eq_some haccept
      obtain rfl := List.mem_singleton.mp hmem
      obtain ⟨w, hw, htook⟩ := hopen.trans hclose
      exact .ok ⟨_, .any w hw, htook⟩
    next =>
      refine (ensures_chainOf (ensures_operandWithin Parser.maxNesting) inside).bind ?_
      rintro ⟨e, c₁⟩ ⟨t, ht, htook⟩
      refine (c₁.ensures_expect _).bind ?_
      rintro ⟨_, c₂⟩ hclose
      refine .ok ?_
      obtain ⟨w, hw, htook⟩ := hopen.trans htook
      obtain ⟨w', hw', htook⟩ := htook.trans hclose
      exact ⟨_, .brackets w t w' e hw ht hw', by simpa using htook⟩
  next =>
    refine (c.ensures_expect_keep _).bind ?_
    rintro ⟨_, c₁⟩ hopen
    have hvalue : Ensures (Parser.quotedRest .skip c₁) fun x => Value x.1 ∧
        ∃ w, Gap w ∧ c₁.rest = x.1 ++ '"' :: (w ++ x.2.rest) := by
      unfold Parser.quotedRest
      refine c₁.ensures_upToUnescaped_append.bind ?_
      rintro ⟨value, c₂⟩ ⟨heq, hvalue, u, hu⟩
      refine (c₂.ensures_expect _).bind ?_
      rintro ⟨_, c₃⟩ hclose
      refine .ok ⟨hvalue, ?_⟩
      obtain ⟨w, hw, hrest⟩ := hclose.passed hu (by decide)
      dsimp only at heq hrest ⊢
      exact ⟨w, hw, by rw [heq, hrest]; rfl⟩
    refine hvalue.bind ?_
    rintro ⟨value, c₂⟩ ⟨hvalue, w, hw, heq⟩
    refine .ok ⟨_, .word value hvalue, ?_⟩
    dsimp only at hopen heq
    exact Cursor.Passed.took ⟨w, hw, by simp [hopen, heq]⟩

theorem ensures_leadingTag (c : Cursor) : Ensures (Parser.tagAt ['<'] c.skipLayout) fun x =>
    ∃ w t, Gap w ∧ Ahead Tag t x.1 ∧ c.rest = w ++ (t ++ x.2.rest) := by
  obtain ⟨w, hw, hstart⟩ := c.exists_skipLayout
  unfold Parser.tagAt
  split
  next =>
    refine (ensures_tag _).bind ?_
    rintro ⟨tag, c₁⟩ ⟨t, ht, w₁, w₂, hw₁, hw₂, heq⟩
    refine .ok ?_
    refine ⟨w ++ w₁, _, hw.append hw₁, .present t w₂ tag ht hw₂, ?_⟩
    dsimp only at heq ⊢
    rw [hstart, heq]
    simp
  next => exact .ok ⟨w, [], hw, .absent, hstart⟩

theorem Tag.two_le_length {t : Text} {tag : XmlTag} (h : Tag t tag) : 2 ≤ t.length := by
  cases h <;> simp only [List.length_cons, List.length_append, List.length_nil] <;> omega

theorem ensures_trailingTag (c : Cursor) : Ensures (Parser.tagAt ['<', '/'] c.skipLayout) fun x =>
    (∃ t, Behind TrailingTag t x.1 ∧ c.Passed t x.2) ∧
      (x.1 = none → ¬ ['<', '/'] <+: x.2.rest.dropWhile isLayout) := by
  obtain ⟨w, hw, hstart⟩ := c.exists_skipLayout
  unfold Parser.tagAt
  split
  next hsees =>
    rw [Cursor.sees, List.isPrefixOf_iff_prefix] at hsees
    obtain ⟨u, hu⟩ := hsees
    refine (ensures_tag _).bind ?_
    rintro ⟨tag, c₁⟩ ⟨t, ht, htook⟩
    refine .ok ⟨?_, by simp⟩
    obtain ⟨w', hw', heq⟩ := htook.passed hu.symm (by decide)
    have hprefix : ['<', '/'] <+: t := List.prefix_of_prefix_length_le ⟨u, hu⟩
      ⟨_, heq.symm⟩ ht.two_le_length
    exact ⟨_, .present w t tag hw ⟨ht, hprefix⟩, w', hw', by rw [hstart, heq]; simp⟩
  next hsees =>
    rw [Cursor.sees, List.isPrefixOf_iff_prefix] at hsees
    refine .ok ⟨⟨[], .absent, w, hw, hstart⟩, fun _ => ?_⟩
    have hidem : c.skipLayout.rest.dropWhile isLayout = c.skipLayout.rest :=
      List.dropWhile_idempotent isLayout c.rest
    rwa [hidem]

theorem ensures_token (default : Text) (c : Cursor) : Ensures (Parser.token default c) fun x =>
    Shows (Token default) c x ∧
      (x.1.trailingTag = none → ¬ ['<', '/'] <+: x.2.rest.dropWhile isLayout) := by
  unfold Parser.token
  refine (ensures_leadingTag c).bind ?_
  rintro ⟨leading, c₁⟩ ⟨w, ahead, hw, hahead, h⟩
  refine (ensures_body default c₁).bind ?_
  rintro ⟨e, c₂⟩ ⟨body, hbody, w₁, w₂, hw₁, hw₂, h₁⟩
  refine (ensures_repeats c₂).bind ?_
  rintro ⟨r, c₃⟩ ⟨bounds, hbounds, w₃, hw₃, h₂⟩
  obtain ⟨mark, optional, hmark, hoptional, w₄, hw₄, h₃⟩ := mark_sound c₃
  dsimp only at h h₁ h₂ h₃ ⊢
  generalize Parser.mark ['?'] c₃ = marked at hoptional h₃ ⊢
  obtain ⟨present, c₄⟩ := marked
  refine (ensures_trailingTag c₄).bind ?_
  rintro ⟨trailing, c₅⟩ ⟨hbehind, hclosing⟩
  refine .ok ⟨?_, hclosing⟩
  obtain ⟨behind, hbehind, w₅, hw₅, h₄⟩ := hbehind
  dsimp only at hoptional h₃ h₄ ⊢
  -- White space goes over from each piece to the next one that is there.
  obtain ⟨w₁', ahead', hw₁', hahead', heq₁⟩ := hahead.gap hw₁
  obtain ⟨bounds', w₂', hbounds', hw₂', heq₂⟩ := hbounds.gap hw₂
  obtain ⟨mark', w₃', hmark', hw₃', heq₃⟩ := hmark.gap (hw₂'.append hw₃)
  obtain ⟨behind', w₄', hbehind', hw₄', heq₄⟩ := hbehind.gap (hw₃'.append hw₄)
  subst hoptional
  refine ⟨_, .mk ahead' body bounds' mark' behind' leading trailing e r optional hahead' hbody
    hbounds' hmark' hbehind', w ++ w₁', w₄' ++ w₅, hw.append hw₁', hw₄'.append hw₅, ?_⟩
  calc c.rest = w ++ ((ahead ++ w₁) ++ (body ++ ((w₂ ++ bounds) ++ (w₃ ++ c₃.rest)))) := by
        simp [h, h₁, h₂]
    _ = w ++ w₁' ++ (ahead' ++ (body ++ (bounds' ++ (((w₂' ++ w₃) ++ mark) ++ (w₄ ++ c₄.rest))))) := by
        simp [heq₁, heq₂, h₃]
    _ = w ++ w₁' ++ (ahead' ++ (body ++ (bounds' ++ (mark' ++ (((w₃' ++ w₄) ++ behind) ++
          (w₅ ++ c₅.rest)))))) := by
        rw [heq₃]
        simp [h₄]
    _ = _ := by
        rw [heq₄]
        simp

/-! ### Queries -/

theorem ensures_within (c : Cursor) : Ensures (Parser.within c) (Shows Within c) := by
  unfold Parser.within
  refine (c.ensures_expect _).bind ?_
  rintro ⟨_, c₁⟩ hword
  refine (c₁.ensures_expect _).bind ?_
  rintro ⟨_, c₂⟩ hopen
  refine (ensures_upTo_name c₂ '/').bind ?_
  rintro ⟨name, c₃⟩ ⟨heq, hname⟩
  refine (c₃.ensures_expect _).bind ?_
  rintro ⟨_, c₄⟩ hslash
  refine (c₄.ensures_expect _).bind ?_
  rintro ⟨_, c₅⟩ hclose
  refine .ok ?_
  obtain ⟨w, hw, htook⟩ := hword.trans hopen
  obtain ⟨w', hw', htook⟩ := htook.trans (Cursor.Took.of_eq heq)
  obtain ⟨v, hv, htook⟩ := htook.trans hslash
  obtain ⟨v', hv', htook⟩ := htook.trans hclose
  exact ⟨_, .mk w w' name v v' hw hw' hname hv hv', by simpa using htook⟩

theorem Items.gap {default text w : Text} {items : List Parser.Item} (h : Items default text items)
    (hw : Gap w) : Items default (w ++ text) items := by
  cases h with
  | nil w' hw' => exact .nil _ (hw.append hw')
  | token w' t rest x items hw' ht hbehind hrest =>
    rw [← List.append_assoc]
    exact .token _ t rest x items (hw.append hw') ht hbehind hrest
  | within w' t rest name items hw' ht hrest =>
    rw [← List.append_assoc]
    exact .within _ t rest name items (hw.append hw') ht hrest

/-- A piece that stands for an item, whatever items follow it. -/
def Heads (default : Text) (c : Cursor) (x : Parser.Item × Cursor) : Prop :=
  ∃ t, t ≠ [] ∧ c.Took t x.2 ∧ ∀ w rest items, Gap w →
    rest.dropWhile isLayout = x.2.rest.dropWhile isLayout → Items default rest items →
    Items default (w ++ (t ++ rest)) (x.1 :: items)

theorem ensures_tokenItem (default : Text) (c : Cursor) :
    Ensures (Parser.token default c) fun x => Heads default c (.token x.1, x.2) := by
  intro x hx
  obtain ⟨⟨t, ht, htook⟩, hbehind⟩ := ensures_token default c x hx
  refine ⟨t, ?_, htook, fun w rest items hw hrest hitems => .token w t rest x.1 items hw ht ?_ hitems⟩
  · obtain ⟨d, u, rfl, -⟩ := ht.exists_eq
    exact List.cons_ne_nil d u
  · rwa [hrest]

theorem ensures_item (default : Text) (c : Cursor) :
    Ensures (Parser.item default c) (Heads default c) := by
  unfold Parser.item
  split
  next =>
    refine (ensures_within c).bind ?_
    rintro ⟨name, c'⟩ ⟨t, ht, htook⟩
    refine .ok ⟨t, ?_, htook, ?_⟩
    · obtain ⟨u, rfl⟩ := ht.exists_eq
      simp [Parser.withinSymbol]
    · exact fun w rest items hw _ hitems => .within w t rest name items hw ht hitems
  next =>
    refine (ensures_tokenItem default c).bind ?_
    rintro ⟨x, c'⟩ hx
    exact .ok hx

theorem Heads.items {default : Text} {c : Cursor} {x : Parser.Item × Cursor}
    {items : List Parser.Item} (h : Heads default c.skipLayout x)
    (hitems : Items default x.2.rest items) : Items default c.rest (x.1 :: items) := by
  obtain ⟨t, -, htook, hcons⟩ := h
  obtain ⟨w, w', hw, hw', heq⟩ := Cursor.took_of_skipLayout htook
  rw [heq]
  exact hcons w _ items hw (hw'.dropWhile _) (hitems.gap hw')

/-- Each item takes up room of its own, so that the turns last to the end. -/
theorem ensures_items (default : Text) (turns : Nat) (c : Cursor) (hturns : c.rest.length ≤ turns) :
    Ensures (Parser.items default turns c) (Items default c.rest) := by
  induction turns generalizing c with
  | zero =>
    rw [List.length_eq_zero_iff.mp (Nat.le_zero.mp hturns)]
    exact .ok (.nil [] .nil)
  | succ turns ih =>
    obtain ⟨w, hw, hstart⟩ := c.exists_skipLayout
    unfold Parser.items
    dsimp only
    split
    next hend =>
      rw [Cursor.atEnd, List.isEmpty_iff] at hend
      rw [hend, List.append_nil] at hstart
      exact .ok (hstart ▸ .nil w hw)
    next =>
      refine (ensures_item default c.skipLayout).bind ?_
      rintro ⟨first, c'⟩ hfirst
      have hshort : c'.rest.length ≤ turns := by
        obtain ⟨t, hne, ⟨w₁, w₂, -, -, heq⟩, -⟩ := hfirst
        have hpos := List.length_pos_of_ne_nil hne
        rw [hstart, heq] at hturns
        simp only [List.length_append] at hturns
        omega
      exact (ih c' hshort).bind fun rest hrest => .ok (hfirst.items hrest)

/-- What is read is in the grammar. -/
theorem ensures_parse (default text : Text) : Ensures (CorpusQuery.Query.parse default text)
    fun q? => (q? = none → Gap text) ∧ ∀ q, q? = some q → Query default text q := by
  obtain ⟨w, hw, hstart⟩ := (Cursor.start text).exists_skipLayout
  have htext : (Cursor.start text).rest = text := rfl
  unfold CorpusQuery.Query.parse
  dsimp only
  split
  next hend =>
    rw [Cursor.atEnd, List.isEmpty_iff] at hend
    rw [hend, List.append_nil, htext] at hstart
    exact .ok ⟨fun _ => hstart ▸ hw, by simp⟩
  next =>
    refine (ensures_tokenItem default _).bind ?_
    rintro ⟨first, c⟩ hfirst
    refine (ensures_items default _ c le_rfl).bind fun items hitems => .ok ⟨by simp, ?_⟩
    rintro q ⟨⟩
    exact .mk text first items (htext ▸ hfirst.items hitems)

end Grammar

namespace Query

/-- Reading accepts the grammar and nothing else, and no text stands for two queries. White space
alone holds no query; every other text outside the grammar is an error. -/
theorem parse_iff_grammar (default text : Text) :
    (parse default text = .ok none ↔ Gap text) ∧
      (∀ q, parse default text = .ok (some q) ↔ Grammar.Query default text q) ∧
      {q | Grammar.Query default text q}.Subsingleton ∧
      ((∃ e, parse default text = .error e) ↔
        ¬ (Gap text ∨ ∃ q, Grammar.Query default text q)) := by
  have hnone : parse default text = .ok none ↔ Gap text :=
    ⟨fun h => (Grammar.ensures_parse default text _ h).1 rfl, fun h => h.parse_eq_ok default⟩
  have hsome : ∀ q, parse default text = .ok (some q) ↔ Grammar.Query default text q := fun q =>
    ⟨fun h => (Grammar.ensures_parse default text _ h).2 q rfl, fun h => h.parse_eq_ok⟩
  refine ⟨hnone, hsome, fun q hq q' hq' => ?_, ?_⟩
  · have heq := ((hsome q).mpr hq).symm.trans ((hsome q').mpr hq')
    simpa using heq
  · rw [← hnone]
    simp only [← hsome]
    cases parse default text with
    | error e => simp
    | ok q? => cases q? <;> simp

end Query

end CorpusQuery
