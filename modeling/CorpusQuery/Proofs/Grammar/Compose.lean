import CorpusQuery.Proofs.Grammar.Sound

/-!
Queries one behind the other. Nothing that is read of a query hangs on what follows it, but for a
closing tag, which belongs to the token in front; so a text that goes on with another query holds
the tokens of both.
-/

namespace CorpusQuery

namespace Grammar

/-! ### What follows a token is not taken for its closing tag -/

theorem Body.two_le_length {default t : Text} {e : Option Expr} (h : Body default t e) :
    2 ≤ t.length := by
  cases h <;> simp only [List.length_cons, List.length_append, List.length_nil] <;> omega

theorem Token.two_le_length {default t : Text} {x : CorpusQuery.Token} (h : Token default t x) :
    2 ≤ t.length := by
  obtain ⟨ahead, body, bounds, mark, behind, leading, trailing, e, r, optional, -, hbody, -, -, -⟩ := h
  have hlength := hbody.two_le_length
  simp only [List.length_append]
  omega

namespace Items

variable {default t u : Text} {items items' : List Parser.Item}

/-- An item is long enough to show whether it begins with a closing tag. -/
theorem two_le_length (h : Items default t items) (ht : t.dropWhile isLayout ≠ []) :
    2 ≤ (t.dropWhile isLayout).length := by
  cases h with
  | nil w hw =>
    have hnil : t.dropWhile isLayout = [] := by simpa using hw.dropWhile []
    exact absurd hnil ht
  | token w t rest x items hw hx hbehind hrest =>
    obtain ⟨d, u, heq, hblank, -⟩ := hx.exists_eq
    have hsolid : (t ++ rest).dropWhile isLayout = t ++ rest := by
      rw [heq, List.cons_append]
      exact List.dropWhile_cons_of_neg (by simp [Text.isLayout_eq_false hblank])
    have hlength := hx.two_le_length
    rw [hw.dropWhile, hsolid, List.length_append]
    omega
  | within w t rest name items hw hname hrest =>
    obtain ⟨u, rfl⟩ := hname.exists_eq
    have hsolid : (Parser.withinSymbol ++ u ++ rest).dropWhile isLayout =
        Parser.withinSymbol ++ u ++ rest := rfl
    rw [hw.dropWhile, hsolid]
    show 2 ≤ (Parser.withinSymbol ++ u ++ rest).length
    simp only [Parser.withinSymbol, List.length_append, List.length_cons]
    omega

theorem not_closing_append (h : Items default t items)
    (ht : ¬ ['<', '/'] <+: t.dropWhile isLayout) (hu : ¬ ['<', '/'] <+: u.dropWhile isLayout) :
    ¬ ['<', '/'] <+: (t ++ u).dropWhile isLayout := by
  rw [List.dropWhile_append]
  split
  next => exact hu
  next hne =>
    -- Two characters of the first text are there to be looked at, so the second one does not count.
    have hlength : 2 ≤ (t.dropWhile isLayout).length := h.two_le_length (by simpa using hne)
    exact fun hprefix =>
      ht (List.prefix_of_prefix_length_le hprefix (List.prefix_append _ u) hlength)

/-- Items may follow items. -/
theorem append (h : Items default t items) (h' : Items default u items')
    (hu : ¬ ['<', '/'] <+: u.dropWhile isLayout) : Items default (t ++ u) (items ++ items') := by
  induction h with
  | nil w hw => exact h'.gap hw
  | token w t rest x items hw ht hbehind hrest ih =>
    rw [List.append_assoc, List.append_assoc]
    exact .token w t (rest ++ u) x (items ++ items') hw ht
      (fun hnone => hrest.not_closing_append (hbehind hnone) hu) ih
  | within w t rest name items hw ht hrest ih =>
    rw [List.append_assoc, List.append_assoc]
    exact .within w t (rest ++ u) name (items ++ items') hw ht ih

end Items

end Grammar

namespace Query

/-- The last `within` clause of both counts. -/
theorem ofItems_append (first next : Token) (items items' : List Parser.Item) :
    ofItems first (items ++ .token next :: items') =
      ⟨(ofItems first items).tokens ++ (ofItems next items').tokens,
        (ofItems next items').within.or (ofItems first items).within⟩ := by
  simp only [ofItems, List.filterMap_append, List.filterMap_cons, Parser.Item.token?,
    Parser.Item.within?, List.getLast?_append, List.cons_append]

/-- A text that holds a query may be followed by another such text, which does not begin with a
closing tag: the tokens of both follow each other, and the last `within` clause counts. -/
theorem parse_append {default a b w : Text} {p q : Query} (hp : parse default a = .ok (some p))
    (hq : parse default b = .ok (some q)) (hw : ∀ c ∈ w, isLayout c)
    (hclosing : ¬ ['<', '/'] <+: b.dropWhile isLayout) :
    parse default (a ++ (w ++ b)) =
      .ok (some ⟨p.tokens ++ q.tokens, q.within.or p.within⟩) := by
  -- What was read is shown by the grammar, and what the grammar shows is read.
  obtain ⟨first, items, hitems⟩ := (Grammar.ensures_parse default a _ hp).2 p rfl
  obtain ⟨next, items', hitems'⟩ := (Grammar.ensures_parse default b _ hq).2 q rfl
  have hgap : Grammar.Gap w := hw
  have hboth := hitems.append (hitems'.gap hgap) (by rwa [hgap.dropWhile])
  rw [← ofItems_append]
  exact (Grammar.Query.mk _ first (items ++ .token next :: items') hboth).parse_eq_ok

/-- The texts `"a"? within <s/>` and `<s>[pos!="b"]`, on lines of their own. -/
theorem parse_append_anchored :
    let a : Text := ['"', 'a', '"', '?', ' ', 'w', 'i', 't', 'h', 'i', 'n', ' ', '<', 's', '/', '>']
    let b : Text := ['<', 's', '>', '[', 'p', 'o', 's', '!', '=', '"', 'b', '"', ']']
    let p : Query := ⟨[⟨none, none, some (.constraint ['w'] .equal ['a']), true, none⟩], some ['s']⟩
    let q : Query := ⟨[⟨some ⟨['s'], false⟩, none, some (.constraint ['p', 'o', 's'] .notEqual ['b']),
      false, none⟩], none⟩
    parse ['w'] a = .ok (some p) ∧ parse ['w'] b = .ok (some q) ∧ isLayout '\n' ∧
      ¬ ['<', '/'] <+: b.dropWhile isLayout ∧
      parse ['w'] (a ++ (['\n'] ++ b)) = .ok (some ⟨p.tokens ++ q.tokens, some ['s']⟩) := by
  intro a b p q
  have hp : parse ['w'] a = .ok (some p) := rfl
  have hq : parse ['w'] b = .ok (some q) := rfl
  have hclosing : ¬ ['<', '/'] <+: b.dropWhile isLayout := by decide
  have hw : ∀ c ∈ ['\n'], isLayout c := by simp [isLayout]
  exact ⟨hp, hq, rfl, hclosing, parse_append hp hq hw hclosing⟩

end Query

end CorpusQuery
