import CorpusQuery.Check
import CorpusQuery.Proofs.Grammar.Sound

/-!
Which attribute a word in quotes constrains is left to the settings. Two readings of one text with
different defaults stay side by side: they fail alike, or the queries that they give differ in the
words and in nothing else.
-/

namespace CorpusQuery

namespace Grammar

/-- Behind its tag, if it has one, a token begins with a bracket. -/
def InBrackets (t : Text) : Prop :=
  ∃ ahead leading rest, Ahead Tag ahead leading ∧ t = ahead ++ '[' :: rest

/-- Behind its tag, if it has one, a token begins with a quote. -/
def InQuotes (t : Text) : Prop :=
  ∃ ahead leading rest, Ahead Tag ahead leading ∧ t = ahead ++ '"' :: rest

/-- One token under two defaults. A word in quotes constrains the one attribute or the other; what
is written in brackets comes to the same. -/
inductive TwinTokens (d₁ d₂ : Text) : Text → CorpusQuery.Token → CorpusQuery.Token → Prop where
  | brackets (t : Text) (x : CorpusQuery.Token) (ht : InBrackets t) : TwinTokens d₁ d₂ t x x
  | word (t value : Text) (x : CorpusQuery.Token) (ht : InQuotes t) :
    TwinTokens d₁ d₂ t { x with expression := some (.constraint d₁ .equal value) }
      { x with expression := some (.constraint d₂ .equal value) }

/-- The same pieces of a text, as they are read with the one default and with the other. -/
inductive TwinItems (d₁ d₂ : Text) : Text → List Parser.Item → List Parser.Item → Prop where
  | nil (w : Text) (hw : Gap w) : TwinItems d₁ d₂ w [] []
  | token (w t rest : Text) (x y : CorpusQuery.Token) (xs ys : List Parser.Item) (hw : Gap w)
      (hx : Token d₁ t x) (hy : Token d₂ t y) (htwins : TwinTokens d₁ d₂ t x y)
      (hrest : TwinItems d₁ d₂ rest xs ys) :
    TwinItems d₁ d₂ (w ++ (t ++ rest)) (.token x :: xs) (.token y :: ys)
  | within (w t rest name : Text) (xs ys : List Parser.Item) (hw : Gap w) (ht : Within t name)
      (hrest : TwinItems d₁ d₂ rest xs ys) :
    TwinItems d₁ d₂ (w ++ (t ++ rest)) (.within name :: xs) (.within name :: ys)

/-- Two queries that one text holds, up to the attribute of its words in quotes. -/
inductive TwinQueries (d₁ d₂ : Text) : Text → CorpusQuery.Query → CorpusQuery.Query → Prop where
  | mk (text : Text) (x y : CorpusQuery.Token) (xs ys : List Parser.Item)
      (h : TwinItems d₁ d₂ text (.token x :: xs) (.token y :: ys)) :
    TwinQueries d₁ d₂ text (.ofItems x xs) (.ofItems y ys)

/-! ### What is written has a reading with any default -/

variable {d₁ t text : Text} {xs : List Parser.Item} (d₂ : Text)

theorem Token.exists_twin {x : CorpusQuery.Token} (h : Token d₁ t x) :
    ∃ y, TwinTokens d₁ d₂ t x y ∧ Token d₂ t y ∧ y.trailingTag = x.trailingTag := by
  obtain ⟨ahead, body, bounds, mark, behind, leading, trailing, e, r, optional, hahead, hbody,
    hbounds, hmark, hbehind⟩ := h
  -- Only the rule for words mentions the default.
  cases hbody with
  | any w hw =>
    have hy : Token d₂ _ _ := .mk ahead _ bounds mark behind leading trailing none r optional hahead
      (.any w hw) hbounds hmark hbehind
    exact ⟨_, .brackets _ _ ⟨ahead, leading, _, hahead, rfl⟩, hy, rfl⟩
  | brackets w t w' e hw ht hw' =>
    have hy : Token d₂ _ _ := .mk ahead _ bounds mark behind leading trailing (some e) r optional
      hahead (.brackets w t w' e hw ht hw') hbounds hmark hbehind
    exact ⟨_, .brackets _ _ ⟨ahead, leading, _, hahead, rfl⟩, hy, rfl⟩
  | word value hvalue =>
    have hy : Token d₂ _ _ := .mk ahead _ bounds mark behind leading trailing _ r optional hahead
      (.word value hvalue) hbounds hmark hbehind
    exact ⟨_, .word _ value ⟨leading, trailing, none, optional.isSome, r⟩
      ⟨ahead, leading, _, hahead, rfl⟩, hy, rfl⟩

theorem Items.exists_twin (h : Items d₁ text xs) :
    ∃ ys, TwinItems d₁ d₂ text xs ys ∧ Items d₂ text ys := by
  induction h with
  | nil w hw => exact ⟨[], .nil w hw, .nil w hw⟩
  | token w t rest x xs hw ht hbehind hrest ih =>
    obtain ⟨ys, htwins, hys⟩ := ih
    obtain ⟨y, htwin, hy, htrailing⟩ := ht.exists_twin d₂
    exact ⟨.token y :: ys, .token w t rest x y xs ys hw ht hy htwin htwins,
      .token w t rest y ys hw hy (htrailing ▸ hbehind) hys⟩
  | within w t rest name xs hw ht hrest ih =>
    obtain ⟨ys, htwins, hys⟩ := ih
    exact ⟨.within name :: ys, .within w t rest name xs ys hw ht htwins,
      .within w t rest name ys hw ht hys⟩

theorem Query.exists_twin {q : CorpusQuery.Query} (h : Query d₁ text q) :
    ∃ q', TwinQueries d₁ d₂ text q q' ∧ Query d₂ text q' := by
  obtain ⟨x, xs, hitems⟩ := h
  obtain ⟨ys, htwins, hys⟩ := hitems.exists_twin d₂
  cases htwins with
  | token w t rest _ y _ ys hw hx hy htwin hrest =>
    exact ⟨_, .mk _ x y xs ys (.token w t rest x y xs ys hw hx hy htwin hrest), .mk _ y ys hys⟩

end Grammar

/-! ### What is not written fails alike -/

/-- Both fail with the same error, or both give something, and that is related. -/
inductive Alike {ε α β : Type} (R : α → β → Prop) : Except ε α → Except ε β → Prop where
  | error (e : ε) : Alike R (.error e) (.error e)
  | ok (x : α) (y : β) (h : R x y) : Alike R (.ok x) (.ok y)

namespace Alike

variable {ε α β γ δ : Type} {R : α → β → Prop} {S : γ → δ → Prop}

theorem refl {R : α → α → Prop} (hR : ∀ x, R x x) (r : Except ε α) : Alike R r r := by
  cases r with
  | error e => exact .error e
  | ok x => exact .ok x x (hR x)

theorem bind {r : Except ε α} {s : Except ε β} {f : α → Except ε γ} {g : β → Except ε δ}
    (h : Alike R r s) (hfg : ∀ x y, R x y → Alike S (f x) (g y)) : Alike S (r >>= f) (s >>= g) := by
  cases h with
  | error e => exact .error e
  | ok x y hxy => exact hfg x y hxy

end Alike

namespace Parser

variable (d₁ d₂ : Text)

/-- Both readings go on from the same place. -/
abbrev SamePlace {α : Type} (x y : α × Cursor) : Prop := x.2 = y.2

theorem alike_body (c : Cursor) : Alike SamePlace (body d₁ c) (body d₂ c) := by
  unfold body
  split
  -- Only behind a quote does the default come in, and it moves no cursor.
  next => exact .refl (R := SamePlace) (fun _ => rfl) _
  next =>
    refine .bind (.refl (R := Eq) (fun _ => rfl) _) ?_
    rintro ⟨_, c⟩ _ rfl
    refine .bind (.refl (R := Eq) (fun _ => rfl) _) ?_
    rintro ⟨word, c⟩ _ rfl
    exact .ok _ _ rfl

theorem alike_token (c : Cursor) : Alike SamePlace (token d₁ c) (token d₂ c) := by
  unfold token
  refine .bind (.refl (R := Eq) (fun _ => rfl) _) ?_
  rintro ⟨leading, c⟩ _ rfl
  refine .bind (alike_body d₁ d₂ c) ?_
  rintro ⟨e₁, c⟩ ⟨e₂, _⟩ rfl
  refine .bind (.refl (R := Eq) (fun _ => rfl) _) ?_
  rintro ⟨r, c⟩ _ rfl
  refine .bind (.refl (R := Eq) (fun _ => rfl) _) ?_
  rintro ⟨trailing, c⟩ _ rfl
  exact .ok _ _ rfl

theorem alike_item (c : Cursor) : Alike SamePlace (item d₁ c) (item d₂ c) := by
  unfold item
  split
  next => exact .refl (R := SamePlace) (fun _ => rfl) _
  next =>
    refine .bind (alike_token d₁ d₂ c) ?_
    rintro ⟨x, c⟩ ⟨y, _⟩ rfl
    exact .ok _ _ rfl

theorem alike_items (turns : Nat) (c : Cursor) :
    Alike (fun _ _ => True) (items d₁ turns c) (items d₂ turns c) := by
  induction turns generalizing c with
  | zero => exact .ok _ _ trivial
  | succ turns ih =>
    unfold items
    dsimp only
    split
    next => exact .ok _ _ trivial
    next =>
      refine .bind (alike_item d₁ d₂ c.skipLayout) ?_
      rintro ⟨x, c⟩ ⟨y, _⟩ rfl
      exact .bind (ih c) fun xs ys _ => .ok _ _ trivial

end Parser

namespace Query

theorem alike_parse (d₁ d₂ text : Text) :
    Alike (fun q q' => q.isSome = q'.isSome) (parse d₁ text) (parse d₂ text) := by
  unfold parse
  dsimp only
  split
  next => exact .ok _ _ rfl
  next =>
    refine .bind (Parser.alike_token d₁ d₂ _) ?_
    rintro ⟨x, c⟩ ⟨y, _⟩ rfl
    exact .bind (Parser.alike_items d₁ d₂ _ c) fun xs ys _ => .ok _ _ rfl

/-- Whatever the default attribute, a text holds no query, or fails with the same error, or holds
the same query up to the attribute of its words in quotes. So what a check without settings says of
a text holds with any settings. -/
theorem parse_twins (d₁ d₂ text : Text) :
    ((parse d₁ text = .ok none ∧ parse d₂ text = .ok none) ∨
      (∃ e, parse d₁ text = .error e ∧ parse d₂ text = .error e) ∨
      ∃ q₁ q₂, parse d₁ text = .ok (some q₁) ∧ parse d₂ text = .ok (some q₂) ∧
        Grammar.TwinQueries d₁ d₂ text q₁ q₂) ∧
      ∀ s : Settings,
        CheckMode.validity.run false s text = check .validity false .standard text := by
  constructor
  · have halike := alike_parse d₁ d₂ text
    generalize h₁ : parse d₁ text = r₁, h₂ : parse d₂ text = r₂ at halike
    cases halike with
    | error e => exact .inr (.inl ⟨e, rfl, rfl⟩)
    | ok q₁? q₂? hsome =>
      cases q₁? with
      | none =>
        obtain rfl : q₂? = none := by simpa using hsome.symm
        exact .inl ⟨rfl, rfl⟩
      | some q₁ =>
        -- What the text is by the grammar also says what the other reading gives.
        obtain ⟨q₂, htwins, hq₂⟩ := ((Grammar.ensures_parse d₁ text _ h₁).2 q₁ rfl).exists_twin d₂
        rw [hq₂.parse_eq_ok] at h₂
        exact .inr (.inr ⟨q₁, q₂, rfl, h₂.symm, htwins⟩)
  · intro s
    have halike := alike_parse s.defaultAttribute Settings.standard.defaultAttribute text
    simp only [check, SettingsSource.load, CheckMode.run, CheckMode.inspect]
    generalize parse s.defaultAttribute text = r₁,
      parse Settings.standard.defaultAttribute text = r₂ at halike
    cases halike with
    | error e => rfl
    | ok q₁? q₂? hsome =>
      cases q₁? with
      | none =>
        obtain rfl : q₂? = none := by simpa using hsome.symm
        rfl
      | some q₁ =>
        obtain ⟨q₂, rfl⟩ := Option.isSome_iff_exists.mp hsome.symm
        rfl

end Query

end CorpusQuery
