import CorpusQuery.Proofs.Grammar.Sound
import CorpusQuery.Proofs.Query.Parse

/-!
What is read is well formed: names, values, bounds and tags are such as the grammar has them, and
operators follow each other to the right no further than parentheses may nest.
-/

namespace CorpusQuery

namespace Expr

/-- The expression and all that it is made of. -/
def parts : Expr → List Expr
  | constraint name equality value => [constraint name equality value]
  | binary operator left right => binary operator left right :: (left.parts ++ right.parts)

/-- The number of operators in a row, each but the first in the right operand of the one before. -/
def rightChain : Expr → Nat
  | constraint _ _ _ => 0
  | binary _ _ right => right.rightChain + 1

/-- What stands between brackets. A chain of operators to the right is no longer than `limit`,
wherever it begins. -/
structure WellFormed (limit : Nat) (e : Expr) : Prop where
  constraints : ∀ name equality value, constraint name equality value ∈ e.parts →
    name.Readable ∧ Quotes.Guarded value
  chains : ∀ part ∈ e.parts, part.rightChain ≤ limit

end Expr

/-- The name of a tag ends at white space or at the bracket. -/
def XmlTag.WellFormed (tag : XmlTag) : Prop := ∀ c ∈ tag.name, isLayout c = false ∧ c ≠ '>'

structure Token.WellFormed (default : Text) (t : Token) : Prop where
  leadingTag : ∀ tag ∈ t.leadingTag, tag.WellFormed
  trailingTag : ∀ tag ∈ t.trailingTag, tag.WellFormed ∧ tag.closing
  /-- A word in quotes stands by itself and goes by the name `default`, whichever that is. -/
  expression : ∀ e ∈ t.expression, e.WellFormed (Parser.maxNesting + 1) ∨
    ∃ value, e = .constraint default .equal value ∧ Quotes.Guarded value
  repeats : ∀ r ∈ t.repeats, ∀ max ∈ r.max, r.min ≤ max

structure Query.WellFormed (default : Text) (q : Query) : Prop where
  tokens_ne : q.tokens ≠ []
  tokens : ∀ t ∈ q.tokens, t.WellFormed default
  within : ∀ name ∈ q.within, name.ReadableElement

/-! ### Names -/

theorem Text.mem_of_mem_trim {t : Text} {c : Char} (h : c ∈ trim t) : c ∈ t := by
  have hstart : ∀ {u : Text}, c ∈ trimStart u → c ∈ u := fun hmem =>
    (List.dropWhile_sublist isBlank).subset hmem
  refine hstart ?_
  rw [trim, trimEnd, List.mem_reverse] at h
  exact List.mem_reverse.mp (hstart h)

theorem Parser.readable_of_isName {name : Text} (hname : isName name) (hequals : '=' ∉ name)
    (hbang : '!' ∉ name) : name.Readable := by
  simp only [isName, Bool.and_eq_true, Bool.not_eq_true', List.isEmpty_eq_false_iff,
    List.all_eq_true] at hname
  refine ⟨hname.1, fun d hd => ?_⟩
  have hd' := hname.2 d hd
  simp only [List.mem_cons, not_or]
  refine ⟨hd'.1, ?_, ?_, by simpa using hd'.2⟩
  · rintro rfl
    exact hequals hd
  · rintro rfl
    exact hbang hd

/-! ### Expressions -/

namespace Expr

theorem self_mem_parts (e : Expr) : e ∈ e.parts := by
  cases e <;> exact List.mem_cons_self

namespace WellFormed

variable {limit limit' : Nat} {operator : Connective} {left right e : Expr}

theorem mono (h : e.WellFormed limit) (hle : limit ≤ limit') : e.WellFormed limit' :=
  ⟨h.constraints, fun part hpart => (h.chains part hpart).trans hle⟩

/-- An operand on the right makes a chain through it longer by one; one on the left does not. -/
theorem binary (hleft : left.WellFormed (limit + 1)) (hright : right.WellFormed limit) :
    (Expr.binary operator left right).WellFormed (limit + 1) where
  constraints name equality value hmem := by
    rw [parts, List.mem_cons, List.mem_append] at hmem
    rcases hmem with heq | hmem | hmem
    · cases heq
    · exact hleft.constraints name equality value hmem
    · exact hright.constraints name equality value hmem
  chains part hmem := by
    rw [parts, List.mem_cons, List.mem_append] at hmem
    rcases hmem with rfl | hmem | hmem
    · exact Nat.succ_le_succ (hright.chains right right.self_mem_parts)
    · exact hleft.chains part hmem
    · exact (hright.chains part hmem).trans (Nat.le_succ limit)

theorem of_binary (h : (Expr.binary operator left right).WellFormed limit) :
    left.WellFormed limit ∧ right.WellFormed limit := by
  have hleft : ∀ part ∈ left.parts, part ∈ (Expr.binary operator left right).parts :=
    fun _ hpart => List.mem_cons_of_mem _ (List.mem_append_left _ hpart)
  have hright : ∀ part ∈ right.parts, part ∈ (Expr.binary operator left right).parts :=
    fun _ hpart => List.mem_cons_of_mem _ (List.mem_append_right _ hpart)
  exact ⟨⟨fun name equality value hmem => h.constraints name equality value (hleft _ hmem),
      fun part hpart => h.chains part (hleft part hpart)⟩,
    ⟨fun name equality value hmem => h.constraints name equality value (hright _ hmem),
      fun part hpart => h.chains part (hright part hpart)⟩⟩

end WellFormed

end Expr

namespace Grammar

variable {default t : Text}

theorem Value.guarded {value : Text} (h : Value value) : Quotes.Guarded value :=
  Quotes.closed_iff_guarded.mp h.closed

theorem Constraint.wellFormed {e : Expr} (h : Constraint t e) (limit : Nat) :
    e.WellFormed limit := by
  obtain ⟨name, symbol, value, equality, hequals, hbang, hname, hchars, -, -, hvalue⟩ := h
  -- A name ends before the first sign of an operator.
  have hreadable : (Text.trim name).Readable := by
    refine ⟨hname, fun d hd => ⟨(hchars d hd).1, ?_⟩⟩
    simp only [List.mem_cons, not_or]
    refine ⟨?_, ?_, by simpa using (hchars d hd).2⟩
    · rintro rfl
      exact hequals (Text.mem_of_mem_trim hd)
    · rintro rfl
      exact hbang (Text.mem_of_mem_trim hd)
  constructor
  · intro name' equality' value' hmem
    cases List.mem_singleton.mp hmem
    exact ⟨hreadable, hvalue.guarded⟩
  · intro part hmem
    cases List.mem_singleton.mp hmem
    exact Nat.zero_le limit

section Chains

variable {P : Text → Expr → Prop} {left e : Expr} {limit : Nat}

theorem Chain.wellFormed (hP : ∀ t e, P t e → e.WellFormed limit) (h : Chain P left t e)
    (hleft : left.WellFormed (limit + 1)) : e.WellFormed (limit + 1) := by
  induction h with
  | nil left => exact hleft
  | cons left right e w w' t rest operator hw hw' ht hrest ih =>
    exact ih (hleft.binary (hP t right ht))

theorem ChainOf.wellFormed (hP : ∀ t e, P t e → e.WellFormed limit) (h : ChainOf P t e) :
    e.WellFormed (limit + 1) := by
  obtain ⟨first, e, t, rest, ht, hrest⟩ := h
  exact hrest.wellFormed hP ((hP t first ht).mono (Nat.le_succ limit))

end Chains

/-- Each pair of parentheses lets one more operator follow to the right. -/
theorem Operand.wellFormed {levels : Nat} {e : Expr} (h : Operand levels t e) :
    e.WellFormed levels := by
  induction levels generalizing t e with
  | zero => exact Constraint.wellFormed h 0
  | succ levels ih =>
    rcases h with h | ⟨w, t, w', e, hw, ht, hw'⟩
    · exact h.wellFormed (levels + 1)
    · exact ht.wellFormed fun t e h => ih h

/-! ### Tokens -/

theorem Body.wellFormed {e : Option Expr} (h : Body default t e) :
    ∀ x ∈ e, x.WellFormed (Parser.maxNesting + 1) ∨
      ∃ value, x = .constraint default .equal value ∧ Quotes.Guarded value := by
  cases h with
  | any w hw => simp
  | brackets w t w' e hw ht hw' =>
    rintro x ⟨⟩
    exact .inl (ChainOf.wellFormed (fun t e h => Operand.wellFormed h) ht)
  | word value hvalue =>
    rintro x ⟨⟩
    exact .inr ⟨value, rfl, hvalue.guarded⟩

theorem Bounds.min_le {r : Repeats} (h : Bounds t r) : ∀ max ∈ r.max, r.min ≤ max := by
  cases h with
  | exactly w t n hw ht => simp
  | between w t w' t' n m hw ht hw' ht' hle => simpa using hle
  | _ => simp

theorem Tag.wellFormed {tag : XmlTag} (h : Tag t tag) : tag.WellFormed := by
  cases h with
  | opening w name w' hw hname hslash hw' => exact hname
  | closing w w' name w'' hw hw' hname hw'' => exact hname

/-- With the slash right behind the bracket, a tag is a closing one. -/
theorem TrailingTag.closing {tag : XmlTag} (h : TrailingTag t tag) : tag.closing := by
  have hgap : ∀ {w u : Text}, Gap w → u.head? ≠ some '/' → (w ++ u).head? ≠ some '/' := by
    intro w u hw hu
    cases w with
    | nil => exact hu
    | cons c w =>
      rintro ⟨⟩
      exact absurd (hw '/' List.mem_cons_self) (by decide)
  obtain ⟨htag, hprefix⟩ := h
  cases htag with
  | closing w w' name w'' hw hw' hname hw'' => rfl
  | opening w name w' hw hname hslash hw' =>
    -- Neither the white space nor the name begins with a slash.
    have hnext : (name ++ (w' ++ ['>'])).head? ≠ some '/' := by
      cases name with
      | nil => exact hgap (u := ['>']) hw' (by decide)
      | cons c name => exact hslash
    obtain ⟨rest, heq⟩ := (List.cons_prefix_cons.mp hprefix).2
    exact absurd (congrArg List.head? heq.symm) (hgap hw hnext)

theorem Token.wellFormed {x : CorpusQuery.Token} (h : Token default t x) :
    x.WellFormed default := by
  obtain ⟨ahead, body, bounds, mark, behind, leading, trailing, e, r, optional, hahead, hbody,
    hbounds, -, hbehind⟩ := h
  refine ⟨?_, ?_, hbody.wellFormed, ?_⟩
  · cases hahead with
    | absent => simp
    | present t w tag ht hw => simpa using ht.wellFormed
  · cases hbehind with
    | absent => simp
    | present w t tag hw ht => simpa using ⟨ht.1.wellFormed, ht.closing⟩
  · cases hbounds with
    | absent => simp
    | present w t r hw ht => simpa using ht.min_le

/-! ### Queries -/

theorem Within.readableElement {name : Text} (h : Within t name) : name.ReadableElement := by
  obtain ⟨w, w', name, v, v', -, -, hname, -, -⟩ := h
  exact hname

theorem Items.wellFormed {items : List Parser.Item} (h : Items default t items) :
    (∀ x ∈ items.filterMap Parser.Item.token?, x.WellFormed default) ∧
      ∀ name ∈ items.filterMap Parser.Item.within?, name.ReadableElement := by
  induction h with
  | nil w hw => simp
  | token w t rest x items hw ht hbehind hrest ih =>
    exact ⟨List.forall_mem_cons.mpr ⟨ht.wellFormed, ih.1⟩, ih.2⟩
  | within w t rest name items hw ht hrest ih =>
    exact ⟨ih.1, List.forall_mem_cons.mpr ⟨ht.readableElement, ih.2⟩⟩

theorem Query.wellFormed {q : CorpusQuery.Query} (h : Query default t q) :
    q.WellFormed default := by
  obtain ⟨first, items, hitems⟩ := h
  obtain ⟨htokens, hnames⟩ := hitems.wellFormed
  refine ⟨by simp [CorpusQuery.Query.ofItems], htokens, fun name hname => ?_⟩
  exact hnames name (List.mem_of_getLast? hname)

end Grammar

namespace Query

/-- Whatever is read is well formed, be the text or the default attribute what they may. -/
theorem parse_wellFormed {default text : Text} {q : Query}
    (h : parse default text = .ok (some q)) : q.WellFormed default :=
  ((Grammar.ensures_parse default text _ h).2 q rfl).wellFormed

/-- The text `<s> [a="\""&(b!="\\"|c="")]{2,3}</s>"="within<p/>`, with a default attribute whose
name could not be written. -/
theorem parse_wellFormed_quotes :
    let text : Text := ['<', 's', '>', ' ', '[', 'a', '=', '"', '\\', '"', '"', '&', '(', 'b', '!',
      '=', '"', '\\', '\\', '"', '|', 'c', '=', '"', '"', ')', ']', '{', '2', ',', '3', '}', '<', '/',
      's', '>', '"', '=', '"', 'w', 'i', 't', 'h', 'i', 'n', '<', 'p', '/', '>']
    let e : Expr := .binary .and (.constraint ['a'] .equal ['\\', '"'])
      (.binary .or (.constraint ['b'] .notEqual ['\\', '\\']) (.constraint ['c'] .equal []))
    let q : Query := ⟨[⟨some ⟨['s'], false⟩, some ⟨['s'], true⟩, some e, false, some ⟨2, some 3⟩⟩,
      ⟨none, none, some (.constraint [' '] .equal ['=']), false, none⟩], some ['p']⟩
    parse [' '] text = .ok (some q) ∧ q.WellFormed [' '] := by
  intro text e q
  have hparse : parse [' '] text = .ok (some q) := by decide +kernel
  exact ⟨hparse, parse_wellFormed hparse⟩

end Query

end CorpusQuery
