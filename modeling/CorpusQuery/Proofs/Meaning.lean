import CorpusQuery.Proofs.Reading
import CorpusQuery.Proofs.Terms
import CorpusQuery.Proofs.Value.Stable

/-!
A query that goes through a builder comes out with the meaning that it had: operands of one
connective may be grouped otherwise, and attributes that are not configured are left out.
-/

namespace CorpusQuery

/-- Equal but for the grouping of operands that one connective joins. -/
inductive Expr.Regrouped : Expr → Expr → Prop where
  | refl (e : Expr) : Regrouped e e
  | assoc (operator : Connective) (a b c : Expr) :
    Regrouped (.binary operator (.binary operator a b) c) (.binary operator a (.binary operator b c))
  | binary (operator : Connective) {a a' b b' : Expr} (ha : Regrouped a a') (hb : Regrouped b b') :
    Regrouped (.binary operator a b) (.binary operator a' b')
  | symm {a b : Expr} (h : Regrouped a b) : Regrouped b a
  | trans {a b c : Expr} (hab : Regrouped a b) (hbc : Regrouped b c) : Regrouped a c

namespace Expr

/-- The constraints from left to right. -/
def leaves : Expr → List (Text × Equality × Text)
  | .constraint name equality raw => [(name, equality, raw)]
  | .binary _ left right => left.leaves ++ right.leaves

theorem Regrouped.leaves_eq {a b : Expr} (h : Regrouped a b) : a.leaves = b.leaves := by
  induction h with
  | refl e => rfl
  | assoc operator a b c => simp [leaves]
  | binary operator _ _ iha ihb => simp [leaves, iha, ihb]
  | symm _ ih => exact ih.symm
  | trans _ _ ihab ihbc => exact ihab.trans ihbc

/-- Where one side says nothing, the other side stands alone. -/
def combine? (operator : Connective) : Option Expr → Option Expr → Option Expr
  | some left, some right => some (.binary operator left right)
  | none, right => right
  | left, none => left

/-- What is left of an expression without the attributes that are not configured. -/
def known? (s : Settings) : Expr → Option Expr
  | .constraint name equality raw =>
    if s.hasAttribute name then some (.constraint name equality (CaseFlag.respell raw)) else none
  | .binary operator left right => combine? operator (left.known? s) (right.known? s)

/-- Operands joined from the left. -/
def joined? (operator : Connective) : List Expr → Option Expr
  | [] => none
  | first :: rest => some (rest.foldl (.binary operator) first)

/-- Both say nothing, or the same. -/
abbrev Alike : Option Expr → Option Expr → Prop := Option.Rel Regrouped

namespace Alike

theorem refl : (a : Option Expr) → Alike a a
  | none => .none
  | some e => .some (.refl e)

theorem trans {a b c : Option Expr} (hab : Alike a b) (hbc : Alike b c) : Alike a c := by
  cases hab with
  | none => exact hbc
  | some hab =>
    cases hbc with
    | some hbc => exact .some (hab.trans hbc)

theorem combine? {a a' b b' : Option Expr} (operator : Connective) (ha : Alike a a')
    (hb : Alike b b') : Alike (Expr.combine? operator a b) (Expr.combine? operator a' b') := by
  cases ha with
  | none =>
    cases hb with
    | none => exact .none
    | some hb => exact .some hb
  | some ha =>
    cases hb with
    | none => exact .some ha
    | some hb => exact .some (.binary operator ha hb)

end Alike

/-- Operands may be joined on the right first. -/
theorem regrouped_foldl (operator : Connective) (left first : Expr) (rest : List Expr) :
    Regrouped (rest.foldl (.binary operator) (.binary operator left first))
      (.binary operator left (rest.foldl (.binary operator) first)) := by
  induction rest generalizing first with
  | nil => exact .refl _
  | cons e rest ih =>
    -- Regrouping at the left end of a chain carries over to the whole chain.
    have hstart : ∀ {a b : Expr}, Regrouped a b → ∀ rest : List Expr,
        Regrouped (rest.foldl (.binary operator) a) (rest.foldl (.binary operator) b) := by
      intro a b hab rest
      induction rest generalizing a b with
      | nil => exact hab
      | cons e rest ih => exact ih (.binary operator hab (.refl e))
    exact (hstart (.assoc operator left first e) rest).trans (ih (.binary operator first e))

theorem joined?_append (operator : Connective) (as bs : List Expr) :
    Alike (joined? operator (as ++ bs))
      (combine? operator (joined? operator as) (joined? operator bs)) := by
  cases as with
  | nil =>
    cases bs with
    | nil => exact .none
    | cons b bs => exact .refl _
  | cons a as =>
    cases bs with
    | nil =>
      rw [List.append_nil]
      exact .refl _
    | cons b bs =>
      refine .some ?_
      rw [List.append_eq, List.foldl_append, List.foldl_cons]
      exact regrouped_foldl operator _ b bs

theorem joined?_toList (operator : Connective) (e : Option Expr) :
    joined? operator e.toList = e := by
  cases e <;> rfl

end Expr

namespace Term

theorem restExpr_eq (operator : Connective) (left : Expr) (rest : List Term) :
    restExpr operator left rest = (rest.map expr).foldl (.binary operator) left := by
  induction rest generalizing left with
  | nil => rfl
  | cons t rest ih => rw [restExpr, ih, List.map_cons, List.foldl_cons]

theorem expr_join? (operator : Connective) (ts : List Term) :
    (join? operator ts).map expr = Expr.joined? operator (ts.map expr) := by
  cases ts with
  | nil => rfl
  | cons first rest => exact congrArg some (restExpr_eq operator first.expr rest)

theorem expr_operand? (operator : Connective) (ts : List Term) :
    (operand? operator ts).map expr = Expr.joined? operator (ts.map expr) := by
  match ts with
  | [] => rfl
  | [t] => rfl
  | t :: u :: rest => exact expr_join? operator (t :: u :: rest)

end Term

namespace Expr

variable {s : Settings}

/-- A tree that was loaded from an expression says what the expression says. -/
theorem alike_terms (hlists : ∀ a ∈ s.attributes, a.hasValueList = false) {default : Text} (e : Expr)
    (he : e.Spelled default) (around : Connective) :
    Alike (joined? around ((e.terms s around).map Term.expr)) (e.known? s) := by
  induction e generalizing around with
  | constraint name equality raw =>
    rw [terms, Settings.term?_eq hlists name equality he.2, known?]
    split
    next => exact .refl _
    next => exact .none
  | binary operator left right ihl ihr =>
    have hoperands : Alike
        (joined? operator ((left.terms s operator ++ right.terms s operator).map Term.expr))
        (combine? operator (left.known? s) (right.known? s)) := by
      rw [List.map_append]
      exact (joined?_append operator _ _).trans
        ((ihl he.1 operator).combine? operator (ihr he.2 operator))
    rw [terms, known?]
    split
    next heq => exact heq ▸ hoperands
    next hne =>
      -- Operands of another connective make up one term, which is in parentheses if it has several.
      rw [← Option.toList_map, joined?_toList, Term.expr_operand?]
      exact hoperands

/-- What all constraints that are read come to holds of all that is written of an expression. -/
theorem every_terms {P : Text → Equality → Text → Prop} {default : Text}
    (h : ∀ name equality raw, (constraint name equality raw).Spelled default →
      ∀ t ∈ s.term? name equality raw, t.Every P)
    (e : Expr) (he : e.Spelled default) (around : Connective) : ∀ t ∈ e.terms s around, t.Every P := by
  induction e generalizing around with
  | constraint name equality raw =>
    exact fun t ht => h name equality raw he t (Option.mem_toList.mp ht)
  | binary operator left right ihl ihr =>
    have hoperands := List.forall_mem_append.mpr ⟨ihl he.1 operator, ihr he.2 operator⟩
    rw [terms]
    split
    next => exact hoperands
    next => exact fun t ht => Term.every_operand? hoperands t (Option.mem_toList.mp ht)

/-- What is written of an expression can be read. -/
theorem readable_terms {default : Text} (hdefault : default.Readable) (e : Expr)
    (he : e.Spelled default) (around : Connective) : ∀ t ∈ e.terms s around, t.Readable := by
  refine every_terms (fun name equality raw hspelled t ht => ?_) e he around
  rw [Settings.term?_eq_map] at ht
  obtain ⟨a, -, rfl⟩ := Option.map_eq_some_iff.mp ht
  exact ⟨hspelled.1.elim id (· ▸ hdefault), a.closed_escape_written equality hspelled.2⟩

end Expr

/-! ### Tokens -/

/-- The token `t'` says what `t` says, as far as the settings know the attributes. -/
structure Token.Normalized (s : Settings) (t t' : Token) : Prop where
  expression : Expr.Alike t'.expression (t.expression.bind (Expr.known? s))
  counts : ∀ n, t'.Admits n ↔ t.Admits n
  leadingTag : t'.leadingTag = t.leadingTag.filter (· == ⟨sentenceTag, false⟩)
  trailingTag : t'.trailingTag = t.trailingTag.filter (· == ⟨sentenceTag, true⟩)

structure Query.Normalized (s : Settings) (q q' : Query) : Prop where
  tokens : List.Forall₂ (Token.Normalized s) q.tokens q'.tokens
  within : q'.within = q.within.filter (!·.isEmpty)

/-- Of tags only those of sentences are kept. -/
theorem filter_sentenceTag (closing : Bool) (tag : Option XmlTag) :
    (if isSentenceTag closing tag then some (XmlTag.mk sentenceTag closing) else none) =
      tag.filter (· == ⟨sentenceTag, closing⟩) := by
  cases tag with
  | none => rfl
  | some tag =>
    by_cases h : tag = ⟨sentenceTag, closing⟩ <;> simp [isSentenceTag, Option.filter, h]

namespace Slot

variable {s : Settings} {t : Token}

theorem normalized_ofToken (hlists : ∀ a ∈ s.attributes, a.hasValueList = false) {default : Text}
    (ht : t.Spelled default) (next : NodeId) :
    t.Normalized s ((ofToken s t next).mapRoot Group.term?).token where
  expression := by
    change Expr.Alike ((rootOf s t next).term?.map Term.expr) _
    unfold rootOf
    cases hexpression : t.expression with
    | none => exact .none
    | some e =>
      simp only [Expr.term?_ofExpr, Term.expr_join?]
      exact e.alike_terms hlists (ht.expression e hexpression) _
  counts n := (admits_token _ n).trans Iff.rfl
  leadingTag := filter_sentenceTag false t.leadingTag
  trailingTag := filter_sentenceTag true t.trailingTag

theorem readable_ofToken {default : Text} (hdefault : default.Readable) (ht : t.Spelled default)
    (next : NodeId) :
    ((ofToken s t next).mapRoot Group.term?).Readable where
  root := by
    change ∀ u ∈ (rootOf s t next).term?, u.Readable
    unfold rootOf
    cases hexpression : t.expression with
    | none => simp [Group.term?_bare]
    | some e =>
      simp only [Expr.term?_ofExpr]
      exact Term.every_join? (e.readable_terms hdefault (ht.expression e hexpression) _)
  repeats := t.exceeded?_of_fault? ht.bounds

end Slot

namespace Draft

variable {s : Settings} {default : Text} {ts : List Token}

theorem normalized_ofTokens (hlists : ∀ a ∈ s.attributes, a.hasValueList = false)
    (hts : ∀ t ∈ ts, t.Spelled default) (next : NodeId) :
    List.Forall₂ (Token.Normalized s) ts
      (((ofTokens s ts next).map (Slot.mapRoot Group.term?)).map Slot.token) := by
  induction ts generalizing next with
  | nil => exact .nil
  | cons t rest ih =>
    rw [List.forall_mem_cons] at hts
    exact .cons (Slot.normalized_ofToken hlists hts.1 next) (ih hts.2 _)

theorem readable_ofTokens (hdefault : default.Readable) (hts : ∀ t ∈ ts, t.Spelled default)
    (next : NodeId) :
    ∀ t ∈ (ofTokens s ts next).map (Slot.mapRoot Group.term?), t.Readable := by
  rw [List.forall_mem_map]
  apply forall_ofTokens
  intro t ht next
  exact Slot.readable_ofToken hdefault (hts t ht) next

end Draft

/-- A query that is loaded and written again keeps its meaning, if what is written can be read: that
fails only where parentheses come to nest too deep. -/
theorem Builder.normalized_parse (s : Settings)
    (hlists : ∀ a ∈ s.attributes, a.hasValueList = false) (hdefault : s.defaultAttribute.Readable)
    {text : Text} {q : Query} (hq : Query.parse s.defaultAttribute text = .ok (some q)) :
    ∃ b written, (Builder.new s).apply (.parse (some text)) = (.ok .nothing, b) ∧
      b.cql? = .ok (some written) ∧
      ∀ q', Query.parse s.defaultAttribute written = .ok (some q') → q.Normalized s q' := by
  obtain ⟨htokens, hts, hwithin⟩ := Query.ensures_parse _ _ _ hq q rfl
  obtain ⟨n, b, happly, hb⟩ := (Builder.new_shows s).apply_parse hq
  refine ⟨b, _, happly, hb.cql?_ofQuery htokens, fun q' hq' => ?_⟩
  have hslots : (Draft.ofTokens s q.tokens 0).map (Slot.mapRoot Group.term?) ≠ [] := by
    simpa using Draft.ofTokens_ne_nil htokens 0
  have hname : ∀ name ∈ q.within.filter (!·.isEmpty), name.ReadableElement := fun name hname =>
    hwithin name (Option.mem_filter_iff.mp hname).1
  -- The written text can give nothing but the query of the loaded tokens; nesting decides only
  -- whether it gives anything.
  have hparse := Query.givesIf_parse hslots (Draft.readable_ofTokens hdefault hts 0) hname
    s.defaultAttribute
  have hquery : q' = ⟨((Draft.ofTokens s q.tokens 0).map (Slot.mapRoot Group.term?)).map Slot.token,
      q.within.filter (!·.isEmpty)⟩ := by
    exact Option.some.inj (hparse.eq_of_ok hq')
  subst hquery
  exact ⟨Draft.normalized_ofTokens hlists hts 0, rfl⟩

/-- The text `[x = "a" & pos != "(?c)b"]{2}`, where the attribute `x` is not known. -/
def Query.sampleText : Text :=
  ['[', 'x', ' ', '=', ' ', '"', 'a', '"', ' ', '&', ' ', 'p', 'o', 's', ' ', '!', '=', ' ', '"',
    '(', '?', 'c', ')', 'b', '"', ']', '{', '2', '}']

/-- The text `[pos != "(?-i)b"]{2}`, which a builder writes for it. -/
def Query.sampleNormalText : Text :=
  ['[', 'p', 'o', 's', ' ', '!', '=', ' ', '"', '(', '?', '-', 'i', ')', 'b', '"', ']', '{', '2', '}']

theorem Builder.normalized_parse_sample : ∃ q b q',
    Query.parse Settings.standard.defaultAttribute Query.sampleText = .ok (some q) ∧
      (Builder.new .standard).apply (.parse (some Query.sampleText)) = (.ok .nothing, b) ∧
      b.cql? = .ok (some Query.sampleNormalText) ∧
      Query.parse Settings.standard.defaultAttribute Query.sampleNormalText = .ok (some q') ∧
      q.Normalized .standard q' := by
  have hword : Text.Readable Settings.standard.defaultAttribute :=
    Parser.readable_of_isName (by decide) (by decide) (by decide)
  have hparse : Query.parse Settings.standard.defaultAttribute Query.sampleText =
      .ok (some ⟨[⟨none, none, some (.binary .and (.constraint ['x'] .equal ['a'])
        (.constraint ['p', 'o', 's'] .notEqual ['(', '?', 'c', ')', 'b'])), false,
          some ⟨2, some 2⟩⟩], none⟩) := rfl
  have hparse' : Query.parse Settings.standard.defaultAttribute Query.sampleNormalText =
      .ok (some ⟨[⟨none, none,
        some (.constraint ['p', 'o', 's'] .notEqual ['(', '?', '-', 'i', ')', 'b']), false,
          some ⟨2, some 2⟩⟩], none⟩) := rfl
  obtain ⟨b, written, hload, hcql, hnormalized⟩ :=
    Builder.normalized_parse .standard (by decide) hword hparse
  have hwritten : b.cql? = .ok (some Query.sampleNormalText) := by
    have hrun : ((Builder.new .standard).apply (.parse (some Query.sampleText))).2.cql? =
        .ok (some Query.sampleNormalText) := by decide +kernel
    rwa [hload] at hrun
  rw [hwritten] at hcql
  cases hcql
  exact ⟨_, b, _, hparse, hload, hwritten, hparse', hnormalized _ hparse'⟩

end CorpusQuery
