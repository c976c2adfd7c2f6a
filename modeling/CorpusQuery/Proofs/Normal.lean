import CorpusQuery.Proofs.Tidy
import Mathlib.Algebra.Order.BigOperators.Group.List
import Mathlib.Algebra.Order.Group.Nat

/-!
The normal spelling of a query: what a builder writes that has loaded it. It is settled after the
second time, and after the first one unless that leaves parentheses that could be left out.
-/

namespace CorpusQuery

/-- A token as a builder writes it that has loaded it. -/
def Slot.loaded (s : Settings) (t : Token) : Slot (Option Term) :=
  (ofToken s t 0).mapRoot Group.term?

namespace Query

/-- The normal spelling of a query. -/
def normalText (s : Settings) (q : Query) : Text :=
  joinTokens ((q.tokens.map (Slot.loaded s)).map Slot.text) (q.within.filter (!·.isEmpty))

/-- The query that the normal spelling holds. -/
def normal (s : Settings) (q : Query) : Query :=
  ⟨(q.tokens.map (Slot.loaded s)).map Slot.token, q.within.filter (!·.isEmpty)⟩

/-- The normal spelling has no parentheses that could be left out. -/
def Tidy (s : Settings) (q : Query) : Prop :=
  ∀ t ∈ q.tokens, ∀ e ∈ t.expression, ∀ u ∈ e.term? s, u.Tidy

end Query

/-- A fresh builder takes the text, and writes it as `written`. -/
def Builder.Normalizes (s : Settings) (text written : Text) : Prop :=
  ∃ b, (Builder.new s).apply (.parse (some text)) = (.ok .nothing, b) ∧
    b.cql? = .ok (some written)

namespace Slot

variable {s : Settings}

theorem term?_rootOf (t : Token) (next : NodeId) :
    (rootOf s t next).term? = t.expression.bind (Expr.term? s) := by
  unfold rootOf
  cases t.expression with
  | none => rfl
  | some e => exact e.term?_ofExpr s next (next + 1)

theorem mapRoot_ofToken (t : Token) (next : NodeId) :
    (ofToken s t next).mapRoot Group.term? = loaded s t := by
  simp only [loaded, ofToken, mapRoot, term?_rootOf]

theorem root_loaded (t : Token) : (loaded s t).root = t.expression.bind (Expr.term? s) :=
  term?_rootOf t 0

/-- Loading what is read of a token makes a difference only between the brackets. -/
theorem text_loaded (u : Slot (Option Term)) : (loaded s u.token).text =
    u.cqlAround (((u.root.map Term.expr).bind (Expr.term? s)).map Term.inner |>.getD []) := by
  have hsuffix : (loaded s u.token).suffix = u.suffix := suffix_ofToken (s := s) u 0
  have hopens : (loaded s u.token).opensSentence = u.opensSentence :=
    (marks_ofToken (s := s) u 0).1
  have hcloses : (loaded s u.token).closesSentence = u.closesSentence :=
    (marks_ofToken (s := s) u 0).2
  rw [text, root_loaded, cqlAround, cqlAround, hsuffix, hopens, hcloses]
  rfl

theorem length_cqlAround (u : Slot (Option Term)) (inner inner' : Text) :
    (u.cqlAround inner).length + inner'.length = (u.cqlAround inner').length + inner.length := by
  simp only [cqlAround, List.length_append]
  omega

end Slot

theorem Draft.map_ofTokens {s : Settings} (ts : List Token) (next : NodeId) :
    (ofTokens s ts next).map (Slot.mapRoot Group.term?) = ts.map (Slot.loaded s) := by
  induction ts generalizing next with
  | nil => rfl
  | cons t rest ih => rw [ofTokens, List.map_cons, Slot.mapRoot_ofToken, ih, List.map_cons]

/-! ### One token -/

namespace Expr

variable {s : Settings}

/-- What is written of constraints that were read is read as it is. -/
theorem rereads_terms {default : Text} (e : Expr) (he : e.Spelled default) (around : Connective) :
    ∀ t ∈ e.terms s around, t.Rereads s := by
  refine every_terms (fun name equality raw hspelled t ht => ?_) e he around
  rw [Settings.term?_eq_map] at ht
  obtain ⟨a, ha, rfl⟩ := Option.map_eq_some_iff.mp ht
  change s.term? name equality _ = _
  rw [Settings.term?_eq_map, ha, Option.map_some, a.constraintOf_escape_written equality hspelled.2]

theorem rereads_term? {default : Text} {e : Expr} (he : e.Spelled default) :
    ∀ u ∈ e.term? s, u.Rereads s :=
  Term.every_join? (e.rereads_terms he _)

end Expr

namespace Slot

variable {s : Settings} {default : Text} {t : Token}

theorem exists_expression {u : Term} (hu : u ∈ (loaded s t).root) :
    ∃ e ∈ t.expression, u ∈ e.term? s := by
  rw [root_loaded] at hu
  exact Option.bind_eq_some_iff.mp hu

theorem rereads_loaded (ht : t.Spelled default) : ∀ u ∈ (loaded s t).root, u.Rereads s := by
  intro u hu
  obtain ⟨e, he, hu⟩ := exists_expression hu
  exact Expr.rereads_term? (ht.expression e he) u hu

/-- What is read of the normal spelling names known attributes only. -/
theorem configured_loaded (ht : t.Spelled default) :
    ∀ e ∈ (loaded s t).token.expression, e.Configured s := by
  intro e he
  obtain ⟨u, hu, rfl⟩ := Option.map_eq_some_iff.mp he
  exact Term.configured_expr s u (rereads_loaded ht u hu)

/-- A token is written between brackets as a group without its parentheses. -/
theorem exists_group {u : Term} (hu : u ∈ (loaded s t).root) :
    ∃ operator first rest, u = .group operator first rest := by
  obtain ⟨e, -, hu⟩ := exists_expression hu
  rw [Expr.term?] at hu
  generalize e.terms s (e.connective?.getD s.rootOperator) = ts at hu
  cases ts with
  | nil => cases hu
  | cons first rest => cases hu; exact ⟨_, first, rest, rfl⟩

theorem text_reloaded_of_tidy (ht : t.Spelled default) (htidy : ∀ u ∈ (loaded s t).root, u.Tidy) :
    (loaded s (loaded s t).token).text = (loaded s t).text := by
  have hreads := rereads_loaded (s := s) ht
  rw [text_loaded, text]
  cases hroot : (loaded s t).root with
  | none => rfl
  | some u =>
    have hinner := (htidy u hroot).term?_expr (hreads u hroot)
    simp only [Option.map_some, Option.bind_some, hinner]

/-- The second time a token is not longer, and shorter unless it was tidy. -/
theorem length_text_reloaded (ht : t.Spelled default) :
    (loaded s (loaded s t).token).text.length ≤ (loaded s t).text.length ∧
      ((loaded s (loaded s t).token).text.length = (loaded s t).text.length →
        ∀ u ∈ (loaded s t).root, u.Tidy) := by
  have hreads := rereads_loaded (s := s) ht
  rw [text_loaded, text]
  cases hroot : (loaded s t).root with
  | none => exact ⟨Nat.le_refl _, by simp⟩
  | some u =>
    obtain ⟨operator, first, rest, rfl⟩ := exists_group hroot
    obtain ⟨u', hu', -⟩ := (Term.configured_expr s _ (hreads _ hroot)).exists_term?
    obtain ⟨hle, htidy⟩ := Term.length_inner (hreads _ hroot) hu'
    have hlength := (loaded s t).length_cqlAround u'.inner (Term.group operator first rest).inner
    simp only [Option.map_some, Option.bind_some, hu', Option.getD_some]
    refine ⟨by omega, fun heq => ?_⟩
    rintro _ ⟨⟩
    exact htidy (by omega)

theorem shallow_reloaded (ht : t.Spelled default) (h : (loaded s t).Shallow) :
    (loaded s (loaded s t).token).Shallow := by
  intro u' hu'
  rw [root_loaded] at hu'
  obtain ⟨e, he, hu'⟩ := Option.bind_eq_some_iff.mp hu'
  obtain ⟨u, hu, rfl⟩ := Option.map_eq_some_iff.mp he
  obtain ⟨operator, first, rest, rfl⟩ := exists_group hu
  exact (Term.depth_term?_expr (rereads_loaded ht _ hu) hu').trans (h _ hu)

end Slot

/-! ### Queries -/

theorem length_joinTokens (tokens : List Text) (within : Option Text) :
    (joinTokens tokens within).length =
      (tokens.map List.length).sum + (tokens.length - 1) + (withinText within).length := by
  have hspaces : ([' '].intercalate tokens).length =
      (tokens.map List.length).sum + (tokens.length - 1) := by
    induction tokens with
    | nil => rfl
    | cons t rest ih =>
      cases rest with
      | nil => simp
      | cons u rest =>
        rw [List.intercalate_cons_cons, List.length_append, List.length_append, ih]
        simp only [List.map_cons, List.sum_cons, List.length_cons, List.length_nil]
        omega
  rw [joinTokens, List.length_append, hspaces]

namespace Query

variable {s : Settings} {text : Text} {q : Query}

/-- A text is normalized to the normal spelling of its query. -/
theorem normalizes (hq : parse s.defaultAttribute text = .ok (some q)) :
    Builder.Normalizes s text (q.normalText s) := by
  obtain ⟨n, b, happly, hb⟩ := (Builder.new_shows s).apply_parse hq
  have hne := (ensures_parse _ _ _ hq q rfl).tokens_ne
  have hcql := hb.cql?_ofQuery hne
  rw [Draft.map_ofTokens] at hcql
  exact ⟨b, happly, hcql⟩

/-- The normal spelling can be read but where parentheses nest too deep. -/
theorem givesIf_normalText (hdefault : s.defaultAttribute.Readable)
    (hq : q.Spelled s.defaultAttribute) :
    GivesIf (∀ t ∈ q.tokens, (Slot.loaded s t).Shallow)
      (parse s.defaultAttribute (q.normalText s)) (some (q.normal s)) := by
  have hne : q.tokens.map (Slot.loaded s) ≠ [] := by simpa using hq.tokens_ne
  have hreadable := Draft.readable_ofTokens (s := s) hdefault hq.tokens 0
  rw [Draft.map_ofTokens] at hreadable
  refine (givesIf_parse hne hreadable (fun name hname => ?_) s.defaultAttribute).congr (by simp)
  exact hq.within name (Option.mem_filter_iff.mp hname).1

theorem within_normal : (q.normal s).within.filter (!·.isEmpty) = (q.normal s).within := by
  rw [normal, Option.filter_filter]
  simp

theorem normalText_normal : (q.normal s).normalText s =
    joinTokens (q.tokens.map fun t => (Slot.loaded s (Slot.loaded s t).token).text)
      (q.normal s).within := by
  rw [normalText, within_normal]
  simp [normal, Function.comp_def]

/-- The second time nothing changes, just where the first time left no needless parentheses. -/
theorem normalText_normal_iff (hq : q.Spelled s.defaultAttribute) :
    (q.normal s).normalText s = q.normalText s ↔ q.Tidy s := by
  have hroot : ∀ t, (∀ e ∈ t.expression, ∀ u ∈ e.term? s, u.Tidy) ↔
      ∀ u ∈ (Slot.loaded s t).root, u.Tidy := by
    intro t
    rw [Slot.root_loaded]
    cases t.expression <;> simp
  simp only [Tidy, hroot]
  rw [normalText_normal, normalText]
  constructor
  · intro h
    by_contra hnot
    push Not at hnot
    obtain ⟨t, ht, u, hu, hloose⟩ := hnot
    have hshort : ∀ t ∈ q.tokens, (Slot.loaded s (Slot.loaded s t).token).text.length ≤
        (Slot.loaded s t).text.length := fun t ht =>
      (Slot.length_text_reloaded (hq.tokens t ht)).1
    have hshorter := (Slot.length_text_reloaded (s := s) (hq.tokens t ht)).2
    have hsum := List.sum_lt_sum _ _ hshort ⟨t, ht, lt_of_le_of_ne (hshort t ht) fun heq =>
      hloose (hshorter heq u hu)⟩
    have hlength := congrArg List.length h
    rw [length_joinTokens, length_joinTokens] at hlength
    simp only [List.map_map, List.length_map, Function.comp_def, normal] at hlength
    omega
  · intro h
    rw [List.map_map]
    refine congrArg (joinTokens · _) (List.map_congr_left fun t ht => ?_)
    exact Slot.text_reloaded_of_tidy (hq.tokens t ht) (h t ht)

theorem Configured.tidy (h : q.Configured s) : q.Tidy s := by
  intro t ht e he u hu
  obtain ⟨u', hu', htidy⟩ := (h t ht e he).exists_term?
  cases hu'.symm.trans hu
  exact htidy

/-- What is read of the normal spelling names known attributes only. -/
theorem configured_normal (hq : q.Spelled s.defaultAttribute) : (q.normal s).Configured s := by
  intro t ht e he
  simp only [normal, List.map_map, List.mem_map] at ht
  obtain ⟨t, ht, rfl⟩ := ht
  exact Slot.configured_loaded (hq.tokens t ht) e he

end Query

/-- Normalizing settles with the second time. The first time is enough where it leaves no needless
parentheses, as it does where all attributes are known. -/
theorem Builder.normalizes_twice (s : Settings) (hdefault : s.defaultAttribute.Readable)
    {text : Text} {q : Query} (hq : Query.parse s.defaultAttribute text = .ok (some q)) :
    ∃ written, Normalizes s text written ∧
      ∀ q', Query.parse s.defaultAttribute written = .ok (some q') →
        ∃ settled, Normalizes s written settled ∧ (settled = written ↔ q.Tidy s) ∧
          (q.Configured s → settled = written) ∧ Normalizes s settled settled := by
  have hspelled := Query.ensures_parse _ _ _ hq q rfl
  have hnormal := Query.givesIf_normalText hdefault hspelled
  refine ⟨_, Query.normalizes hq, fun q' hq' => ?_⟩
  obtain rfl : q' = q.normal s := Option.some.inj (hnormal.eq_of_ok hq')
  have hspelled' := Query.ensures_parse _ _ _ hq' _ rfl
  -- What was read does not nest too deep, and what is written of it nests no deeper.
  have hshallow : ∀ t ∈ q.tokens, (Slot.loaded s t).Shallow := by
    by_contra hdeep
    obtain ⟨e, he⟩ := hnormal.fails hdeep
    rw [he] at hq'
    cases hq'
  have hparse : Query.parse s.defaultAttribute ((q.normal s).normalText s) =
      .ok (some ((q.normal s).normal s)) := by
    refine (Query.givesIf_normalText hdefault hspelled').gives fun t ht => ?_
    simp only [Query.normal, List.map_map, List.mem_map] at ht
    obtain ⟨t, ht, rfl⟩ := ht
    exact Slot.shallow_reloaded (hspelled.tokens t ht) (hshallow t ht)
  have hagain := Query.normalizes hparse
  rw [(Query.normalText_normal_iff hspelled').mpr (Query.configured_normal hspelled).tidy] at hagain
  have hiff := Query.normalText_normal_iff (s := s) hspelled
  exact ⟨_, Query.normalizes hq', hiff, fun hconfigured => hiff.mpr hconfigured.tidy, hagain⟩

theorem Builder.Normalizes.unique {s : Settings} {text written written' : Text}
    (h : Normalizes s text written) (h' : Normalizes s text written') : written = written' := by
  obtain ⟨b, happly, hcql⟩ := h
  obtain ⟨b', happly', hcql'⟩ := h'
  cases happly.symm.trans happly'
  exact Option.some.inj (Except.ok.inj (hcql.symm.trans hcql'))

/-- Parts of speech, of which `NN` is listed. -/
def Settings.sample : Settings :=
  ⟨[⟨['p', 'o', 's'], none, false, some [⟨['N', 'N'], none⟩]⟩], ['p', 'o', 's'], .and, [], []⟩

/-- The text `[x="a" & (pos="nn" | pos="b")]`, where the attribute `x` is not known. -/
def Query.looseText : Text :=
  ['[', 'x', '=', '"', 'a', '"', ' ', '&', ' ', '(', 'p', 'o', 's', '=', '"', 'n', 'n', '"', ' ',
    '|', ' ', 'p', 'o', 's', '=', '"', 'b', '"', ')', ']']

def Query.loose : Query :=
  ⟨[⟨none, none, some (.binary .and (.constraint ['x'] .equal ['a'])
    (.binary .or (.constraint ['p', 'o', 's'] .equal ['n', 'n'])
      (.constraint ['p', 'o', 's'] .equal ['b']))), false, none⟩], none⟩

/-- The text `[(pos = "…" | pos = "b")]`. -/
def Query.shellText (noun : Text) : Text :=
  ['[', '(', 'p', 'o', 's', ' ', '=', ' ', '"'] ++ noun ++
    ['"', ' ', '|', ' ', 'p', 'o', 's', ' ', '=', ' ', '"', 'b', '"', ')', ']']

/-- The text `[pos = "…" | pos = "b"]`. -/
def Query.bareText (noun : Text) : Text :=
  ['[', 'p', 'o', 's', ' ', '=', ' ', '"'] ++ noun ++
    ['"', ' ', '|', ' ', 'p', 'o', 's', ' ', '=', ' ', '"', 'b', '"', ']']

theorem Query.parse_looseText (default : Text) : parse default looseText = .ok (some loose) := rfl

theorem Builder.normalizes_twice_loose :
    Normalizes .sample Query.looseText (Query.shellText ['N', 'N']) ∧
      ∃ settled, Normalizes .sample (Query.shellText ['N', 'N']) settled ∧
        Normalizes .sample settled settled := by
  have hdefault : Text.Readable Settings.sample.defaultAttribute :=
    Parser.readable_of_isName (by decide) (by decide) (by decide)
  obtain ⟨written, hwritten, h⟩ :=
    Builder.normalizes_twice .sample hdefault (Query.parse_looseText _)
  have hnormal : Query.loose.normalText .sample = Query.shellText ['N', 'N'] := by decide +kernel
  obtain rfl : written = Query.shellText ['N', 'N'] :=
    (hwritten.unique (Query.normalizes (Query.parse_looseText _))).trans hnormal
  obtain ⟨settled, hsettled, -, -, hagain⟩ := h _ rfl
  exact ⟨hwritten, settled, hsettled, hagain⟩

/-- The parentheses that are left around all of a token go the second time. -/
theorem Builder.normalizes_loose :
    Settings.standard.hasAttribute Settings.standard.defaultAttribute ∧
      Settings.standard.defaultAttribute.Readable ∧
      Normalizes .standard Query.looseText (Query.shellText ['n', 'n']) ∧
      Normalizes .standard (Query.shellText ['n', 'n']) (Query.bareText ['n', 'n']) ∧
      Query.bareText ['n', 'n'] ≠ Query.shellText ['n', 'n'] := by
  have hwritten : Query.loose.normalText .standard = Query.shellText ['n', 'n'] := by
    decide +kernel
  have hparse : Query.parse Settings.standard.defaultAttribute (Query.shellText ['n', 'n']) =
      .ok (some (Query.loose.normal .standard)) := rfl
  have hsettled : (Query.loose.normal .standard).normalText .standard =
      Query.bareText ['n', 'n'] := by
    decide +kernel
  have hdefault : Settings.standard.defaultAttribute.Readable :=
    Parser.readable_of_isName (by decide) (by decide) (by decide)
  exact ⟨by decide, hdefault, hwritten ▸ Query.normalizes (Query.parse_looseText _),
    hsettled ▸ Query.normalizes hparse, by decide⟩

end CorpusQuery
