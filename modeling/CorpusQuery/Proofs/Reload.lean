import CorpusQuery.Proofs.Reading
import CorpusQuery.Proofs.Shape
import CorpusQuery.Proofs.Terms

/-! A query that is written is loaded again as it was. -/

namespace CorpusQuery

/-! ### Terms are read and loaded as they are written -/

namespace Term

variable (s : Settings)

/-- Constraints are read as they are written. -/
def Rereads : Term → Prop := Every fun name equality raw =>
  s.term? name equality raw = some (.leaf name equality raw)

def RereadsRest : List Term → Prop := EveryRest fun name equality raw =>
  s.term? name equality raw = some (.leaf name equality raw)

theorem connective?_restExpr (operator : Connective) (left t : Expr) (rest : List Term) :
    (restExpr operator (.binary operator left t) rest).connective? = some operator := by
  induction rest generalizing left t with
  | nil => rfl
  | cons u rest ih => exact ih _ _

/-- An expression that joins operands has their connective. -/
theorem getD_connective?_restExpr (operator default : Connective) (first : Expr)
    (rest : List Term) :
    rest = [] ∨ operator = (restExpr operator first rest).connective?.getD default := by
  cases rest with
  | nil => exact .inl rfl
  | cons t rest =>
    rw [restExpr, connective?_restExpr]
    exact .inr rfl

/-- Operands of another connective come as one group. -/
theorem terms_of_connective? {e : Expr} {operator around : Connective}
    (h : e.connective? = some operator) (hne : operator ≠ around) :
    e.terms s around = (operand? operator (e.terms s operator)).toList := by
  cases e with
  | constraint name equality raw => cases h
  | binary inner left right =>
    cases h
    rw [Expr.terms, if_neg hne, Expr.terms, if_pos rfl]

mutual

theorem terms_expr {around : Connective} : (t : Term) → t.Canonical around → t.Rereads s →
    t.expr.terms s around = [t]
  | .leaf name equality raw, _, hreads => by
    have hterm : s.term? name equality raw = some (.leaf name equality raw) := hreads
    rw [expr, Expr.terms, hterm]
    rfl
  | .group operator first [], ht, _ => absurd rfl ht.2.1
  | .group operator first (t :: rest), ht, hreads => by
    obtain ⟨hne, -, hfirst, hrest⟩ := ht
    -- The connective of the group differs from the one around, so its operands come as one group
    -- again.
    have hoperands := terms_restExpr first.expr (t :: rest) hrest hreads.2
    rw [terms_expr first hfirst hreads.1] at hoperands
    have hconnective : (restExpr operator first.expr (t :: rest)).connective? = some operator :=
      connective?_restExpr operator first.expr t.expr rest
    rw [expr, terms_of_connective? s hconnective hne, hoperands]
    rfl

theorem terms_restExpr {operator : Connective} (left : Expr) : (ts : List Term) →
    CanonicalRest operator ts → RereadsRest s ts →
    (restExpr operator left ts).terms s operator = left.terms s operator ++ ts
  | [], _, _ => by rw [restExpr, List.append_nil]
  | t :: rest, hts, hreads => by
    rw [restExpr, terms_restExpr _ rest hts.2 hreads.2, Expr.terms, if_pos rfl,
      terms_expr t hts.1 hreads.1, List.append_assoc]
    rfl

end

/-- The operands of a root are loaded as they stand there. -/
theorem terms_root {operator around : Connective} {first : Term} {rest : List Term}
    (hcanonical : CanonicalRest around (first :: rest)) (hreads : RereadsRest s (first :: rest))
    (h : rest = [] ∨ operator = around) :
    (restExpr operator first.expr rest).terms s around = first :: rest := by
  have hfirst := terms_expr s first hcanonical.1 hreads.1
  rcases h with rfl | rfl
  · exact hfirst
  · rw [terms_restExpr s _ rest hcanonical.2 hreads.2, hfirst]
    rfl

mutual

theorem configured_expr : (t : Term) → t.Rereads s → t.expr.Configured s
  | .leaf name equality raw, hreads => by
    have hterm : s.term? name equality raw = some (.leaf name equality raw) := hreads
    unfold Settings.term? Settings.constraint? at hterm
    cases ha : s.attribute? name with
    | none => simp [ha] at hterm
    | some a => simp [expr, Expr.Configured, Settings.hasAttribute, ha]
  | .group operator first rest, hreads =>
    configured_restExpr rest hreads.2 (configured_expr first hreads.1)

theorem configured_restExpr {operator : Connective} {left : Expr} : (ts : List Term) →
    RereadsRest s ts → left.Configured s → (restExpr operator left ts).Configured s
  | [], _, hleft => hleft
  | t :: rest, hreads, hleft =>
    configured_restExpr rest hreads.2 ⟨hleft, configured_expr t hreads.1⟩

end

end Term

namespace Expr

variable {s : Settings}

/-- Nothing that is loaded is blank. -/
theorem allLoud_nodes (e : Expr) (around : Connective) (next : NodeId) :
    Node.AllLoud (e.nodes s around next).1 := by
  induction e generalizing around next with
  | constraint name equality raw =>
    rw [nodes]
    cases hc : s.constraint? name equality raw with
    | none => trivial
    | some c =>
      obtain ⟨a, ha, rfl⟩ := Option.map_eq_some_iff.mp hc
      exact ⟨Attribute.isBlank_constraintOf equality, trivial⟩
  | binary operator left right ihl ihr =>
    have hoperands : ∀ next, Node.AllLoud ((left.nodes s operator (right.nodes s operator next).2).1 ++
        (right.nodes s operator next).1) := fun next =>
      Node.everyAll_iff.mpr (List.forall_mem_append.mpr
        ⟨Node.everyAll_iff.mp (ihl operator _), Node.everyAll_iff.mp (ihr operator next)⟩)
    rw [nodes]
    split
    next => exact hoperands next
    next => exact ⟨hoperands (next + 1), trivial⟩

/-- Loaded trees have the shape of what they write. -/
theorem shapes_nodes {e : Expr} (he : e.Configured s) (around : Connective) (next : NodeId) :
    Node.shapes (e.nodes s around next).1 = Term.shapes (e.terms s around) := by
  rw [← terms_nodes s e around next]
  exact (Node.AllCanonical.terms _ (he.canonical_nodes around next)
    (e.allLoud_nodes around next)).2.symm

end Expr

/-- The connective matters only where it joins something. -/
theorem Shape.ofGroup_congr {operator operator' : Connective} {children : List Shape}
    (h : children.length < 2 ∨ operator = operator') :
    ofGroup operator children = ofGroup operator' children := by
  rcases h with h | rfl
  · rw [ofGroup, ofGroup, if_pos h, if_pos h]
  · rfl

theorem Term.inner_congr {operator operator' : Connective} {first : Term} {rest : List Term}
    (h : rest = [] ∨ operator = operator') :
    (group operator first rest).inner = (group operator' first rest).inner := by
  rcases h with rfl | rfl
  · rw [inner, inner, restText, restText]
  · rfl

/-- What is written of a canonical tree is loaded as a tree of that shape, which writes the same. -/
theorem Slot.rootOf_reload {s : Settings} {g : Group} (hg : g.Canonical) (hloud : Node.AllLoud g.children)
    (hreads : Term.RereadsRest s (Node.terms g.children)) {t : Token}
    (ht : t.expression = g.term?.map Term.expr) (next : NodeId) :
    (rootOf s t next).term?.map Term.inner = g.term?.map Term.inner ∧
      (rootOf s t next).shape = g.shape := by
  obtain ⟨-, hshapes⟩ := Node.AllCanonical.terms g.children hg.children hloud
  cases hterms : Node.terms g.children with
  | nil =>
    have hnone : g.term? = none := by rw [Group.term?, hterms]; rfl
    have hroot : rootOf s t next = .bare s next := by rw [rootOf, ht, hnone]; rfl
    refine ⟨by rw [hroot, hnone, Group.term?_bare], ?_⟩
    rw [hroot, Group.shape, Group.shape, ← hshapes, hterms]
    rfl
  | cons first rest =>
    have hsome : g.term? = some (.group g.operator first rest) := by
      rw [Group.term?, hterms]
      rfl
    have hconfigured : (Term.restExpr g.operator first.expr rest).Configured s :=
      Term.configured_restExpr s rest (hterms ▸ hreads).2
        (Term.configured_expr s first (hterms ▸ hreads).1)
    have haround := Term.getD_connective?_restExpr g.operator s.rootOperator first.expr rest
    generalize he : Term.restExpr g.operator first.expr rest = e at hconfigured haround
    have hroot : rootOf s t next = .ofExpr s next e (next + 1) := by
      rw [rootOf, ht, hsome, ← he]
      rfl
    have hlength : g.children.length = (first :: rest).length := by
      rw [← Node.length_shapes, ← hshapes, Term.length_shapes, hterms]
    -- The root takes the connective of the expression over, so its children must suit that one.
    obtain ⟨hchildren, -⟩ := Context.Suits.retype hg
      (haround.imp_left fun hnil => by rw [hlength, hnil, List.length_singleton])
    obtain ⟨hcanonical, -⟩ := Node.AllCanonical.terms g.children hchildren hloud
    rw [hterms] at hcanonical hreads
    have hloaded := Term.terms_root s hcanonical hreads haround
    rw [he] at hloaded
    constructor
    · rw [hroot, Expr.term?_ofExpr, hloaded, hsome]
      exact congrArg some (Term.inner_congr haround).symm
    · rw [hroot, Group.shape, Group.ofExpr, Expr.shapes_nodes hconfigured, hloaded,
        Group.shape, ← hshapes, hterms]
      refine (Shape.ofGroup_congr (haround.imp_left fun hnil => ?_)).symm
      rw [Term.length_shapes, hnil, List.length_singleton]
      exact Nat.one_lt_two

/-! ### Tokens -/

namespace Node

variable {P : Constraint → Prop} {Q : Text → Equality → Text → Prop}

mutual

theorem every_term? (h : ∀ c, P c → ∀ t ∈ c.term?, t.Every Q) : (n : Node) → n.Every P →
    ∀ t ∈ n.term?, t.Every Q
  | .leaf _ c, hn => h c hn
  | .group _ _ children, hn =>
    Term.every_operand? (Term.everyRest_iff.mp (every_terms h children hn))

theorem every_terms (h : ∀ c, P c → ∀ t ∈ c.term?, t.Every Q) : (ns : List Node) → EveryAll P ns →
    Term.EveryRest Q (terms ns)
  | [], _ => trivial
  | n :: rest, hns => by
    rw [terms, Term.everyRest_iff, List.forall_mem_append]
    exact ⟨by simpa using every_term? h n hns.1, Term.everyRest_iff.mp (every_terms h rest hns.2)⟩

end

end Node

/-- A constraint that is written such that it is read again. -/
structure Constraint.Rereadable (s : Settings) (c : Constraint) : Prop where
  loud : c.isBlank = false
  configured : s.hasAttribute c.name
  readable : c.name.Readable
  settled : c.Settled

namespace Constraint.Rereadable

variable {s : Settings} {c : Constraint}

theorem term?_eq (h : c.Rereadable s) :
    c.term? = some (.leaf c.name c.comparator.equality (Quotes.escape c.written)) := by
  simp [Constraint.term?, h.loud]

theorem readable_term? (h : c.Rereadable s) : ∀ t ∈ c.term?, t.Readable := by
  rw [h.term?_eq]
  rintro _ ⟨⟩
  exact ⟨h.readable, h.settled.closed⟩

theorem rereads_term? (hlists : ∀ a ∈ s.attributes, a.hasValueList = false) (h : c.Rereadable s) :
    ∀ t ∈ c.term?, t.Rereads s := by
  rw [h.term?_eq]
  rintro _ ⟨⟩
  have hterm := Settings.term?_eq hlists c.name c.comparator.equality h.settled.closed
  rw [if_pos h.configured, h.settled.respell] at hterm
  exact hterm

end Constraint.Rereadable

namespace Slot

variable {s : Settings} {t : Slot Group}

theorem readable_of_every (hrepeats : t.repeats.exceeded? = none)
    (h : Node.EveryAll (Constraint.Rereadable s) t.root.children) :
    (t.mapRoot Group.term?).Readable where
  root := Term.every_join? (Term.everyRest_iff.mp
    (Node.every_terms (fun _ hc => hc.readable_term?) t.root.children h))
  repeats := hrepeats

theorem shallow_of_levels (ht : t.root.Canonical)
    (hloud : Node.AllLoud t.root.children) (hlevels : t.root.shape.levels ≤ Parser.maxNesting + 1) :
    (t.mapRoot Group.term?).Shallow := by
  obtain ⟨-, hshapes⟩ := Node.AllCanonical.terms t.root.children ht.children hloud
  intro u hu
  change u ∈ t.root.term? at hu
  rw [Group.term?] at hu
  rw [Group.shape, ← hshapes] at hlevels
  cases hterms : Node.terms t.root.children with
  | nil => simp [hterms, Term.join?] at hu
  | cons first rest =>
    rw [hterms] at hu hlevels
    cases hu
    rw [← Term.levels_shape]
    exact hlevels

/-- A token is loaded with the marks that it is written with. -/
theorem marks_ofToken (u : Slot (Option Term)) (next : NodeId) :
    (ofToken s u.token next).opensSentence = u.opensSentence ∧
      (ofToken s u.token next).closesSentence = u.closesSentence := by
  constructor
  · cases h : u.opensSentence <;> simp [ofToken, token, h, isSentenceTag]
  · cases h : u.closesSentence <;> simp [ofToken, token, h, isSentenceTag]

theorem suffix_ofToken (u : Slot (Option Term)) (next : NodeId) :
    (ofToken s u.token next).suffix = u.suffix := by
  have hbounds : (ofToken s u.token next).repeats = u.repeats.written?.getD .once := rfl
  have hmark : (ofToken s u.token next).optional = u.marked := rfl
  have hwritten : (u.repeats.written?.getD .once).written? = u.repeats.written? := by
    unfold Repeats.written?
    by_cases h : u.repeats = .once ∨ u.repeats = ⟨0, some 1⟩ <;> simp [h]
  have hmarked : (ofToken s u.token next).marked = u.marked := by
    rw [marked, hbounds, hmark, marked, Repeats.written?]
    by_cases hone : u.repeats = .once
    · simp [hone, Repeats.once]
    by_cases hoption : u.repeats = ⟨0, some 1⟩
    · simp [hoption, Repeats.once]
    · have hoption' : (u.repeats == ⟨0, some 1⟩) = false := beq_eq_false_iff_ne.mpr hoption
      simp [hone, hoption, hoption']
  rw [suffix_eq, suffix_eq, hmarked, hbounds, hwritten]

/-- A token that is loaded writes what it was loaded from. -/
theorem text_ofToken {u : Slot (Option Term)} {next : NodeId}
    (hroot : (rootOf s u.token next).term?.map Term.inner = u.root.map Term.inner) :
    ((ofToken s u.token next).mapRoot Group.term?).text = u.text := by
  have hsuffix : ((ofToken s u.token next).mapRoot Group.term?).suffix = u.suffix :=
    suffix_ofToken (s := s) u next
  obtain ⟨hopens, hcloses⟩ := marks_ofToken (s := s) u next
  have hinner : ((ofToken s u.token next).mapRoot Group.term?).root.map Term.inner =
      u.root.map Term.inner := hroot
  rw [text, text, cqlAround, cqlAround, hsuffix, hinner]
  simp only [mapRoot, hopens, hcloses]

theorem admits_ofToken (u : Slot (Option Term)) (next : NodeId) (n : Nat) :
    (ofToken s u.token next).Admits n ↔ u.Admits n :=
  Iff.trans Iff.rfl (admits_token u n)

end Slot

/-! ### Builders -/

namespace Builder

/-- The token `t'` of the builder `b'` is the token `t` of the builder `b`, up to the way in which
the counts that it admits are put. -/
structure SameToken (b b' : Builder) (t t' : Slot NodeId) : Prop where
  shape : ∃ shape, b.shape t.root = .ok shape ∧ b'.shape t'.root = .ok shape
  opensSentence : t'.opensSentence = t.opensSentence
  closesSentence : t'.closesSentence = t.closesSentence
  counts : ∀ n, t'.Admits n ↔ t.Admits n

structure SameQuery (b b' : Builder) : Prop where
  tokens : List.Forall₂ (b.SameToken b') b.slots b'.slots
  within : b'.within = b.within

/-- The builder writes a query that can be read, with all there is in the builder. -/
structure Rereadable (b : Builder) : Prop where
  slots_ne : b.slots ≠ []
  constraints : ∀ id c, b.constraint id = .ok c → c.Rereadable b.settings
  /-- The root is one of the levels. -/
  levels : ∀ t ∈ b.slots, ∀ shape, b.shape t.root = .ok shape →
    shape.levels ≤ Parser.maxNesting + 1
  within : ∀ name ∈ b.within, name.ReadableElement

end Builder

/-- A draft whose query can be read, with all there is in the draft. -/
structure Draft.Rereadable (s : Settings) (d : Draft) : Prop where
  canonical : d.Canonical
  margins : d.MarginsValid
  slots_ne : d.slots ≠ []
  constraints : ∀ t ∈ d.slots, Node.EveryAll (Constraint.Rereadable s) t.root.children
  levels : ∀ t ∈ d.slots, t.root.shape.levels ≤ Parser.maxNesting + 1
  within : ∀ name ∈ d.within, name.ReadableElement

theorem Builder.Shows.rereadable {b : Builder} {s : Settings} {n : NodeId} {d : Draft}
    (hb : b.Shows s n d) (hcanonical : d.Canonical) (hmargins : d.MarginsValid)
    (h : b.Rereadable) : d.Rereadable s where
  canonical := hcanonical
  margins := hmargins
  slots_ne := by simpa [hb.slots_eq] using h.slots_ne
  constraints t ht := hb.every (fun id c hc => hb.settings_eq ▸ h.constraints id c hc) ht
  levels t ht := h.levels _ (hb.mapRoot_mem ht) _ (hb.shape_eq ht)
  within := hb.within_eq ▸ h.within

/-- The token `t'` is the token `t` with other numbers and, maybe, counts that are put in another
way. -/
structure Slot.Same (t t' : Slot Group) : Prop where
  shape : t'.root.shape = t.root.shape
  opensSentence : t'.opensSentence = t.opensSentence
  closesSentence : t'.closesSentence = t.closesSentence
  counts : ∀ n, t'.Admits n ↔ t.Admits n

namespace Draft

/-- The query that the draft writes. -/
def query (d : Draft) : Query :=
  ⟨(d.slots.map (Slot.mapRoot Group.term?)).map Slot.token, d.within⟩

def text (d : Draft) : Text :=
  joinTokens ((d.slots.map (Slot.mapRoot Group.term?)).map Slot.text) d.within

namespace Rereadable

variable {s : Settings} {d : Draft}

theorem allLoud (h : d.Rereadable s) {t : Slot Group} (ht : t ∈ d.slots) :
    Node.AllLoud t.root.children :=
  Node.everyAll_mono (fun _ hc => hc.loud) _ (h.constraints t ht)

theorem parse_text (h : d.Rereadable s) (default : Text) :
    Query.parse default d.text = .ok (some d.query) := by
  have hreadable : ∀ u ∈ d.slots.map (Slot.mapRoot Group.term?), u.Readable := by
    intro u hu
    obtain ⟨t, ht, rfl⟩ := List.mem_map.mp hu
    exact Slot.readable_of_every (h.margins.bounds t ht) (h.constraints t ht)
  refine (Query.givesIf_parse (by simpa using h.slots_ne) hreadable h.within default).gives ?_
  intro u hu
  obtain ⟨t, ht, rfl⟩ := List.mem_map.mp hu
  exact Slot.shallow_of_levels (h.canonical t ht) (h.allLoud ht) (h.levels t ht)

/-- Each token is loaded as it was, and writes what it wrote. -/
theorem reload_token (hlists : ∀ a ∈ s.attributes, a.hasValueList = false) (h : d.Rereadable s)
    {t : Slot Group} (ht : t ∈ d.slots) (next : NodeId) :
    t.Same (Slot.ofToken s (t.mapRoot Group.term?).token next) ∧
      ((Slot.ofToken s (t.mapRoot Group.term?).token next).mapRoot Group.term?).text =
        (t.mapRoot Group.term?).text := by
  -- Each leaf is read back, and the canonical shape is what makes the tree around them come back.
  have hreads : Term.RereadsRest s (Node.terms t.root.children) :=
    Node.every_terms (fun _ hc => hc.rereads_term? hlists) _ (h.constraints t ht)
  obtain ⟨hinner, hshape⟩ := Slot.rootOf_reload (h.canonical t ht) (h.allLoud ht) hreads
    (t := (t.mapRoot Group.term?).token) rfl next
  obtain ⟨hopens, hcloses⟩ := Slot.marks_ofToken (s := s) (t.mapRoot Group.term?) next
  exact ⟨⟨hshape, hopens, hcloses, Slot.admits_ofToken (t.mapRoot Group.term?) next⟩,
    Slot.text_ofToken hinner⟩

theorem reload_tokens (hlists : ∀ a ∈ s.attributes, a.hasValueList = false) (h : d.Rereadable s)
    {slots : List (Slot Group)} (hslots : ∀ t ∈ slots, t ∈ d.slots) (next : NodeId) :
    List.Forall₂ Slot.Same slots
        (ofTokens s ((slots.map (Slot.mapRoot Group.term?)).map Slot.token) next) ∧
      ((ofTokens s ((slots.map (Slot.mapRoot Group.term?)).map Slot.token) next).map
        (Slot.mapRoot Group.term?)).map Slot.text =
          (slots.map (Slot.mapRoot Group.term?)).map Slot.text := by
  induction slots generalizing next with
  | nil => exact ⟨.nil, rfl⟩
  | cons t rest ih =>
    rw [List.forall_mem_cons] at hslots
    obtain ⟨hsame, htext⟩ := h.reload_token hlists hslots.1 next
    obtain ⟨hrest, htexts⟩ := ih hslots.2 (Slot.nextAfter s (t.mapRoot Group.term?).token next)
    refine ⟨.cons hsame hrest, ?_⟩
    simp only [List.map_cons, ofTokens, htext, htexts]

end Rereadable

end Draft

/-- Builders that show the same tokens hold the same tokens. -/
theorem Builder.Shows.sameTokens {b b' : Builder} {s : Settings} {n n' : NodeId} {d d' : Draft}
    (hb : b.Shows s n d) (hb' : b'.Shows s n' d') {slots slots' : List (Slot Group)}
    (hslots : ∀ t ∈ slots, t ∈ d.slots) (hslots' : ∀ t ∈ slots', t ∈ d'.slots)
    (h : List.Forall₂ Slot.Same slots slots') :
    List.Forall₂ (b.SameToken b') (slots.map (Slot.mapRoot Group.id))
      (slots'.map (Slot.mapRoot Group.id)) := by
  induction h with
  | nil => exact .nil
  | @cons t t' _ _ hsame _ ih =>
    rw [List.forall_mem_cons] at hslots hslots'
    have hshape := hb'.shape_eq hslots'.1
    rw [hsame.shape] at hshape
    exact .cons ⟨⟨_, hb.shape_eq hslots.1, hshape⟩, hsame.opensSentence, hsame.closesSentence,
      hsame.counts⟩ (ih hslots.2 hslots'.2)

/-- A query that has been edited is written such that a fresh builder reads it, with the same tokens
and the same trees, and writes it in the same way. -/
theorem Builder.run_reload (s : Settings) (hlists : ∀ a ∈ s.attributes, a.hasValueList = false)
    (edits : List Edit) (hedits : ∀ e ∈ edits, e.Configured s)
    (hrun : ((Builder.new s).run edits).Rereadable) :
    ∃ text b, ((Builder.new s).run edits).cql? = .ok (some text) ∧
      (Builder.new s).apply (.parse (some text)) = (.ok .nothing, b) ∧
      b.cql? = .ok (some text) ∧ ((Builder.new s).run edits).SameQuery b := by
  obtain ⟨n, d, hb, hcanonical, hmargins⟩ := Builder.run_shows (s := s)
    (P := fun d => d.Canonical ∧ d.MarginsValid) (Q := Edit.Configured s)
    ⟨Draft.canonical_ofQuery (by simp), .ofQuery (by simp)⟩
    (fun _ _ _ _ _ he hstep hd => ⟨hstep.canonical he hd.1, hstep.marginsValid hd.2⟩) edits hedits
  have hd := hb.rereadable hcanonical hmargins hrun
  obtain ⟨n', b, happly, hb'⟩ := (Builder.new_shows s).apply_parse (hd.parse_text s.defaultAttribute)
  obtain ⟨hsame, htexts⟩ := hd.reload_tokens hlists (fun _ => id) 0
  -- An element without a name is never kept, so none is lost on the way back.
  have hwithin : d.within.filter (!·.isEmpty) = d.within := by
    cases hname : d.within with
    | none => rfl
    | some name =>
      have hne : name ≠ [] := fun hnil => hmargins.within (hname.trans (congrArg some hnil))
      simp [Option.filter, hne]
  refine ⟨d.text, b, hb.cql?_eq hd.slots_ne, happly, ?_, ?_, ?_⟩
  · rw [hb'.cql?_ofQuery (by simpa [Draft.query] using hd.slots_ne), Draft.query, htexts, hwithin,
      Draft.text]
  · rw [hb.slots_eq, hb'.slots_eq]
    exact hb.sameTokens hb' (fun _ => id) (fun _ => id) hsame
  · rw [hb.within_eq, hb'.within_eq]
    exact hwithin

/-- Two words, or one that two constraints describe: a group within the root. -/
def Edit.sample : List Edit := [
  .setField 0 (.value (.text ['a'])), .createConstraint 1 .or none,
  .setField 2 (.value (.multiple [['b'], ['|']])), .createConstraint 1 .and (some 2),
  .setField 3 (.uploaded (some ['c'])), .setMark 0 .opensSentence true,
  .setRepeats 0 ⟨2, some 3⟩, .setWithin (some ['s'])]

theorem Edit.configured_sample : ∀ e ∈ Edit.sample, e.Configured .standard := by
  intro e he query hloads
  cases hloads with
  | parse pattern _ hq => simp [sample] at he
  | populate => simp [sample] at he

theorem Builder.rereadable_sample : ((Builder.new .standard).run Edit.sample).Rereadable where
  slots_ne := by decide
  constraints id c hc := by
    have hword : Text.Readable "word".toList :=
      Parser.readable_of_isName (by decide) (by decide) (by decide)
    match id with
    | 0 => cases hc; exact ⟨rfl, by decide, hword, by rintro regex - ⟨⟩; decide⟩
    | 1 => cases hc
    | 2 => cases hc; exact ⟨rfl, by decide, hword, by rintro regex - ⟨⟩⟩
    | 3 => cases hc; exact ⟨rfl, by decide, hword, by rintro regex ⟨⟩⟩
    | 4 => cases hc
    | _ + 5 => cases hc
  levels t ht shape hshape := by
    have hroot : ∀ t ∈ ((Builder.new .standard).run Edit.sample).slots, t.root = 1 := by decide
    have hlevels : (((Builder.new .standard).run Edit.sample).shape 1).toOption.map Shape.levels =
        some 2 := by
      decide +kernel
    rw [hroot t ht] at hshape
    rw [hshape] at hlevels
    have htwo : shape.levels = 2 := Option.some.inj hlevels
    rw [htwo]
    decide
  within := by
    have hwithin : ((Builder.new .standard).run Edit.sample).within = some ['s'] := rfl
    rw [hwithin]
    rintro _ ⟨⟩
    simp [Text.ReadableElement, isLayout]

theorem Builder.run_reload_sample : ∃ text b,
    ((Builder.new .standard).run Edit.sample).cql? = .ok (some text) ∧
      (Builder.new .standard).apply (.parse (some text)) = (.ok .nothing, b) ∧
      b.cql? = .ok (some text) ∧ ((Builder.new .standard).run Edit.sample).SameQuery b :=
  Builder.run_reload .standard (by decide) Edit.sample Edit.configured_sample
    Builder.rereadable_sample

end CorpusQuery
