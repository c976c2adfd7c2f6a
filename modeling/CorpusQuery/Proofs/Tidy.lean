import CorpusQuery.Proofs.Meaning
import CorpusQuery.Proofs.Reload

/-!
Parentheses that could be left out. What is written once is read and loaded again; that takes such
parentheses away, and where there are none it changes nothing.
-/

namespace CorpusQuery

/-- What is written of an expression between brackets. -/
def Expr.term? (s : Settings) (e : Expr) : Option Term :=
  Term.join? (e.connective?.getD s.rootOperator) (e.terms s (e.connective?.getD s.rootOperator))

namespace Term

/-- Between brackets no parentheses stand around everything, around a single operand, or around
operands that are joined as those outside. -/
def Tidy : Term → Prop
  | .leaf _ _ _ => True
  | .group operator first rest =>
    first.Canonical operator ∧ CanonicalRest operator rest ∧
      (rest = [] → ∃ name equality raw, first = .leaf name equality raw)

variable {s : Settings}

/-- Tidy terms are written again as they are. -/
theorem Tidy.term?_expr {u : Term} (hu : u.Tidy) (hreads : u.Rereads s) :
    (u.expr.term? s).map inner = some u.inner := by
  cases u with
  | leaf name equality raw =>
    have hterm : s.term? name equality raw = some (.leaf name equality raw) := hreads
    simp [expr, Expr.term?, Expr.terms, hterm, join?, inner, restText]
  | group operator first rest =>
    obtain ⟨hfirst, hrest, hsingle⟩ := hu
    have haround := getD_connective?_restExpr operator s.rootOperator first.expr rest
    generalize he : restExpr operator first.expr rest = e at haround
    have hcanonical : CanonicalRest (e.connective?.getD s.rootOperator) (first :: rest) := by
      rcases haround with rfl | rfl
      · obtain ⟨name, equality, raw, rfl⟩ := hsingle rfl
        exact ⟨trivial, trivial⟩
      · exact ⟨hfirst, hrest⟩
    have hterms := terms_root s hcanonical hreads haround
    rw [he] at hterms
    rw [expr, he, Expr.term?, hterms]
    exact congrArg some (inner_congr haround).symm

/-! ### The room that operands take up -/

/-- The length of operands, each with a connective. -/
def room : List Term → Nat
  | [] => 0
  | t :: rest => t.text.length + 3 + room rest

theorem length_restText (operator : Connective) (ts : List Term) :
    (restText operator ts).length = room ts := by
  have hsymbol : operator.symbol.length = 1 := by cases operator <;> rfl
  induction ts with
  | nil => rfl
  | cons t rest ih =>
    simp only [restText, room, List.length_append, List.length_singleton, hsymbol, ih]
    omega

theorem room_append (ts us : List Term) : room (ts ++ us) = room ts + room us := by
  induction ts with
  | nil => simp [room]
  | cons t rest ih =>
    rw [List.cons_append, room, ih, room]
    omega

theorem room_group (operator : Connective) (first : Term) (rest : List Term) :
    room [group operator first rest] = room (first :: rest) + 2 := by
  simp only [room, text, List.length_append, List.length_singleton, length_restText]
  omega

/-- Parentheses come with a second operand. -/
theorem room_operand? (operator : Connective) (ts : List Term) :
    room (operand? operator ts).toList ≤ room ts + 2 := by
  match ts with
  | [] => simp [operand?, join?, room]
  | [t] => simp [operand?]
  | t :: u :: rest => exact (room_group operator t (u :: rest)).le

mutual

/-- No operand takes up more room than before, and none the same room without being canonical. -/
theorem room_terms (around : Connective) : (t : Term) → t.Rereads s →
    room (t.expr.terms s around) ≤ room [t] ∧
      (room (t.expr.terms s around) = room [t] → t.Canonical around)
  | .leaf name equality raw, hreads => by
    have hterm : s.term? name equality raw = some (.leaf name equality raw) := hreads
    rw [expr, Expr.terms, hterm]
    exact ⟨Nat.le_refl _, fun _ => trivial⟩
  | .group operator first [], hreads => by
    obtain ⟨hle, -⟩ := room_terms around first hreads.1
    have hroom := room_group operator first []
    rw [expr, restExpr]
    exact ⟨by omega, fun heq => by omega⟩
  | .group operator first (t :: rest), hreads => by
    obtain ⟨hfirst, hfirst'⟩ := room_terms operator first hreads.1
    obtain ⟨hrest, hrest'⟩ := room_restExpr operator first.expr (t :: rest) hreads.2
    have hroom := room_group operator first (t :: rest)
    have hsplit := room_append [first] (t :: rest)
    rw [List.singleton_append] at hsplit
    have hconnective : (restExpr operator first.expr (t :: rest)).connective? = some operator :=
      connective?_restExpr operator first.expr t.expr rest
    rw [expr]
    generalize restExpr operator first.expr (t :: rest) = e at *
    by_cases hne : operator = around
    · subst hne
      exact ⟨by omega, fun heq => by omega⟩
    · rw [terms_of_connective? s hconnective hne]
      have hparens := room_operand? operator (e.terms s operator)
      exact ⟨by omega, fun heq => ⟨hne, List.cons_ne_nil t rest, hfirst' (by omega),
        hrest' (by omega)⟩⟩

theorem room_restExpr (operator : Connective) (left : Expr) : (ts : List Term) →
    RereadsRest s ts →
    room ((restExpr operator left ts).terms s operator) ≤
        room (left.terms s operator) + room ts ∧
      (room ((restExpr operator left ts).terms s operator) =
        room (left.terms s operator) + room ts → CanonicalRest operator ts)
  | [], _ => ⟨Nat.le_refl _, fun _ => trivial⟩
  | t :: rest, hreads => by
    obtain ⟨ht, ht'⟩ := room_terms operator t hreads.1
    obtain ⟨hrest, hrest'⟩ := room_restExpr operator (.binary operator left t.expr) rest
      hreads.2
    have hsplit := room_append [t] rest
    rw [List.singleton_append] at hsplit
    have hleft : room ((Expr.binary operator left t.expr).terms s operator) =
        room (left.terms s operator) + room (t.expr.terms s operator) := by
      rw [Expr.terms, if_pos rfl, room_append]
    rw [restExpr]
    exact ⟨by omega, fun heq => ⟨ht' (by omega), hrest' (by omega)⟩⟩

end

/-- Around everything no parentheses stay. -/
theorem exists_leaf_of_canonical {t : Term} {default : Connective}
    (h : t.Canonical (t.expr.connective?.getD default)) :
    ∃ name equality raw, t = .leaf name equality raw := by
  cases t with
  | leaf name equality raw => exact ⟨name, equality, raw, rfl⟩
  | group operator first rest =>
    rcases getD_connective?_restExpr operator default first.expr rest with hnil | hsame
    · exact absurd hnil h.2.1
    · exact absurd hsame h.1

/-- What is written again between brackets is no longer, and shorter unless it was tidy. -/
theorem length_inner {operator : Connective} {first : Term} {rest : List Term} {u : Term}
    (hreads : (group operator first rest).Rereads s)
    (hu : (group operator first rest).expr.term? s = some u) :
    u.inner.length ≤ (group operator first rest).inner.length ∧
      (u.inner.length = (group operator first rest).inner.length →
        (group operator first rest).Tidy) := by
  have hlength : ∀ operator first rest, (group operator first rest).inner.length + 3 =
      room (first :: rest) := by
    intro operator first rest
    simp only [inner, List.length_append, length_restText, room]
    omega
  have hroom : room ((group operator first rest).expr.terms s
        ((group operator first rest).expr.connective?.getD s.rootOperator)) ≤ room (first :: rest) ∧
      (room ((group operator first rest).expr.terms s
        ((group operator first rest).expr.connective?.getD s.rootOperator)) = room (first :: rest) →
        (group operator first rest).Tidy) := by
    cases rest with
    | nil =>
      -- The operand by itself is joined by its own connective, so its parentheses go.
      obtain ⟨hle, heq⟩ := room_terms (first.expr.connective?.getD s.rootOperator) first
        hreads.1
      refine ⟨hle, fun h => ?_⟩
      obtain ⟨name, equality, raw, rfl⟩ := exists_leaf_of_canonical (heq h)
      exact ⟨trivial, trivial, fun _ => ⟨name, equality, raw, rfl⟩⟩
    | cons t rest =>
      obtain ⟨hfirst, hfirst'⟩ := room_terms operator first hreads.1
      obtain ⟨hrest, hrest'⟩ := room_restExpr operator first.expr (t :: rest) hreads.2
      have hsplit := room_append [first] (t :: rest)
      rw [List.singleton_append] at hsplit
      have hconnective : (group operator first (t :: rest)).expr.connective? = some operator :=
        connective?_restExpr operator first.expr t.expr rest
      rw [hconnective, Option.getD_some, expr]
      exact ⟨by omega, fun heq => ⟨hfirst' (by omega), hrest' (by omega), by simp⟩⟩
  have hbefore := hlength operator first rest
  rw [Expr.term?] at hu
  generalize (group operator first rest).expr.terms s
    ((group operator first rest).expr.connective?.getD s.rootOperator) = ts at hroom hu
  cases ts with
  | nil => cases hu
  | cons first' rest' =>
    cases hu
    have hafter := hlength ((group operator first rest).expr.connective?.getD s.rootOperator)
      first' rest'
    exact ⟨by omega, fun heq => hroom.2 (by omega)⟩

/-! ### The depth of parentheses -/

theorem restDepth_append (ts us : List Term) :
    restDepth (ts ++ us) = max (restDepth ts) (restDepth us) := by
  induction ts with
  | nil => simp [restDepth]
  | cons t rest ih => rw [List.cons_append, restDepth, ih, restDepth, Nat.max_assoc]

theorem restDepth_operand? (operator : Connective) (ts : List Term) :
    restDepth (operand? operator ts).toList ≤ restDepth ts + 1 := by
  match ts with
  | [] => simp [operand?, join?, restDepth]
  | [t] => simp [operand?]
  | t :: u :: rest => simp [operand?, join?, restDepth, depth]

mutual

/-- Parentheses nest no deeper than before. -/
theorem restDepth_terms (around : Connective) : (t : Term) → t.Rereads s →
    restDepth (t.expr.terms s around) ≤ t.depth
  | .leaf name equality raw, hreads => by
    have hterm : s.term? name equality raw = some (.leaf name equality raw) := hreads
    rw [expr, Expr.terms, hterm]
    exact Nat.le_refl _
  | .group operator first [], hreads => by
    have hfirst := restDepth_terms around first hreads.1
    rw [expr, restExpr, depth]
    omega
  | .group operator first (t :: rest), hreads => by
    have hfirst := restDepth_terms operator first hreads.1
    have hrest := restDepth_restExpr operator first.expr (t :: rest) hreads.2
    have hconnective : (restExpr operator first.expr (t :: rest)).connective? = some operator :=
      connective?_restExpr operator first.expr t.expr rest
    rw [expr, depth]
    generalize restExpr operator first.expr (t :: rest) = e at *
    by_cases hne : operator = around
    · subst hne
      omega
    · rw [terms_of_connective? s hconnective hne]
      have hparens := restDepth_operand? operator (e.terms s operator)
      omega

theorem restDepth_restExpr (operator : Connective) (left : Expr) : (ts : List Term) →
    RereadsRest s ts → restDepth ((restExpr operator left ts).terms s operator) ≤
      max (restDepth (left.terms s operator)) (restDepth ts)
  | [], _ => Nat.le_max_left _ _
  | t :: rest, hreads => by
    have ht := restDepth_terms operator t hreads.1
    have hrest := restDepth_restExpr operator (.binary operator left t.expr) rest hreads.2
    rw [Expr.terms, if_pos rfl, restDepth_append] at hrest
    rw [restExpr, restDepth]
    omega

end

theorem depth_term?_expr {operator : Connective} {first : Term} {rest : List Term} {u : Term}
    (hreads : (group operator first rest).Rereads s)
    (hu : (group operator first rest).expr.term? s = some u) :
    u.depth ≤ (group operator first rest).depth := by
  have hdepth : restDepth ((group operator first rest).expr.terms s
      ((group operator first rest).expr.connective?.getD s.rootOperator)) ≤
        max first.depth (restDepth rest) := by
    cases rest with
    | nil => exact (restDepth_terms _ first hreads.1).trans (Nat.le_max_left _ _)
    | cons t rest =>
      have hconnective : (group operator first (t :: rest)).expr.connective? = some operator :=
        connective?_restExpr operator first.expr t.expr rest
      have hfirst := restDepth_terms operator first hreads.1
      have hrest := restDepth_restExpr operator first.expr (t :: rest) hreads.2
      rw [hconnective, Option.getD_some, expr]
      omega
  rw [Expr.term?] at hu
  generalize (group operator first rest).expr.terms s
    ((group operator first rest).expr.connective?.getD s.rootOperator) = ts at hdepth hu
  cases ts with
  | nil => cases hu
  | cons first' rest' =>
    cases hu
    rw [depth, depth]
    exact Nat.succ_le_succ hdepth

end Term

/-- A canonical tree writes one operand for each child of its root. -/
theorem Group.Canonical.length_terms {g : Group} (hg : g.Canonical)
    (hloud : Node.AllLoud g.children) : (Node.terms g.children).length = g.children.length := by
  obtain ⟨-, hshapes⟩ := Node.AllCanonical.terms g.children hg.children hloud
  rw [← Term.length_shapes, hshapes, Node.length_shapes]

/-- What is written of a canonical tree is tidy. -/
theorem Group.Canonical.tidy {g : Group} (hg : g.Canonical) (hloud : Node.AllLoud g.children) :
    ∀ u ∈ g.term?, u.Tidy := by
  obtain ⟨hcanonical, -⟩ := Node.AllCanonical.terms g.children hg.children hloud
  intro u hu
  rw [Group.term?] at hu
  cases hterms : Node.terms g.children with
  | nil => simp [hterms, Term.join?] at hu
  | cons first rest =>
    rw [hterms] at hcanonical hu
    cases hu
    refine ⟨hcanonical.1, hcanonical.2, ?_⟩
    rintro rfl
    -- A root that writes one operand has one child, which is not a group.
    have hlength := hg.length_terms hloud
    rw [hterms] at hlength
    obtain ⟨m, hm⟩ := List.length_eq_one_iff.mp hlength.symm
    cases m with
    | group id operator children => exact absurd ⟨id, operator, children, hm⟩ hg.fits
    | leaf id c =>
      rw [hm] at hterms
      have hterm : c.term? = some first := by simpa [Node.terms, Node.term?] using hterms
      unfold Constraint.term? at hterm
      split at hterm
      next => cases hterm
      next => exact ⟨_, _, _, (Option.some.inj hterm).symm⟩

/-- Where all attributes are known, something is written, and it is tidy. -/
theorem Expr.Configured.exists_term? {s : Settings} {e : Expr} (he : e.Configured s) :
    ∃ u, e.term? s = some u ∧ u.Tidy := by
  have hroot := Group.canonical_ofExpr he 0 1
  have hloud : Node.AllLoud (Group.ofExpr s 0 e 1).children := e.allLoud_nodes _ 1
  have hterm : (Group.ofExpr s 0 e 1).term? = e.term? s := e.term?_ofExpr s 0 1
  have hlength := (he.length_nodes (e.connective?.getD s.rootOperator) 1).1
  have hterms := hroot.length_terms hloud
  rw [← hterm]
  cases hu : (Group.ofExpr s 0 e 1).term? with
  | none =>
    rw [Group.term?] at hu
    cases hnil : Node.terms (Group.ofExpr s 0 e 1).children with
    | nil =>
      rw [hnil] at hterms
      exact absurd hterms (Nat.ne_of_lt hlength)
    | cons first rest =>
      rw [hnil] at hu
      cases hu
  | some u => exact ⟨u, rfl, hroot.tidy hloud u hu⟩

end CorpusQuery
